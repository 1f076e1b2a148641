import SearchDaemon.Control.Stopping

/-!
# The commands

Starting, stopping and restarting a daemon, and asking for its status. Each
command ends with a status; a daemon started in the foreground goes on serving in
the command's own process.
-/

namespace SearchDaemon.Control

/-- How a command can leave off. -/
inductive Outcome where
  | exited (status : Nat)
  /-- The command's own process serves clients now. -/
  | serving (program : Program)

/-- The command's options with the paths it does not give. -/
def resolve (o : Options) (home : Home) : Options :=
  { o with config := o.config.resolve home }

/-- An absolute path that leads to the same place. -/
def absolute (v : Vantage) (path : Bytes) : Bytes :=
  if path.head? = some 47 then path else v.cwd.flatMap (47 :: ·) ++ 47 :: path

variable (o : Options) (m : Machine) (c : Console)

/-- Starts a daemon in the command's own process. -/
def startHere : Outcome × Machine × Console :=
  let opened := if o.logFile.isEmpty then (true, m.host.tree, none)
    else
      match m.host.tree.openForWriting m.vantage o.logFile 0o666 with
      | .ok (tree, place) => (true, tree, some place)
      | .error _ => (false, m.host.tree, none)
  let c := if opened.1 then c
    else c.complain (text "Cannot open log file " ++ o.logFile ++ text ", logging to stdout")
  let p : Program :=
    { daemon := Daemon.new o.config fun tree => .standard tree m.vantage.cwd
      process := { pid := m.nextPid, vantage := m.vantage, home := m.home }
      threshold := c.threshold
      logFile := opened.2.2 }
  let (ok, p, host) := p.launch { m.host with tree := opened.2.1 }
  let m := { m with host, nextPid := m.nextPid + 1 }
  if ok then (.serving p, m, c) else (.exited 1, m, { c with out := c.out ++ p.printed })

/-- How long to wait for a detached daemon to come up, in seconds. -/
def startupWait : Nat := 5

/-- Runs a daemon in a process of its own, away from the directory and the output of
the command. -/
def detach (logFile : Bytes) : Machine :=
  let v : Vantage := { cwd := [], umask := 0o077 }
  let (ready, tree, _) := m.host.tree.ensureDirectory v (parentDirectory logFile) 0o700
  let m := { m with host := { m.host with tree }, nextPid := m.nextPid + 1 }
  if !ready then m
  else
    match tree.openForWriting v logFile 0o666 with
    | .error _ => m
    | .ok (tree, place) =>
        let pid := m.nextPid - 1
        let p : Program :=
          { daemon := Daemon.new o.config fun tree => .standard tree v.cwd
            process := { pid, vantage := v, home := m.home }
            threshold := o.logLevel
            logFile := some place }
        let (ok, p, host) := p.launch { m.host with tree }
        let ending := if ok then none else some (m.clock, 1)
        { m with host, residents := { pid, role := .daemon p, ending } :: m.residents }

/-- Starts a daemon in the background and waits until it answers. -/
def startDetached : Outcome × Machine × Console :=
  let config :=
    { o.config with
      socketPath := absolute m.vantage o.config.socketPath
      pidFile := absolute m.vantage o.config.pidFile }
  if o.logFile.isEmpty && m.home.directory?.isNone then
    (.exited 1, m, c.complain (text "Error: " ++ Home.unknown))
  else
    let logFile := if o.logFile.isEmpty then m.home.logFile else absolute m.vantage o.logFile
    let m := detach { o with config } m logFile
    let (accepts, m', journal) := m.knock config.socketPath
    if accepts then
      let (pid, lines) := m'.runningPid config.pidFile
      let who := match pid with
        | some pid => text " (PID: " ++ decimalInt pid ++ text ")"
        | none => []
      (.exited 0, m', ((c.log journal).log lines).say (text "inshd started" ++ who))
    else
      (.exited 1, m'.wait (1000 * startupWait),
        (c.log journal).complain (text "inshd did not come up within " ++ decimal startupWait ++
          text " seconds, see " ++ m.home.logFile))

/-- Removes what an earlier daemon may have left. -/
def clearLeftovers : Machine × Console :=
  let (host, socket) := m.host.removeFile m.vantage o.config.socketPath
  let (host, pidFile) := host.removeFile m.vantage o.config.pidFile
  ({ m with host }, (c.log socket).log pidFile)

/-- Starts a daemon, unless the pid file names a process that is alive. -/
def start : Outcome × Machine × Console :=
  let (pid, journal) := m.runningPid o.config.pidFile
  let c := c.log journal
  match pid with
  | some pid =>
      (.exited 1, m, c.complain (text "inshd is already running (PID: " ++ decimalInt pid ++
        text ")"))
  | none =>
      let (m, c) := if o.force then clearLeftovers o m c else (m, c)
      if o.foreground then startHere o m c else startDetached o m c

/-- Stops the daemon if it runs, and starts one. -/
def restart : Outcome × Machine × Console :=
  let (pid, journal) := m.runningPid o.config.pidFile
  let c := c.log journal
  let (status, m, c) := if pid.isSome then stop o m c else (0, m, c)
  if status = 0 then start { o with force := false } m c else (.exited status, m, c)

/-- Says whether a daemon runs. -/
def status : Outcome × Machine × Console :=
  let (pid, journal) := m.runningPid o.config.pidFile
  let c := c.log journal
  match pid with
  | none => (.exited 1, m, c.say (text "Status: Not running"))
  | some pid =>
      let (accepts, m, journal) := m.knock o.config.socketPath
      let c := c.log journal
      if accepts then
        (.exited 0, m, c.say (text "Status: Running (PID: " ++ decimalInt pid ++ text ")"))
      else (.exited 1, m, c.say (text "Status: Not running"))

/-- The commands there are. -/
def commands : List Bytes := [text "start", text "stop", text "restart", text "status"]

/-- Carries out a command. Each of them looks for the paths that it is not given first. -/
def execute (order : CommandLine.Order) : Outcome × Machine × Console :=
  let o := resolve order.options m.home
  let c := { c with threshold := o.logLevel }
  if order.command ∈ commands ∧ order.options.config.lacksHome m.home then
    (.exited 1, m, c.complain (text "Error: " ++ Home.unknown))
  else if order.command = text "start" then start o m c
  else if order.command = text "stop" then
    let (status, m, c) := stop o m c
    (.exited status, m, c)
  else if order.command = text "restart" then restart o m c
  else if order.command = text "status" then status o m c
  else
    let c := if order.command.isEmpty then c.complain (text "No command given")
      else c.complain (text "Unknown command: " ++ order.command)
    (.exited 1, m, { c with out := c.out ++ CommandLine.usage (text "inshd") })

/-- Runs the program on its arguments. -/
def run (args : List Bytes) (m : Machine) : Outcome × Machine × Console :=
  let withUsage (c : Console) : Console :=
    { c with out := c.out ++ CommandLine.usage (text "inshd") }
  match CommandLine.parse args with
  | .ok order => execute m {} order
  | .error .help => (.exited 0, m, withUsage {})
  | .error (.unknownOption arg) =>
      (.exited 1, m, withUsage (({} : Console).complain (text "Unknown option: " ++ arg)))
  | .error (.invalid what) =>
      (.exited 1, m, withUsage (({} : Console).complain (text "Invalid argument: " ++ what)))

/-- What becomes of a daemon in the foreground when a client connects, makes a call and
stays, and then a signal comes: how it ends, what it printed, and the machine. -/
def serveUntil (signal : Signal) (request : Request) (p : Program) (m : Machine) :
    Fate × Bytes × Machine :=
  let (_, p, host) := p.serve m.host fun tree d =>
    let (i, d, accepted) := d.accept tree
    let (_, d, called) := d.clientCalls tree i request
    ((), d, accepted ++ called)
  let (fate, p, host) := p.signal host signal
  (fate, p.printed, { m with host })

/-- Runs the program on its arguments. If it serves then, a client and a signal come as
for `serveUntil`. -/
def runUntil (signal : Signal) (request : Request) (args : List Bytes) (m : Machine) :
    Fate × Machine × Console :=
  match run args m with
  | (.exited status, m, c) => (.exited status, m, c)
  | (.serving p, m, c) =>
      let (fate, printed, m) := serveUntil signal request p m
      (fate, m, { c with out := c.out ++ printed })

end SearchDaemon.Control
