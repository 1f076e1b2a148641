import SearchDaemon.Daemon.Stopping

/-!
# Starting a daemon

A start goes through stages: the directories, the socket, the pid file, the
threads and the signals. The first stage that fails ends it, and what was done so
far is undone by a shutdown. A daemon can be started once.
-/

namespace SearchDaemon.Daemon

/-- One stage of a start, and whether it succeeded. -/
abbrev Stage := Daemon → Site → Bool × Daemon × Site × Log.Journal

/-- Goes on to a second stage if the first succeeds. -/
def Stage.andThen (a b : Stage) : Stage := fun d site =>
  match a d site with
  | (true, d, site, journal) =>
      let (ok, d, site, lines) := b d site
      (ok, d, site, journal ++ lines)
  | failed => failed

/-- Makes the directory in which a file is to be. -/
def makeParent (path : Daemon → Bytes) : Stage := fun d site =>
  let (ok, tree, journal) := site.host.tree.ensureDirectory site.process.vantage
    (parentDirectory (path d)) 0o700
  (ok, d, { site with host := { site.host with tree } },
    if ok then journal
    else journal ++ [Log.error (text "Failed to create runtime directories")])

/-- Binds the socket. -/
def bindListener : Stage := fun d site =>
  let b := ({ path := d.config.socketPath } : Listener).bind site.host site.process.vantage
  (b.ok, { d with listener := some b.listener },
    { site with host := b.host, probed := site.probed ++ b.probed.toList },
    if b.ok then b.journal
    else b.journal ++ [Log.error (text "Failed to bind " ++ d.config.socketPath)])

/-- Writes the pid file. -/
def writePidFile : Stage := fun d site =>
  let (ok, tree, journal) :=
    PidFile.write site.host.tree site.process.vantage d.config.pidFile site.process.pid
      site.host.shortWrite
  (ok, { d with pidFileWritten := ok }, { site with host := { site.host with tree } }, journal)

/-- Starts the workers and the scheduler. -/
def startThreads : Stage := fun d site =>
  let s := { d.service with workers := Worker.pool d.config.workers d.config.queueCapacity }
  let (s, workers) := s.startWorkers
  let (s, scheduler) := s.startScheduler
  let (d, lines) := { d with service := s }.settle site.host.tree
  (true, d, site, workers ++ scheduler ++ lines)

/-- Takes over the termination signals, if the daemon is to handle them. -/
def startSignals : Stage := fun d site =>
  if d.config.handleSignals then
    let t := site.process.signals
    let i := t.handlers.length
    let t := { t with handlers := t.handlers ++ [({} : SignalHandler)] }
    let (ok, signals, journal) := t.start i
    (ok, { d with signalHandler := some i },
      { site with process := { site.process with signals } },
      if ok then journal
      else journal ++ [Log.error (text "Failed to install signal handlers")])
  else (true, d, site, [])

/-- Starts the monitor and opens the door. -/
def openDoor : Stage := fun d site =>
  let (s, journal) := d.service.startMonitor
  let (d, lines) := { d with service := s, running := true }.settle site.host.tree
  (true, d, site, journal ++ lines ++ [Log.debug (text "Accept loop started"),
    Log.info (text "inshd ready on " ++ d.config.socketPath)])

/-- All stages in their order. -/
def bringUp : Stage :=
  (makeParent (·.config.socketPath)).andThen <| (makeParent (·.config.pidFile)).andThen <|
    Stage.andThen bindListener <| Stage.andThen writePidFile <| Stage.andThen startThreads <|
      Stage.andThen startSignals openDoor

/-- What speaks against the config before anything is done. -/
def objection? (d : Daemon) (site : Site) : Option Bytes :=
  if d.config.workers = 0 then some (text "At least one worker is required")
  else if d.config.lacksHome site.process.home then some Home.unknown
  else none

/-- The daemon with all its paths, about to be brought up. -/
def opened (d : Daemon) (site : Site) : Daemon :=
  { d with started := true, config := d.config.resolve site.process.home }

/-- The line with which a start begins. -/
def announcement (d : Daemon) (site : Site) : Log.Line :=
  Log.info (text "Starting inshd (pid " ++ decimal site.process.pid ++ text ", " ++
    decimal d.config.workers ++ text " workers, processor '" ++
    (d.processor site.host.tree).name ++ text "')")

/-- Starts the daemon. If that fails, everything done for it is undone. -/
def start : Stage := fun d site =>
  if d.started then (false, d, site, [Log.warning (text "Coordinator already started")])
  else
    match d.objection? site with
    | some objection => (false, { d with started := true }, site, [Log.error objection])
    | none =>
        match (d.opened site).bringUp site with
        | (true, d', site', journal) => (true, d', site', d.announcement site :: journal)
        | (false, d', site', journal) =>
            let (d', site', lines) := d'.stop site'
            (false, d', site', d.announcement site :: journal ++ lines)

end SearchDaemon.Daemon
