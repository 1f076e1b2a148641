import SearchDaemon.Daemon.Serving
import SearchDaemon.Daemon.Starting
import SearchDaemon.Log.Routing

/-!
# A process that runs a daemon

A program is a process with a daemon in it whose log goes to a file or to the
standard output. It starts the daemon, serves until a shutdown is asked for, and
then stops the daemon, logs the statistics and exits.
-/

namespace SearchDaemon

structure Program where
  daemon : Daemon
  process : Process
  threshold : Log.Level := .info
  /-- Where its log goes, if it is a file. -/
  logFile : Option Place := none
  /-- What it has written to its standard output. -/
  printed : Bytes := []

namespace Program

variable (p : Program) (host : Host)

/-- Writes lines to the log. -/
def log (journal : Log.Journal) : Program × Host :=
  let r : Log.Routing :=
    { threshold := p.threshold, file := p.logFile, tree := host.tree, printed := p.printed }
  let r := r.writeAll journal
  ({ p with printed := r.printed }, { host with tree := r.tree })

/-- Does something with the daemon and logs what it has to say. -/
def act {α : Type} (change : Daemon → Site → α × Daemon × Site × Log.Journal) :
    α × Program × Host :=
  let (answer, daemon, site, journal) := change p.daemon { host, process := p.process }
  (answer, { p with daemon, process := site.process }.log site.host journal)

/-- Starts the daemon. Answers whether it serves now. -/
def launch : Bool × Program × Host :=
  p.act host fun daemon site =>
    let (ok, daemon, site, journal) := daemon.start site
    (ok, daemon, site, journal ++ [if ok then
        Log.info (text "inshd running. Press Ctrl+C to stop.")
      else Log.error (text "Failed to start inshd")])

/-- Stops the daemon and says what it has done. -/
def finish : Program × Host :=
  (p.act host fun daemon site =>
    let (daemon, site, journal) := daemon.stop site
    ((), daemon, site, journal ++ [Log.info daemon.statistics])).2

/-- Clients do something. -/
def serve {α : Type} (visit : FileTree → Daemon → α × Daemon × Log.Journal) :
    α × Program × Host :=
  p.act host fun daemon site =>
    let (answer, daemon, journal) := visit site.host.tree daemon
    (answer, daemon, site, journal)

/-- A signal reaches the program. Answers how it ends, if it does. -/
def signal (s : Signal) : Fate × Program × Host :=
  let (fate, daemon, site, journal) := p.daemon.signaled { host, process := p.process } s
  let (p, host) := { p with daemon, process := site.process }.log site.host journal
  match fate with
  | .alive => if p.daemon.shutdownRequested then (.exited 0, p.finish host) else (.alive, p, host)
  | fate => (fate, p, host)

end Program

end SearchDaemon
