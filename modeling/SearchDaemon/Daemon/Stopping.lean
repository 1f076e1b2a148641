import SearchDaemon.Daemon
import SearchDaemon.Service.Teardown

/-!
# Stopping a daemon

The shutdown goes from the outside in: no more clients, then the threads of the
service, the signal handler, and last the files. It is carried out once; stopping
again changes nothing.
-/

namespace SearchDaemon

namespace Daemon

variable (d : Daemon) (site : Site)

/-- Accepts no more clients; the socket's file stays. -/
def closeListener : Daemon × Site × Log.Journal :=
  match d.listener with
  | none => (d, site, [])
  | some l =>
      let (closed, host) := l.stop.close site.host
      ({ d with listener := some closed }, { site with host },
        if d.running && !l.broken then [Log.debug (text "Accept loop stopped")] else [])

/-- Ends all threads of the service. -/
def endThreads : Daemon × Log.Journal :=
  let (t, journal) :=
    ({ service := d.service } : Teardown).finish (d.processor site.host.tree).processing
  ({ d with service := t.service }, journal)

/-- Gives the termination signals back. -/
def stopSignals : Site × Log.Journal :=
  match d.signalHandler with
  | none => (site, [])
  | some i =>
      let (signals, journal) := site.process.signals.stop i
      ({ site with process := { site.process with signals } }, journal)

/-- Removes the socket's file and the pid file, as far as this daemon made them. -/
def removeFiles : Daemon × Site × Log.Journal :=
  let v := site.process.vantage
  let (listener, host, journal) : Option Listener × Host × Log.Journal := match d.listener with
    | none => (none, site.host, [])
    | some l =>
        let (l, host, journal) := l.removeSocketFile site.host v
        (some l, host, journal)
  let (host, lines) : Host × Log.Journal :=
    if d.pidFileWritten then host.removeFile v d.config.pidFile else (host, [])
  ({ d with listener, pidFileWritten := false }, { site with host }, journal ++ lines)

/-- Gives back and removes what is the daemon's own, once its threads have ended. -/
def tidyUp : Daemon × Site × Log.Journal :=
  let (site, signals) := d.stopSignals site
  let (d, site, files) := d.removeFiles site
  (d, site, signals ++ files)

/-- Carries out the shutdown. -/
def shutDown : Daemon × Site × Log.Journal :=
  let running := d.running
  let (d, site, listener) := d.closeListener site
  let (d, threads) := { d with running := false }.endThreads site
  let (d, site, rest) := d.tidyUp site
  let journal := listener ++ threads ++ rest
  (d, site,
    if running then
      Log.info (text "Shutting down inshd") :: journal ++ [Log.info (text "inshd stopped")]
    else journal)

/-- Stops the daemon. -/
def stop : Daemon × Site × Log.Journal :=
  if d.stopped then (d.requestShutdown, site, [])
  else
    let (d, site, journal) := d.shutDown site
    ({ d with stopped := true }.requestShutdown, site, journal)

end Daemon

end SearchDaemon
