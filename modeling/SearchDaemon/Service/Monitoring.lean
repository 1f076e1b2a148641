import SearchDaemon.Service.Basic

/-!
# Monitoring

The monitor takes the events in order. It counts clients that have left and takes
their handlers off the list; it counts dead workers and asks for a shutdown once
none is left.
-/

namespace SearchDaemon.Service

variable (s : Service)

def startMonitor : Service × Log.Journal :=
  ({ s with monitor := { s.monitor with phase := .receiving } },
    [Log.debug (text "Event monitor started")])

def requestShutdown : Service :=
  { s with monitor := { s.monitor with shutdownRequested := true } }

/-- A client has left. -/
def countDisconnected (client requests : Nat) : Service :=
  { s with monitor :=
      { s.monitor with
        phase := if client ∈ s.monitor.registered then .joining client else .receiving
        registered := s.monitor.registered.filter (· ≠ client)
        disconnected := s.monitor.disconnected + 1
        requestsFromDisconnected := s.monitor.requestsFromDisconnected + requests } }

/-- A worker has died. -/
def countDead (worker : Nat) : Service × Log.Journal :=
  let dead := s.monitor.deadWorkers + 1
  let s' := { s with monitor := { s.monitor with deadWorkers := dead } }
  let died := Log.error (text "Worker " ++ decimal worker ++ text " died (" ++ decimal dead ++
    text " of " ++ decimal s.workers.length ++ text " workers dead)")
  if s.workers.length ≤ dead then
    (s'.requestShutdown, [died, Log.error (text "No workers left, shutting down")])
  else (s', [died])

/-- The handler of a client has ended. -/
def handlerEnded (client : Nat) : Bool :=
  (s.handlers[client - 1]?).all (·.phase = .ended)

/-- One step of the monitor. -/
def monitorStep? : Option (Service × Log.Journal) :=
  match s.monitor.phase with
  | .idle | .ended => none
  | .receiving => do
      let (event, events) ← s.events.receive?
      let s := { s with events }
      some <| match event with
        | some (.disconnected client requests) => (s.countDisconnected client requests, [])
        | some (.workerDied worker) => s.countDead worker
        | none =>
            ({ s with monitor := { s.monitor with phase := .ended } },
              [Log.debug (text "Event monitor stopped")])
  | .joining client =>
      if s.handlerEnded client then
        some ({ s with monitor := { s.monitor with phase := .receiving } }, [])
      else none

end SearchDaemon.Service
