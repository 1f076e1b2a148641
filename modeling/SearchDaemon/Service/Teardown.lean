import SearchDaemon.Service.Step

/-!
# Stopping a service

One thread stops a service, while the others go on. It goes from the outside in: it tells
the scheduler, waits for its end and closes the channels; it takes the list of clients, tells
their handlers, and gives them some time before it aborts the connections; then it waits for
the handlers and for the workers, closes the events and waits for the monitor.

`step?` lets anybody take one step, in any order. `finish` lets the stopping thread go first
and the others work while it waits.
-/

namespace SearchDaemon

/-- Where the thread that stops a service stands. -/
inductive Stopper where
  /-- The scheduler is to be told. -/
  | signaling
  /-- Waits until the scheduler has ended. -/
  | joiningScheduler
  | closingStop
  | closingInbound
  /-- The list of clients is to be taken. -/
  | taking
  /-- The handlers of the latter are still to be told. -/
  | telling (clients rest : List Nat)
  /-- Waits until the handlers have ended, or for some time. -/
  | awaiting (clients : List Nat)
  /-- The connections of the latter are still to be aborted. -/
  | aborting (clients rest : List Nat)
  /-- Waits until the handlers have ended. -/
  | joiningHandlers (clients : List Nat)
  | joiningWorkers
  | closingEvents
  | joiningMonitor
  | done
deriving DecidableEq, Repr

/-- A service and the thread that stops it. -/
structure Teardown where
  service : Service
  stopper : Stopper := .signaling
deriving DecidableEq, Repr

/-- Who acts while a service is stopped. The stopping thread may be late, so that it waits
no more for handlers that could end by themselves. -/
inductive Teardown.Actor where
  | thread (thread : Thread)
  | stopper (late : Bool)
deriving DecidableEq, Repr

namespace Teardown

variable (process : Processing) (t : Teardown)

/-- The stopping thread goes on to another place, perhaps with something done. -/
def goOn (stopper : Stopper) (service : Service) (journal : Log.Journal := []) :
    Option (Teardown × Log.Journal) :=
  some ({ service, stopper }, journal)

/-- One step of the stopping thread. -/
def stopperStep? (late : Bool) : Option (Teardown × Log.Journal) :=
  let s := t.service
  match t.stopper with
  | .signaling => do
      let (_, stop) ← s.stop.send? ()
      goOn .joiningScheduler { s with stop }
  | .joiningScheduler =>
      match s.scheduler.phase with
      | .idle => goOn .closingStop s.closeQueues
      | .ended => goOn .closingStop s
      | _ => none
  | .closingStop => goOn .closingInbound { s with stop := s.stop.close }
  | .closingInbound => goOn .taking { s with inbound := s.inbound.close }
  | .taking =>
      let clients := s.monitor.registered
      goOn (.telling clients clients) { s with monitor := { s.monitor with registered := [] } }
        (if clients.isEmpty then []
          else [Log.info (text "Stopping " ++ decimal clients.length ++
            text " client handler(s)")])
  | .telling clients [] => goOn (.awaiting clients) s
  | .telling clients (client :: rest) => goOn (.telling clients rest) (s.stopHandler (client - 1))
  | .awaiting clients =>
      if late || clients.all s.handlerEnded then goOn (.aborting clients clients) s else none
  | .aborting clients [] => goOn (.joiningHandlers clients) s
  | .aborting clients (client :: rest) =>
      let (s, journal) := s.abortConnection (some (client - 1))
      goOn (.aborting clients rest) s journal
  | .joiningHandlers clients =>
      if clients.all s.handlerEnded then goOn .joiningWorkers s else none
  | .joiningWorkers =>
      if s.workers.all fun w => w.phase = .idle || w.phase = .ended then goOn .closingEvents s
      else none
  | .closingEvents => goOn .joiningMonitor { s with events := s.events.close }
  | .joiningMonitor =>
      match s.monitor.phase with
      | .idle | .ended => goOn .done s
      | _ => none
  | .done => none

/-- One step of anybody. -/
def step? : Actor → Option (Teardown × Log.Journal)
  | .thread thread =>
      (t.service.step? process thread).map fun (service, journal) => ({ t with service }, journal)
  | .stopper late => t.stopperStep? late

/-- Lets the stopping thread take at most so many steps, and the others work whenever it has
to wait. -/
def finishWithin : (steps : Nat) → Teardown → Log.Journal → Teardown × Log.Journal
  | 0, t, journal => (t, journal)
  | steps + 1, t, journal =>
      match t.stopperStep? false with
      | some (t, lines) => finishWithin steps t (journal ++ lines)
      | none =>
          let (service, worked) := t.service.settle process
          match { t with service }.stopperStep? true with
          | some (t, lines) => finishWithin steps t (journal ++ worked ++ lines)
          | none => ({ t with service }, journal ++ worked)

/-- How many steps the stopping thread still takes, with so many clients on the list. -/
def stepsLeft : Nat :=
  let registered := t.service.monitor.registered.length
  match t.stopper with
  | .signaling => 12 + 2 * registered
  | .joiningScheduler => 11 + 2 * registered
  | .closingStop => 10 + 2 * registered
  | .closingInbound => 9 + 2 * registered
  | .taking => 8 + 2 * registered
  | .telling clients rest => 7 + rest.length + clients.length
  | .awaiting clients => 6 + clients.length
  | .aborting _ rest => 5 + rest.length
  | .joiningHandlers _ => 4
  | .joiningWorkers => 3
  | .closingEvents => 2
  | .joiningMonitor => 1
  | .done => 0

/-- Goes on until the stopping thread is done. -/
def finish : Teardown × Log.Journal := finishWithin process t.stepsLeft t []

end Teardown

end SearchDaemon
