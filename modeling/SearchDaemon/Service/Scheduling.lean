import SearchDaemon.Service.Basic

/-!
# Scheduling

The scheduler waits for a stop and for tickets, and a stop wins. Tickets go to
the workers in turn, whether they are busy or not; a ticket for a queue that is
closed cuts its client off. When the scheduler ends, it closes every queue.
-/

namespace SearchDaemon

namespace Scheduler

/-- Why a scheduler cannot be built. -/
inductive Refusal where
  | missingChannel
  | notGrouped
  | noWorkers
  | missingWorker
deriving DecidableEq, Repr

def Refusal.message : Refusal → Bytes
  | .missingChannel => text "Scheduler needs inbound and stop channels"
  | .notGrouped => text "Scheduler inbound and stop channels must share a group"
  | .noWorkers => text "Scheduler needs at least one worker channel"
  | .missingWorker => text "Scheduler worker channel is null"

/-- What speaks against a scheduler over these parts: whether both channels are
there, whether they can be waited on together, and which workers are there. -/
def refusal? (channels grouped : Bool) (workers : List Bool) : Option Refusal :=
  if !channels then some .missingChannel
  else if !grouped then some .notGrouped
  else if workers.isEmpty then some .noWorkers
  else if workers.all id then none
  else some .missingWorker

end Scheduler

namespace Service

variable (s : Service)

/-- Sets the scheduler going. -/
def startScheduler : Service × Log.Journal :=
  ({ s with scheduler := { s.scheduler with phase := .selecting } },
    [Log.info (text "Scheduler started with " ++ decimal s.workers.length ++
      text " workers")])

/-- Takes what the scheduler waits for. -/
def select? : Option (Service × Log.Journal) := do
  let (choice, stop, inbound) ← s.stop.select? s.inbound
  let s := { s with stop, inbound }
  let leave (why : String) : Service × Log.Journal :=
    ({ s with scheduler := { s.scheduler with phase := .closing 0 } }, [Log.debug (text why)])
  some <| match choice with
    | .first (some _) => leave "Scheduler received stop"
    | .first none => leave "Scheduler stop channel closed"
    | .second none => leave "Scheduler inbound channel closed"
    | .second (some ticket) =>
        let turn := s.scheduler.cursor
        ({ s with scheduler :=
            { s.scheduler with
              phase := .sending turn ticket
              cursor := (turn + 1) % s.workers.length } }, [])

/-- Offers a ticket to a worker's queue. -/
def dispatch? (worker : Nat) (ticket : Ticket) : Option (Service × Log.Journal) := do
  let w ← s.workers[worker]?
  let (taken, queue) ← w.queue.send? ticket
  if taken then
    let s := s.setWorker worker { w with queue }
    some ({ s with scheduler :=
        { s.scheduler with phase := .selecting, dispatched := s.scheduler.dispatched + 1 } },
      [Log.debug (text "Dispatched request " ++ decimal ticket.request.id.toNat ++
        text " to worker " ++ decimal worker)])
  else
    let (s, journal) := s.abortConnection ticket.connection
    some ({ s with scheduler :=
        { s.scheduler with phase := .selecting, refused := s.scheduler.refused + 1 } },
      Log.warning (text "Worker " ++ decimal worker ++ text " is gone, request " ++
        decimal ticket.request.id.toNat ++ text " cannot be served") :: journal)

/-- One step of the scheduler. -/
def schedulerStep? : Option (Service × Log.Journal) :=
  match s.scheduler.phase with
  | .idle | .ended => none
  | .selecting => s.select?
  | .sending worker ticket => s.dispatch? worker ticket
  | .closing worker =>
      match s.workers[worker]? with
      | some w =>
          let s := s.setWorker worker { w with queue := w.queue.close }
          some ({ s with scheduler := { s.scheduler with phase := .closing (worker + 1) } }, [])
      | none =>
          some ({ s with scheduler := { s.scheduler with phase := .ended } },
            [Log.info (text "Scheduler stopped after dispatching " ++
              decimal s.scheduler.dispatched ++ text " requests")])

end Service

end SearchDaemon
