import SearchDaemon.Service.Handling
import SearchDaemon.Service.Monitoring
import SearchDaemon.Service.Pool
import SearchDaemon.Service.Scheduling

/-!
# Steps of a service

`step?` lets one thread take one step; it answers nothing when that thread has to
wait or is not there. A service is settled when no thread can take a step. Often less
is needed: a client that does not read keeps its own writer waiting in the middle of a
frame, and the others go on. `Stuck` says it of some threads only.

`settle` takes steps until then, always letting the thread furthest from the
clients go first.
-/

namespace SearchDaemon

/-- A thread of a service. Those that read or write bytes are told how many they may
take at once, beyond the first. -/
inductive Thread where
  | monitor
  | writer (position budget : Nat)
  | worker (position : Nat)
  | scheduler
  | handler (position budget : Nat)
deriving DecidableEq, Repr

namespace Thread

/-- The scheduler and the workers. -/
def isOfPool : Thread → Bool
  | .scheduler | .worker _ => true
  | _ => false

/-- The threads that meet no client: the monitor, the scheduler and the workers. -/
def isInner : Thread → Bool
  | .monitor | .scheduler | .worker _ => true
  | _ => false

/-- The handler and the writer at a position. -/
def isAt (position : Nat) : Thread → Bool
  | .handler i _ | .writer i _ => i = position
  | _ => false

end Thread

namespace Service

variable (process : Processing) (s : Service)

/-- One step of a connection's writer. -/
def writerStep? (budget i : Nat) : Option (Service × Log.Journal) := do
  let c ← s.connections[i]?
  let (c, journal) ← c.writerStep? budget
  some (s.setConnection i c, journal)

/-- One step of a thread. -/
def step? : Thread → Option (Service × Log.Journal)
  | .monitor => s.monitorStep?
  | .writer i budget => s.writerStep? budget i
  | .worker i => s.workerStep? process i
  | .scheduler => s.schedulerStep?
  | .handler i budget => s.handlerStep? budget i

/-- None of these threads can take a step. -/
def Stuck (who : Thread → Bool) : Prop :=
  ∀ thread, who thread = true → s.step? process thread = none

/-- No thread can take a step. -/
def Settled : Prop := ∀ thread, s.step? process thread = none

/-- The threads there are, each allowed to take all bytes there are at once. -/
def threads : List Thread :=
  let positions := List.range s.connections.length
  let unwritten (i : Nat) : Nat := ((s.connections[i]?).map (·.writer.left.length)).getD 0
  let unread (i : Nat) : Nat := ((s.connections[i]?).map (·.inlet.unread.length)).getD 0
  .monitor :: positions.map (fun i => .writer i (unwritten i)) ++
    (List.range s.workers.length).map .worker ++
    .scheduler :: positions.map (fun i => .handler i (unread i))

/-- Takes at most so many steps, as long as there is one to take. -/
def settleWithin : (steps : Nat) → Service → Log.Journal → Service × Log.Journal
  | 0, s, journal => (s, journal)
  | steps + 1, s, journal =>
      match s.threads.findSome? (s.step? process) with
      | some (s, lines) => settleWithin steps s (journal ++ lines)
      | none => (s, journal)

/-- More steps than the threads can take on what is in the service now. -/
def stepBound : Nat :=
  let bytes := total (s.connections.map fun c => c.inlet.unread.length + c.outgoing.length +
    c.pending.length)
  let queued := s.inbound.items.length + total (s.workers.map (·.queue.items.length)) +
    s.events.items.length
  100 + 20 * (bytes + queued + s.workers.length + s.connections.length)

/-- Lets the threads take steps until none can. -/
def settle : Service × Log.Journal := settleWithin process s.stepBound s []

end Service

end SearchDaemon
