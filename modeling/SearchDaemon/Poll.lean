import SearchDaemon.Stream

/-!
# Waiting for a descriptor or a stop

A thread that waits also watches a stop descriptor, which wins when both are
ready. Wake pipes carry no data: a notified pipe stays ready until it is drained,
however often it was notified.
-/

namespace SearchDaemon.Poll

/-- What a thread waits to do. -/
inductive Interest where
  | input
  | output
deriving DecidableEq, Repr

/-- What a descriptor can stand for. -/
inductive Descriptor where
  /-- No descriptor at all: never ready. -/
  | absent
  /-- A number that names nothing open. -/
  | invalid
  /-- The reading end of a wake pipe. -/
  | wakePipe (notified : Bool)
  /-- A socket. It has room for output as long as the other side reads. -/
  | socket (inlet : Inlet) (peerOpen : Bool) (room : Bool := true)
deriving DecidableEq, Repr

namespace Descriptor

/-- Whether waiting on the descriptor ends. -/
def isReady : Descriptor → Interest → Bool
  | .absent, _ => false
  | .invalid, _ => true
  | .wakePipe notified, .input => notified
  | .wakePipe _, .output => false
  | .socket inlet _ _, .input => inlet.isReady
  | .socket _ peerOpen room, .output => !peerOpen || room

end Descriptor

/-- How a wait can end. -/
inductive Result where
  | ready
  | stopped
  | timeout
  | error
deriving DecidableEq, Repr

namespace Result

def name : Result → String
  | .ready => "ready"
  | .stopped => "stopped"
  | .timeout => "timeout"
  | .error => "error"

end Result

/-- Waits for a descriptor for a bounded time, watching a stop descriptor. -/
def wait (target stop : Descriptor) (interest : Interest) : Result :=
  if stop.isReady .input then .stopped
  else if target = .invalid then .error
  else if target.isReady interest then .ready
  else .timeout

theorem wait_input (inlet : Inlet) (peerOpen room stop : Bool) :
    wait (.socket inlet peerOpen room) (.wakePipe stop) .input =
      if stop then .stopped else if inlet.isReady then .ready else .timeout := by
  cases stop <;> rfl

/-- A socket whose other side is gone takes no output, and a writer need not wait to learn so. -/
theorem wait_output (inlet : Inlet) (peerOpen room stop : Bool) :
    wait (.socket inlet peerOpen room) (.wakePipe stop) .output =
      if stop then .stopped else if !peerOpen || room then .ready else .timeout := by
  cases stop <;> rfl

end SearchDaemon.Poll
