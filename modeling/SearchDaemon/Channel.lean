/-!
# Channels

A channel is a queue between threads that can be closed for good. A capacity of
zero means that it never fills up. `send?`, `receive?` and `select?` answer
nothing where the calling thread has to wait, so that a wait is a step that
cannot be taken yet; the thread tries again once another step has changed the
channel.
-/

namespace SearchDaemon

/-- A closable queue, its oldest item first. -/
structure Channel (α : Type) where
  capacity : Nat := 0
  items : List α := []
  closed : Bool := false
deriving DecidableEq, Repr

namespace Channel

variable {α β : Type}

def hasRoom (c : Channel α) : Bool := c.capacity = 0 || c.items.length < c.capacity

/-- Something can be received, be it the news that the channel is closed. -/
def isReady (c : Channel α) : Bool := !c.items.isEmpty || c.closed

/-- Appends an item, or refuses it because the channel is closed. Waits while an
open channel is full. -/
def send? (c : Channel α) (item : α) : Option (Bool × Channel α) :=
  if c.closed then some (false, c)
  else if c.hasRoom then some (true, { c with items := c.items ++ [item] })
  else none

/-- Takes the oldest item, if there is one. -/
def take (c : Channel α) : Option α × Channel α :=
  match c.items with
  | [] => (none, c)
  | item :: rest => (some item, { c with items := rest })

/-- Takes the oldest item; answers none only from a closed and empty channel. Waits
while an open channel is empty. -/
def receive? (c : Channel α) : Option (Option α × Channel α) :=
  if c.isReady then some c.take else none

def close (c : Channel α) : Channel α := { c with closed := true }

/-- What waiting on two channels at once gave: the channel that was ready and
what was taken from it. -/
inductive Choice (α β : Type) where
  | first (item : Option α)
  | second (item : Option β)
deriving DecidableEq, Repr

/-- Takes from the first channel that is ready; the first one wins. Waits while
neither is. -/
def select? (a : Channel α) (b : Channel β) :
    Option (Choice α β × Channel α × Channel β) :=
  if a.isReady then some (.first a.take.1, a.take.2, b)
  else if b.isReady then some (.second b.take.1, a, b.take.2)
  else none

end Channel

end SearchDaemon
