import SearchDaemon.Bytes
import SearchDaemon.Channel

/-!
# Calls on named channels

An exchange holds channels by name and at most one call that waits. Every step is
taken by a caller of its own; a call that cannot return yet becomes the waiting
one if there is none, and is dropped otherwise. Whenever a step lets the waiting
call return, it does so at once.
-/

namespace SearchDaemon.Channel

/-- A call that may have to wait. -/
inductive Call where
  | send (channel item : Bytes)
  | receive (channel : Bytes)
  | select (first second : Bytes)
deriving DecidableEq, Repr

/-- What a call returns. -/
inductive Outcome where
  | sent (accepted : Bool)
  | received (item : Option Bytes)
  | chosen (choice : Choice Bytes Bytes)
deriving DecidableEq, Repr

/-- What a step comes to for its caller. -/
inductive Answer where
  | returned (outcome : Outcome)
  /-- The call waits. -/
  | blocked
  /-- The call would have to wait, but another call already does. -/
  | wouldBlock
  | notGrouped
  | unknownChannel
deriving DecidableEq, Repr

/-- The objection to a channel without a group. -/
def needsGroup : Bytes := text "Channel requires a channel group"

/-- The objection to waiting on channels of different groups. -/
def needsOneGroup : Bytes := text "select() needs channels from the same group"

/-- A channel and the group it shares with others, if it does. -/
structure Member where
  group : Option Bytes
  channel : Channel Bytes
deriving DecidableEq, Repr

structure Exchange where
  members : List (Bytes × Member) := []
  waiting : Option Call := none
deriving Repr

namespace Exchange

def find? (e : Exchange) (name : Bytes) : Option Member := e.members.lookup name

def put (e : Exchange) (name : Bytes) (member : Member) : Exchange :=
  { e with members := (name, member) :: e.members.filter (·.1 ≠ name) }

def update (e : Exchange) (name : Bytes) (channel : Channel Bytes) : Exchange :=
  match e.find? name with
  | some member => e.put name { member with channel }
  | none => e

/-- Opens a channel; channels of one group can be waited on together. -/
def create (e : Exchange) (name : Bytes) (group : Option Bytes) (capacity : Nat) :
    Exchange :=
  e.put name { group, channel := { capacity } }

def close (e : Exchange) (name : Bytes) : Exchange :=
  match e.find? name with
  | some member => e.update name member.channel.close
  | none => e

/-- Takes the oldest item of a channel without waiting. -/
def tryReceive (e : Exchange) (name : Bytes) : Option Bytes × Exchange :=
  match e.find? name with
  | some member => (member.channel.take.1, e.update name member.channel.take.2)
  | none => (none, e)

/-- Makes a call, if it need not wait. -/
def attempt (e : Exchange) : Call → Option (Outcome × Exchange)
  | .send name item => do
      let member ← e.find? name
      let (accepted, channel) ← member.channel.send? item
      some (.sent accepted, e.update name channel)
  | .receive name => do
      let member ← e.find? name
      let (item, channel) ← member.channel.receive?
      some (.received item, e.update name channel)
  | .select first second => do
      let a ← e.find? first
      let b ← e.find? second
      let (choice, a, b) ← a.channel.select? b.channel
      some (.chosen choice,
        match choice with
        | .first _ => e.update first a
        | .second _ => e.update second b)

/-- Why a call cannot even be made. -/
def objection (e : Exchange) (call : Call) : Option Answer :=
  let known (name : Bytes) : Bool := (e.find? name).isSome
  let group (name : Bytes) : Option Bytes := (e.find? name).bind (·.group)
  match call with
  | .send name _ | .receive name => if known name then none else some .unknownChannel
  | .select first second =>
      if !(known first && known second) then some .unknownChannel
      else if first = second || (group first).isSome && group first = group second then none
      else some .notGrouped

/-- Makes a call, or lets it wait if no other call waits. -/
def make (e : Exchange) (call : Call) : Answer × Exchange :=
  match e.objection call with
  | some answer => (answer, e)
  | none =>
      match e.attempt call with
      | some (outcome, e) => (.returned outcome, e)
      | none =>
          if e.waiting.isSome then (.wouldBlock, e)
          else (.blocked, { e with waiting := some call })

/-- Lets the waiting call return, if it can. -/
def release (e : Exchange) : Option Outcome × Exchange :=
  match e.waiting.bind e.attempt with
  | some (outcome, e) => (some outcome, { e with waiting := none })
  | none => (none, e)

/-- A step after which the call that waited before it returns, if it can. -/
def andRelease (e : Exchange) {α : Type} (step : Exchange → α × Exchange) :
    α × Option Outcome × Exchange :=
  let (answer, after) := step e
  (answer, if e.waiting.isSome then after.release else (none, after))

/-- Closes the channel the waiting call waits on first. -/
def abandon (e : Exchange) : Option Outcome × Exchange :=
  match e.waiting with
  | some (.send name _) | some (.receive name) | some (.select name _) =>
      (e.close name).release
  | none => (none, e)

end Exchange

end SearchDaemon.Channel
