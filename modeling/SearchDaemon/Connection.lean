import SearchDaemon.Frame
import SearchDaemon.Log
import SearchDaemon.Message.Encoding
import SearchDaemon.Poll

/-!
# Connections

A connection holds one client's socket and the responses on their way to it.
Responses may be delivered in any order; each waits in `pending` until all
earlier ones are there, then moves to `outgoing`, from where a writer sends them.
`written` is everything the client has been sent, so a client sees the responses
in the order of its requests. The socket holds so many bytes that the client has
not read; a writer that finds it full waits until the client reads.

Aborting drops what is not written, ends the stream in both directions and lasts
for ever. `writerStep?` is one step of the writer and answers nothing while it
has to wait.
-/

namespace SearchDaemon

/-- Where a connection's writer stands. -/
inductive Writer where
  | absent
  /-- Looks for a response to write. -/
  | ready
  /-- In the middle of a frame, with these bytes of it still to write. -/
  | writing (rest : Bytes)
  | ended
deriving DecidableEq, Repr

namespace Writer

def isRunning : Writer → Bool
  | .ready | .writing _ => true
  | .absent | .ended => false

/-- In the middle of a frame. -/
def isWriting : Writer → Bool
  | .writing _ => true
  | _ => false

/-- The bytes of a frame begun that are still to be written. -/
def left : Writer → Bytes
  | .writing rest => rest
  | _ => []

end Writer

structure Connection where
  /-- The number of the client. -/
  client : Nat := 0
  /-- The first sequence number not yet handed to the writer. -/
  next : Nat := 0
  /-- Responses that arrived early, by rising sequence number. -/
  pending : List (Nat × Response) := []
  /-- The bodies the writer has not taken yet, in order. -/
  outgoing : List Bytes := []
  /-- How many responses there will be, once that is known. -/
  expected : Option Nat := none
  /-- How many responses have been written completely. -/
  sent : Nat := 0
  aborted : Bool := false
  writer : Writer := .absent
  /-- What the client has sent and nobody has read. -/
  inlet : Inlet := {}
  /-- Every byte sent to the client. -/
  written : Bytes := []
  /-- The last of these bytes, those that the client has not read. -/
  unseen : Bytes := []
  /-- How many of them the socket holds at most, beyond the first. There is no end to it for
  a client that reads whatever comes at once. -/
  capacity : Option Nat := none
  /-- The client has gone away; nothing can be sent to it any more. -/
  clientGone : Bool := false
deriving DecidableEq, Repr

namespace Connection

variable (c : Connection)

/-- What a socket usually holds. -/
def usualCapacity : Nat := 208 * 1024 - 1

/-- How the client is named in the log. -/
def label : Bytes := text "Client " ++ decimal c.client

/-! ## Delivering -/

/-- Adds a response among those that arrived early, by its number. -/
def insertEarly (sequence : Nat) (r : Response) : List (Nat × Response) → List (Nat × Response)
  | [] => [(sequence, r)]
  | (k, q) :: rest =>
      if sequence < k then (sequence, r) :: (k, q) :: rest
      else (k, q) :: insertEarly sequence r rest

/-- Takes from the front of `pending` what follows on from `next`. Answers the new
`next`, the bodies to write and what still waits. -/
def inOrder : (next : Nat) → List (Nat × Response) → Nat × List Bytes × List (Nat × Response)
  | next, [] => (next, [], [])
  | next, (k, r) :: rest =>
      if k = next then
        let (last, bodies, left) := inOrder (next + 1) rest
        (last, (Message.ofResponse r).encode :: bodies, left)
      else (next, [], (k, r) :: rest)

/-- The response with this number has been delivered before. -/
def isAnswered (sequence : Nat) : Bool :=
  sequence < c.next || c.pending.any (·.1 = sequence)

/-- Delivers the response with a sequence number. Refused once the connection is
aborted, and for a number that already has its response. -/
def deliver (sequence : Nat) (r : Response) : Bool × Connection × Log.Journal :=
  if c.aborted then (false, c, [])
  else if c.isAnswered sequence then
    (false, c, [Log.warning (c.label ++ text ": duplicate response for sequence " ++
      decimal sequence)])
  else
    let (next, bodies, pending) := inOrder c.next (insertEarly sequence r c.pending)
    (true, { c with next, pending, outgoing := c.outgoing ++ bodies }, [])

/-- Says that only the first `expected` requests will be answered. -/
def finish (expected : Nat) : Connection := { c with expected := some expected }

/-- Ends the connection at once. -/
def abort : Connection × Log.Journal :=
  if c.aborted then (c, [])
  else
    ({ c with aborted := true, pending := [], outgoing := [], inlet := c.inlet.finish },
      [Log.debug (c.label ++ text ": connection aborted")])

/-! ## Writing -/

/-- Nothing is left to write, now or later. -/
def isFinished : Bool := c.outgoing.isEmpty && c.expected.any (· ≤ c.next)

def startWriter : Connection :=
  if c.writer.isRunning then c else { c with writer := .ready }

/-- The socket takes another byte. -/
def hasRoom : Bool := c.capacity.all (c.unseen.length ≤ ·)

/-- The client is there and has left no room. -/
def isFull : Bool := !c.clientGone && !c.hasRoom

/-- The writer waits in the middle of a frame until the client reads. -/
def isStalled : Bool := c.writer.isWriting && !c.aborted && c.isFull

/-- How many bytes the socket takes at once, out of so many. -/
def allowance (offered : Nat) : Nat :=
  match c.capacity with
  | none => offered
  | some capacity => min offered (capacity + 1 - c.unseen.length)

/-- The writer sends the first bytes of what is left of a frame. -/
def writePiece (amount : Nat) (rest : Bytes) : Connection :=
  let piece := rest.take amount
  let c := { c with written := c.written ++ piece, unseen := c.unseen ++ piece }
  let left := rest.drop amount
  if left.isEmpty then { c with sent := c.sent + 1, writer := .ready }
  else { c with writer := .writing left }

/-- One step of the writer, which writes at most `budget + 1` bytes. -/
def writerStep? (budget : Nat) : Option (Connection × Log.Journal) :=
  match c.writer with
  | .absent | .ended => none
  | .ready =>
      if c.aborted then some ({ c with writer := .ended }, [])
      else
        match c.outgoing with
        | body :: rest =>
            some ({ c with outgoing := rest, writer := .writing (Frame.encode body) }, [])
        | [] => if c.isFinished then some ({ c with writer := .ended }, []) else none
  | .writing rest =>
      match Poll.wait (.socket c.inlet (!c.clientGone) c.hasRoom) (.wakePipe c.aborted)
          .output with
      | .timeout => none
      | .stopped | .error => some ({ c with writer := .ended }, [])
      | .ready =>
          if c.clientGone then
            some ({ c.abort.1 with writer := .ended },
              Log.warning (c.label ++ text ": failed to write response") :: c.abort.2)
          else some (c.writePiece (c.allowance (budget + 1)) rest, [])

/-- Takes the writer's steps, at most so many, until it waits or ends. -/
def writeWithin : (steps : Nat) → Connection → Log.Journal → Connection × Log.Journal
  | 0, c, journal => (c, journal)
  | steps + 1, c, journal =>
      match c.writerStep? c.writer.left.length with
      | some (c, lines) => writeWithin steps c (journal ++ lines)
      | none => (c, journal)

/-- Lets the writer go on until it waits or ends. -/
def settle : Connection × Log.Journal :=
  writeWithin (2 * c.outgoing.length + 3) c []

/-! ## The client's side -/

/-- The client sends bytes; they are lost once the connection is aborted. -/
def clientWrites (bs : Bytes) : Connection :=
  if c.aborted || c.clientGone || c.inlet.ended then c
  else { c with inlet := c.inlet.arrive bs }

/-- The client says that it will send no more. -/
def clientFinishes : Connection := { c with inlet := c.inlet.finish }

/-- The client reads so many bytes, or what there is. -/
def clientTakes (count : Nat) : Bytes × Connection :=
  (c.unseen.take count, { c with unseen := c.unseen.drop count })

/-- The client reads everything it has been sent. -/
def clientReads : Bytes × Connection := (c.unseen, { c with unseen := [] })

/-- The client closes its socket, which resets the connection if it had bytes to read. -/
def clientCloses : Connection :=
  if c.clientGone then c
  else
    { c with
      clientGone := true
      inlet := { c.inlet.finish with reset := c.inlet.reset || !c.unseen.isEmpty } }

end Connection

end SearchDaemon
