import SearchDaemon.Bytes

/-!
# Byte streams between two sockets

What one socket sends arrives at the other in order. An `Inlet` is what lies
ready for the reader of one direction; a `SocketPair` is two connected sockets
with an inlet each. A socket that is closed over unread bytes resets the other
side: once that has read what lies ready, one read fails.
-/

namespace SearchDaemon

/-- One direction of a connection, as its reader finds it. -/
structure Inlet where
  unread : Bytes := []
  /-- Nothing more will arrive. -/
  ended : Bool := false
  /-- The read after the last byte fails, once. -/
  reset : Bool := false
deriving DecidableEq, Repr

namespace Inlet

/-- A read would not wait. -/
def isReady (inlet : Inlet) : Bool := !inlet.unread.isEmpty || inlet.ended

def arrive (inlet : Inlet) (bs : Bytes) : Inlet := { inlet with unread := inlet.unread ++ bs }

/-- Ends the direction; what has arrived stays readable. -/
def finish (inlet : Inlet) : Inlet := { inlet with ended := true }

end Inlet

/-- One of two connected sockets. -/
structure Socket where
  inlet : Inlet := {}
  isOpen : Bool := true
  /-- It has said that it will write no more. -/
  doneWriting : Bool := false
deriving DecidableEq, Repr

structure SocketPair where
  near : Socket := {}
  far : Socket := {}
deriving DecidableEq, Repr

/-- The two ends of a pair. -/
inductive End where
  | near
  | far
deriving DecidableEq, Repr

namespace End

def opposite : End → End
  | near => far
  | far => near

end End

namespace SocketPair

def socket (p : SocketPair) : End → Socket
  | .near => p.near
  | .far => p.far

def set (p : SocketPair) (e : End) (s : Socket) : SocketPair :=
  match e with
  | .near => { p with near := s }
  | .far => { p with far := s }

/-- Whether bytes written at an end can reach the other. -/
def canWrite (p : SocketPair) (e : End) : Bool :=
  (p.socket e).isOpen && !(p.socket e).doneWriting && (p.socket e.opposite).isOpen

/-- Writes at an end; refused as a whole if the bytes cannot arrive. -/
def write (p : SocketPair) (e : End) (bs : Bytes) : Bool × SocketPair :=
  if bs.isEmpty then (true, p)
  else if p.canWrite e then
    let other := p.socket e.opposite
    (true, p.set e.opposite { other with inlet := other.inlet.arrive bs })
  else (false, p)

/-- Ends the direction that starts at an end. -/
def finish (p : SocketPair) (e : End) : SocketPair :=
  if (p.socket e).isOpen then
    let other := p.socket e.opposite
    (p.set e { p.socket e with doneWriting := true }).set e.opposite
      { other with inlet := other.inlet.finish }
  else p

/-- Closes an end. -/
def close (p : SocketPair) (e : End) : SocketPair :=
  let this := p.socket e
  if this.isOpen then
    let other := p.socket e.opposite
    let reset := other.inlet.reset || !this.inlet.unread.isEmpty
    (p.set e { this with isOpen := false, inlet := {} }).set e.opposite
      { other with inlet := { other.inlet.finish with reset } }
  else p

/-- Takes everything that lies ready at an end. -/
def drain (p : SocketPair) (e : End) : Bytes × SocketPair :=
  let this := p.socket e
  (this.inlet.unread, p.set e { this with inlet := { this.inlet with unread := [] } })

end SocketPair

end SearchDaemon
