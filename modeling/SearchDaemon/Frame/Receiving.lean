import SearchDaemon.Frame
import SearchDaemon.Log
import SearchDaemon.Stream

/-!
# Receiving frames

Reads a frame from an inlet, as far as its bytes have arrived.
-/

namespace SearchDaemon.Frame

/-- What an attempt to receive a frame comes to. -/
inductive Receipt where
  | frame (body : Bytes)
  /-- A length that no frame may announce. -/
  | invalid (length : Nat)
  /-- The stream ended between frames. -/
  | closed
  /-- Reading failed, or the stream ended inside a frame. -/
  | ioError
  /-- All bytes that have arrived are used up and more are needed. -/
  | waiting (reader : Reader)
deriving DecidableEq, Repr

namespace Receipt

/-- The status of a receipt; one that still waits ends only by being stopped. -/
def status : Receipt → Status
  | .frame _ => .ok
  | .invalid _ => .protocolError
  | .closed => .closed
  | .ioError => .ioError
  | .waiting _ => .stopped

/-- What a receipt leaves in the log. -/
def journal : Receipt → Log.Journal
  | .invalid length => [Log.warning (text "Invalid frame length: " ++ decimal length)]
  | _ => []

end Receipt

/-- Reads on from an inlet. -/
def Reader.receive (reader : Reader) (inlet : Inlet) : Receipt × Inlet :=
  match reader.take inlet.unread with
  | .frame content rest => (.frame content, { inlet with unread := rest })
  | .invalid size rest => (.invalid size, { inlet with unread := rest })
  | .waiting reader =>
      let inlet := { inlet with unread := [] }
      if inlet.reset then (.ioError, { inlet with reset := false })
      else if inlet.ended then (if reader.isFresh then .closed else .ioError, inlet)
      else (.waiting reader, inlet)

/-- Receives a frame from its first byte on. -/
def receive (inlet : Inlet) : Receipt × Inlet := Reader.start.receive inlet

/-- Sends a body as a frame from an end of a pair of sockets. -/
def send (p : SocketPair) (e : End) (body : Bytes) : Bool × SocketPair :=
  p.write e (encode body)

end SearchDaemon.Frame
