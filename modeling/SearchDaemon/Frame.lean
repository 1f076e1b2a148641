import SearchDaemon.Bytes

/-!
# Frames

On a stream every body travels as a frame: its length on eight bytes, then the
body. A length of zero or beyond `limit` is an offence. `Reader` takes a stream
in whatever pieces it arrives; `next` reads a whole stream that has ended, and
says of each outcome what bytes it used.
-/

namespace SearchDaemon.Frame

/-- The longest body. -/
def limit : Nat := 16 * 1024 * 1024

/-- The number of bytes a length takes. -/
def lengthSize : Nat := 8

/-- How reading a frame can end. -/
inductive Status where
  | ok
  /-- The stream ended between frames. -/
  | closed
  | stopped
  /-- Reading failed, or the stream ended inside a frame. -/
  | ioError
  | protocolError
deriving DecidableEq, Repr

namespace Status

def name : Status → String
  | .ok => "ok"
  | .closed => "closed"
  | .stopped => "stopped"
  | .ioError => "io error"
  | .protocolError => "protocol error"

/-- The statuses in the order of their numbers. -/
def ofNat? : Nat → Option Status
  | 0 => some .ok
  | 1 => some .closed
  | 2 => some .stopped
  | 3 => some .ioError
  | 4 => some .protocolError
  | _ => none

end Status

/-- A body as it travels. -/
def encode (body : Bytes) : Bytes := bigEndian lengthSize body.length ++ body

/-- A length that no frame may announce. -/
def isInvalidLength (n : Nat) : Bool := n = 0 || limit < n

/-- The part of a frame read so far. -/
inductive Reader where
  | length (got : Bytes)
  | body (size : Nat) (got : Bytes)
deriving DecidableEq, Repr

/-- What some more bytes do to a reader. -/
inductive Intake where
  /-- All bytes are used up and more are needed. -/
  | waiting (reader : Reader)
  | frame (body rest : Bytes)
  | invalid (length : Nat) (rest : Bytes)
deriving DecidableEq, Repr

namespace Reader

def start : Reader := .length []

/-- Reads body bytes up to the announced size. -/
def takeBody (size : Nat) (got bs : Bytes) : Intake :=
  let missing := size - got.length
  let got := got ++ bs.take missing
  if got.length < size then .waiting (.body size got) else .frame got (bs.drop missing)

/-- Reads on with the bytes that have arrived. -/
def take (reader : Reader) (bs : Bytes) : Intake :=
  match reader with
  | .length got =>
      let missing := lengthSize - got.length
      let got := got ++ bs.take missing
      if got.length < lengthSize then .waiting (.length got)
      else
        let size := ofBigEndian got
        if isInvalidLength size then .invalid size (bs.drop missing)
        else takeBody size [] (bs.drop missing)
  | .body size got => takeBody size got bs

/-- Nothing of a frame has been read. -/
def isFresh (reader : Reader) : Bool := reader = start

end Reader

/-- What stands at the beginning of a stream that has ended. -/
inductive Reading where
  | frame (body rest : Bytes)
  | invalid (length : Nat) (rest : Bytes)
  | closed
  /-- The stream ends inside a frame. -/
  | torn
deriving DecidableEq, Repr

/-- Reads one frame from a stream that has ended. -/
def next (stream : Bytes) : Reading :=
  if stream.isEmpty then .closed
  else
    match stream.splitExact? lengthSize with
    | none => .torn
    | some (digits, rest) =>
        let size := ofBigEndian digits
        if isInvalidLength size then .invalid size rest
        else
          match rest.splitExact? size with
          | none => .torn
          | some (body, rest) => .frame body rest

/-- A frame takes bytes off its stream. -/
theorem length_lt_of_next {stream body rest : Bytes} (h : next stream = .frame body rest) :
    rest.length < stream.length := by
  unfold next at h
  split at h
  · contradiction
  · split at h
    · contradiction
    · rename_i digits after hdigits
      obtain ⟨rfl, hlength⟩ := Bytes.splitExact?_eq_some_iff.1 hdigits
      dsimp only at h
      split at h
      · contradiction
      · split at h
        · contradiction
        · rename_i hbody
          obtain ⟨rfl, -⟩ := Bytes.splitExact?_eq_some_iff.1 hbody
          obtain ⟨rfl, rfl⟩ := Reading.frame.inj h
          simp [hlength, lengthSize]
          omega

/-- The bodies of the frames at the beginning of a stream. -/
def bodies (stream : Bytes) : List Bytes :=
  match _h : next stream with
  | .frame body rest => body :: bodies rest
  | _ => []
termination_by stream.length
decreasing_by exact length_lt_of_next ‹_›

end SearchDaemon.Frame
