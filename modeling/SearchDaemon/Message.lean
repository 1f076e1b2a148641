import SearchDaemon.Bytes

/-!
# Requests, responses and messages

A client asks for one of two tasks and gets one response per request. On the
wire both travel as messages: a header of type, id and payload size, then the
payload. `DecodeError` lists every way in which a body can fail to be a message
and `DecodeError.message` words it.
-/

namespace SearchDaemon

/-- What a client asks for. -/
inductive Task where
  /-- Reserved for write operations; carries no fields yet. -/
  | create
  /-- The files below `dir` whose names the pattern matches. -/
  | find (dir pattern : Bytes)
deriving DecidableEq, Repr

/-- A task with the number the client gave it. -/
structure Request where
  id : UInt64
  task : Task
deriving DecidableEq, Repr

namespace Response

/-- The kind byte of a response that carries no parameters. -/
def plain : UInt8 := 0

/-- The kind byte of a response that carries a list of file names. -/
def fileList : UInt8 := 1

end Response

/-- The answer to the request with number `requestId`. -/
structure Response where
  requestId : UInt64 := 0
  success : Bool := true
  error : Bytes := []
  kind : UInt8 := Response.plain
  files : List Bytes := []
deriving DecidableEq, Repr

namespace Response

/-- A success without content. -/
def ok (id : UInt64) : Response := { requestId := id }

/-- A refusal with its reason. -/
def failure (id : UInt64) (reason : Bytes) : Response :=
  { requestId := id, success := false, error := reason }

/-- A response that says no more than its encoding can carry. -/
def IsCanonical (r : Response) : Prop :=
  (r.kind = plain ∧ r.files = []) ∨ r.kind = fileList

end Response

/-- The type byte of each kind of message. -/
inductive MessageType where
  | create
  | find
  | response
  /-- A byte that names no kind of message. -/
  | other (byte : UInt8)
deriving DecidableEq, Repr

namespace MessageType

def ofByte (b : UInt8) : MessageType :=
  if b = 1 then .create else if b = 2 then .find else if b = 16 then .response else .other b

def toByte : MessageType → UInt8
  | .create => 1
  | .find => 2
  | .response => 16
  | .other b => b

end MessageType

/-- The fixed part in front of every payload. -/
structure Header where
  type : MessageType := .create
  id : UInt64 := 0
  payloadSize : UInt32 := 0
deriving DecidableEq, Repr

namespace Header

/-- The number of bytes a header takes. -/
def size : Nat := 13

end Header

/-- What follows the header of a message. -/
inductive Content where
  /-- A header alone, with whatever payload size it claims. -/
  | bare
  | request (r : Request)
  | response (r : Response)
deriving DecidableEq, Repr

/-- A message: its header fields and its content. -/
structure Message where
  header : Header := {}
  content : Content := .bare
deriving DecidableEq, Repr

namespace Message

/-- The message that carries a request. Its payload size is known only once it is encoded. -/
def ofRequest (r : Request) : Message where
  header :=
    { type := match r.task with
        | .create => .create
        | .find .. => .find
      id := r.id }
  content := .request r

/-- The message that carries a response. -/
def ofResponse (r : Response) : Message where
  header := { type := .response, id := r.requestId }
  content := .response r

end Message

/-- The parts of a payload that a body can be too short for. -/
inductive Field where
  | status
  | paramsKind
  | stringLength
  | stringData
  | fileCount
  | fileList
deriving DecidableEq, Repr

namespace Field

def name : Field → Bytes
  | .status => text "status"
  | .paramsKind => text "params kind"
  | .stringLength => text "string length"
  | .stringData => text "string data"
  | .fileCount => text "file count"
  | .fileList => text "file list"

end Field

/-- Why a body is not a message. -/
inductive DecodeError where
  | empty
  | shorterThanHeader (size : Nat)
  | sizeMismatch (declared present : Nat)
  | unknownType (byte : UInt8)
  | notRequest (byte : UInt8)
  | notResponse (byte : UInt8)
  | underflow (field : Field)
  | invalidStatus (byte : UInt8)
  | unknownKind (byte : UInt8)
  | trailingAfterRequest
  | trailingAfterResponse
deriving DecidableEq, Repr

namespace DecodeError

def message : DecodeError → Bytes
  | .empty => text "Empty message"
  | .shorterThanHeader size =>
      text "Message shorter than header (" ++ decimal size ++ text " bytes)"
  | .sizeMismatch declared present =>
      text "Payload size mismatch: header says " ++ decimal declared ++
        text ", body has " ++ decimal present
  | .unknownType byte => text "Unknown message type: " ++ decimal byte.toNat
  | .notRequest byte => text "Not a request message: type " ++ decimal byte.toNat
  | .notResponse byte => text "Not a response message: type " ++ decimal byte.toNat
  | .underflow field => text "Buffer underflow reading " ++ field.name
  | .invalidStatus byte => text "Invalid response status " ++ decimal byte.toNat
  | .unknownKind byte => text "Unknown response kind " ++ decimal byte.toNat
  | .trailingAfterRequest => text "Trailing bytes after request payload"
  | .trailingAfterResponse => text "Trailing bytes after response payload"

end DecodeError

end SearchDaemon
