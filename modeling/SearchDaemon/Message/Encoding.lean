import SearchDaemon.Message

/-!
# Message bodies as bytes

The written form of messages. All integers are big-endian; a string is its
length on four bytes and then its bytes. Lengths that do not fit four bytes are
written modulo 2^32, so such a body does not read back.

Main fact: `Message.length_encode` gives the size of every encoded message.
-/

namespace SearchDaemon

/-- The length of a string on four bytes, then the string. -/
def lengthPrefixed (s : Bytes) : Bytes :=
  bigEndian 4 s.length ++ s

namespace Header

/-- Type byte, id on eight bytes, payload size on four. -/
def encode (h : Header) : Bytes :=
  h.type.toByte :: (bigEndian 8 h.id.toNat ++ bigEndian 4 h.payloadSize.toNat)

@[simp] theorem length_encode (h : Header) : h.encode.length = size := by
  simp [encode, size]

end Header

namespace Task

def messageType : Task → MessageType
  | .create => .create
  | .find .. => .find

/-- The payload of a request for this task. -/
def payload : Task → Bytes
  | .create => []
  | .find dir pattern => lengthPrefixed dir ++ lengthPrefixed pattern

end Task

/-- A payload behind the header that announces its size. -/
def withHeader (type : MessageType) (id : UInt64) (payload : Bytes) : Bytes :=
  Header.encode { type, id, payloadSize := UInt32.ofNat payload.length } ++ payload

namespace Request

def encode (r : Request) : Bytes :=
  withHeader r.task.messageType r.id r.task.payload

end Request

namespace Response

/-- The file names, each with its length, behind their count. -/
def encodeFiles (files : List Bytes) : Bytes :=
  bigEndian 4 files.length ++ files.flatMap lengthPrefixed

/-- Status byte (0 for success), kind byte, error text, and the files if the
kind has any. -/
def payload (r : Response) : Bytes :=
  (if r.success then 0 else 1) :: r.kind ::
    (lengthPrefixed r.error ++ (if r.kind = fileList then encodeFiles r.files else []))

def encode (r : Response) : Bytes :=
  withHeader .response r.requestId r.payload

end Response

namespace Message

/-- The whole body of a message. The header is written as it stands only when
nothing follows it; a request or response brings its own. -/
def encode (m : Message) : Bytes :=
  match m.content with
  | .bare => m.header.encode
  | .request r => r.encode
  | .response r => r.encode

end Message

@[simp] theorem length_withHeader (type : MessageType) (id : UInt64) (payload : Bytes) :
    (withHeader type id payload).length = Header.size + payload.length := by
  simp [withHeader]

/-- A body is its content's payload and one header. -/
theorem Message.length_encode (m : Message) :
    m.encode.length = Header.size +
      (match m.content with
       | .bare => 0
       | .request r => r.task.payload.length
       | .response r => r.payload.length) := by
  rcases m with ⟨h, _ | r | r⟩ <;> simp [encode, Request.encode, Response.encode]

end SearchDaemon
