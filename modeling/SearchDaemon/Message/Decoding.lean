import SearchDaemon.Message.Encoding

/-!
# Reading message bodies

Decoders for the three questions a reader may ask of a body: is it a request,
is it a response, or what message is it. Each reads the header first, then the
payload field by field, and refuses whatever is left over. The order of the
checks decides which of several faults is reported.
-/

namespace SearchDaemon

/-- A reader of some beginning of a payload. -/
abbrev Decoder (α : Type) := Bytes → Except DecodeError (α × Bytes)

namespace Decoder

def byte (field : Field) : Decoder UInt8
  | [] => .error (.underflow field)
  | b :: rest => .ok (b, rest)

/-- A big-endian number on four bytes. -/
def word (field : Field) : Decoder Nat := fun bs =>
  match bs.splitExact? 4 with
  | none => .error (.underflow field)
  | some (digits, rest) => .ok (ofBigEndian digits, rest)

/-- A string behind its length. -/
def string : Decoder Bytes := fun bs => do
  let (length, rest) ← word .stringLength bs
  match rest.splitExact? length with
  | none => .error (.underflow .stringData)
  | some found => .ok found

/-- A given number of strings, one after the other. -/
def strings : (count : Nat) → Decoder (List Bytes)
  | 0, bs => .ok ([], bs)
  | count + 1, bs => do
      let (first, rest) ← string bs
      let (others, rest) ← strings count rest
      return (first :: others, rest)

end Decoder

namespace Header

/-- The header of a body, checked against the body's size, and the payload. -/
def decode (body : Bytes) : Except DecodeError (Header × Bytes) :=
  match body.splitExact? size with
  | none => .error (.shorterThanHeader body.length)
  | some (head, payload) =>
      let type := MessageType.ofByte (head.headD 0)
      let id := UInt64.ofNat (ofBigEndian ((head.drop 1).take 8))
      let payloadSize := UInt32.ofNat (ofBigEndian (head.drop 9))
      if payloadSize.toNat = payload.length then .ok ({ type, id, payloadSize }, payload)
      else .error (.sizeMismatch payloadSize.toNat payload.length)

end Header

namespace Request

/-- The task named by a message type, read from the payload to its end. -/
def decodeTask (type : MessageType) (payload : Bytes) : Except DecodeError Task := do
  let (task, rest) ← match type with
    | .create => .ok (Task.create, payload)
    | .find => do
        let (dir, rest) ← Decoder.string payload
        let (pattern, rest) ← Decoder.string rest
        .ok (Task.find dir pattern, rest)
    | other => .error (.notRequest other.toByte)
  if rest.isEmpty then .ok task else .error .trailingAfterRequest

/-- A request and its header, from a body that is not empty. -/
def decodeBody (body : Bytes) : Except DecodeError (Header × Request) := do
  let (header, payload) ← Header.decode body
  let task ← decodeTask header.type payload
  return (header, { id := header.id, task })

/-- The request a body holds. -/
def decode (body : Bytes) : Except DecodeError Request :=
  if body.isEmpty then .error .empty else Prod.snd <$> decodeBody body

end Request

namespace Response

/-- The files of a response. Every entry takes at least its four length bytes,
so a count beyond a quarter of what is left is refused before any entry is read. -/
def decodeFiles (bs : Bytes) : Except DecodeError (List Bytes × Bytes) := do
  let (count, rest) ← Decoder.word .fileCount bs
  if rest.length / 4 < count then .error (.underflow .fileList)
  else Decoder.strings count rest

/-- The files of a response without the early refusal: the count, then the entries. -/
def decodeFilesPlainly (bs : Bytes) : Except DecodeError (List Bytes × Bytes) := do
  let (count, rest) ← Decoder.word .fileCount bs
  Decoder.strings count rest

/-- A response's payload, with the given reader for its files. -/
def decodePayload (contentAts : Bytes → Except DecodeError (List Bytes × Bytes))
    (id : UInt64) (payload : Bytes) : Except DecodeError Response := do
  let (status, rest) ← Decoder.byte .status payload
  if status > 1 then .error (.invalidStatus status)
  else do
    let (kind, rest) ← Decoder.byte .paramsKind rest
    let (error, rest) ← Decoder.string rest
    let (files, rest) ←
      if kind = plain then .ok ([], rest)
      else if kind = fileList then contentAts rest
      else .error (.unknownKind kind)
    if rest.isEmpty then .ok { requestId := id, success := status = 0, error, kind, files }
    else .error .trailingAfterResponse

/-- A response and its header, from a body that is not empty. -/
def decodeBody (body : Bytes) : Except DecodeError (Header × Response) := do
  let (header, payload) ← Header.decode body
  match header.type with
  | .response => do
      let response ← decodePayload decodeFiles header.id payload
      return (header, response)
  | other => .error (.notResponse other.toByte)

/-- The response a body holds. -/
def decode (body : Bytes) : Except DecodeError Response :=
  if body.isEmpty then .error .empty else Prod.snd <$> decodeBody body

end Response

namespace Message

/-- The message a body holds, whichever kind its type byte announces. -/
def decode (body : Bytes) : Except DecodeError Message :=
  match body with
  | [] => .error .empty
  | first :: _ =>
      match MessageType.ofByte first with
      | .create | .find => do
          let (header, request) ← Request.decodeBody body
          return { header, content := .request request }
      | .response => do
          let (header, response) ← Response.decodeBody body
          return { header, content := .response response }
      | .other byte => .error (.unknownType byte)

end Message

end SearchDaemon
