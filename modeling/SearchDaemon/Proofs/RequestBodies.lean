import SearchDaemon.Proofs.Fields

/-!
# Bodies of requests

A request is read from exactly the body it is written as. What is written has the layout
stated here, unless the payload is so long that its size no longer fits the header; then the
header announces fewer bytes than follow it, and the body is refused. The layout is stated by
the bytes alone, without the functions that write and read it.
-/

namespace SearchDaemon

/-! ## The layout of a body -/

/-- These bytes write a number, the most significant first. -/
def IsNumber (width n : Nat) (digits : Bytes) : Prop :=
  digits.length = width ∧ ofBigEndian digits = n

/-- A string behind its length on four bytes. -/
inductive Prefixed (s : Bytes) : Bytes → Prop
  | mk {digits : Bytes} : IsNumber 4 s.length digits → Prefixed s (digits ++ s)

/-- The type byte, the id on eight bytes, the size of the payload on four, and the payload. -/
inductive LaidOut (type : UInt8) (id : UInt64) (payload : Bytes) : Bytes → Prop
  | mk {idDigits sizeDigits : Bytes} : IsNumber 8 id.toNat idDigits →
      IsNumber 4 payload.length sizeDigits →
      LaidOut type id payload (type :: (idDigits ++ sizeDigits ++ payload))

/-- The body of a request: nothing behind the header, or the directory and the pattern. -/
inductive Request.Layout : Request → Bytes → Prop
  | create {id : UInt64} {body : Bytes} : LaidOut 1 id [] body → Layout ⟨id, .create⟩ body
  | find {id : UInt64} {dir pattern first second body : Bytes} : Prefixed dir first →
      Prefixed pattern second → LaidOut 2 id (first ++ second) body →
      Layout ⟨id, .find dir pattern⟩ body

theorem isNumber_iff {width n : Nat} {digits : Bytes} :
    IsNumber width n digits ↔ n < Nat.pow 256 width ∧ digits = bigEndian width n := by
  constructor
  · rintro ⟨rfl, rfl⟩
    exact ⟨ofBigEndian_lt digits, (bigEndian_ofBigEndian digits).symm⟩
  · rintro ⟨hlt, rfl⟩
    refine ⟨length_bigEndian width n, ?_⟩
    rw [ofBigEndian_bigEndian, Nat.mod_eq_of_lt hlt]

theorem prefixed_iff {s bs : Bytes} :
    Prefixed s bs ↔ s.length < 2 ^ 32 ∧ bs = lengthPrefixed s := by
  constructor
  · rintro ⟨hdigits⟩
    obtain ⟨hlt, rfl⟩ := isNumber_iff.1 hdigits
    exact ⟨hlt, rfl⟩
  · rintro ⟨hlt, rfl⟩
    exact .mk (isNumber_iff.2 ⟨hlt, rfl⟩)

theorem laidOut_iff (type : MessageType) {id : UInt64} {payload body : Bytes} :
    LaidOut type.toByte id payload body ↔
      payload.length < 2 ^ 32 ∧ body = withHeader type id payload := by
  have hwritten (hlt : payload.length < 2 ^ 32) : withHeader type id payload =
      type.toByte :: (bigEndian 8 id.toNat ++ bigEndian 4 payload.length ++ payload) := by
    simp only [withHeader, Header.encode, UInt32.toNat_ofNat_of_lt' hlt, List.cons_append]
  constructor
  · rintro ⟨hid, hsize⟩
    obtain ⟨-, rfl⟩ := isNumber_iff.1 hid
    obtain ⟨hlt, rfl⟩ := isNumber_iff.1 hsize
    exact ⟨hlt, (hwritten hlt).symm⟩
  · rintro ⟨hlt, rfl⟩
    rw [hwritten hlt]
    exact .mk (isNumber_iff.2 ⟨id.toNat_lt, rfl⟩) (isNumber_iff.2 ⟨hlt, rfl⟩)

/-! ## Requests -/

namespace Task

/-- The number of bytes in the payload of a request for this task. -/
def size : Task → Nat
  | .create => 0
  | .find dir pattern => 8 + dir.length + pattern.length

/-- Four bytes are enough for the length of each string. -/
def Fits : Task → Prop
  | .create => True
  | .find dir pattern => dir.length < 2 ^ 32 ∧ pattern.length < 2 ^ 32

theorem length_payload (task : Task) : task.payload.length = task.size := by
  cases task with
  | create => rfl
  | find dir pattern =>
      simp only [payload, size, lengthPrefixed, List.length_append, length_bigEndian]
      omega

theorem fits_of_size {task : Task} (h : task.size < 2 ^ 32) : task.Fits := by
  cases task with
  | create => trivial
  | find dir pattern =>
      rw [size] at h
      exact ⟨by omega, by omega⟩

theorem isNamed_messageType (task : Task) : task.messageType.IsNamed := by
  cases task with
  | create => exact MessageType.isNamed_create
  | find dir pattern => exact MessageType.isNamed_find

end Task

namespace Request

variable {body payload : Bytes} {type : MessageType} {task : Task} {header : Header} {r : Request}

theorem decodeTask_create : decodeTask .create payload =
    if payload.isEmpty then .ok .create else .error .trailingAfterRequest := rfl

theorem decodeTask_find : decodeTask .find payload =
    (Decoder.string payload >>= fun dir => Decoder.string dir.2 >>= fun pattern =>
      if pattern.2.isEmpty then .ok (.find dir.1 pattern.1)
      else .error .trailingAfterRequest) := rfl

/-- A payload is read to its end as the task that the type announces. -/
theorem decodeTask_eq_ok :
    decodeTask type payload = .ok task ↔
      type = task.messageType ∧ task.Fits ∧ payload = task.payload := by
  constructor
  · intro h
    cases type with
    | create =>
        rw [decodeTask_create, atEnd_eq_ok] at h
        obtain ⟨rfl, rfl⟩ := h
        exact ⟨rfl, trivial, rfl⟩
    | find =>
        rw [decodeTask_find, bind_eq_ok] at h
        obtain ⟨⟨dir, after⟩, hdir, h⟩ := h
        obtain ⟨⟨pattern, rest⟩, hpattern, h⟩ := bind_eq_ok.1 h
        obtain ⟨rfl, rfl⟩ := atEnd_eq_ok.1 h
        obtain ⟨hdirLt, rfl⟩ := Decoder.string_eq_ok.1 hdir
        obtain ⟨hpatternLt, rfl⟩ := Decoder.string_eq_ok.1 hpattern
        rw [List.append_nil]
        exact ⟨rfl, ⟨hdirLt, hpatternLt⟩, rfl⟩
    | response => contradiction
    | other byte => contradiction
  · rintro ⟨rfl, hfits, rfl⟩
    cases task with
    | create => rfl
    | find dir pattern =>
        have hdir : Decoder.string (lengthPrefixed dir ++ lengthPrefixed pattern) =
            .ok (dir, lengthPrefixed pattern) := Decoder.string_eq_ok.2 ⟨hfits.1, rfl⟩
        have hpattern : Decoder.string (lengthPrefixed pattern) = .ok (pattern, []) :=
          Decoder.string_eq_ok.2 ⟨hfits.2, (List.append_nil _).symm⟩
        show decodeTask .find (lengthPrefixed dir ++ lengthPrefixed pattern) = _
        rw [decodeTask_find, bind_eq_ok]
        exact ⟨_, hdir, bind_eq_ok.2 ⟨_, hpattern, rfl⟩⟩

theorem decodeBody_eq_ok :
    decodeBody body = .ok (header, r) ↔
      header = { type := r.task.messageType, id := r.id, payloadSize := .ofNat r.task.size } ∧
        r.task.size < 2 ^ 32 ∧ body = r.encode := by
  constructor
  · intro h
    obtain ⟨⟨found, payload⟩, hheader, h⟩ := bind_eq_ok.1 h
    obtain ⟨task, htask, h⟩ := bind_eq_ok.1 h
    cases h
    obtain ⟨-, hsize, rfl⟩ := Header.decode_eq_ok.1 hheader
    obtain ⟨htype, -, rfl⟩ := decodeTask_eq_ok.1 htask
    have hlt := header.payloadSize.toNat_lt
    rw [hsize, Task.length_payload] at hlt
    -- The size in the header is the one that would be written.
    have hsame : header.payloadSize = .ofNat task.size := by
      rw [← Task.length_payload, ← hsize, UInt32.ofNat_toNat]
    refine ⟨?_, hlt, ?_⟩
    · rw [← htype, ← hsame]
    · rw [encode, withHeader, Task.length_payload, ← htype, ← hsame]
  · rintro ⟨rfl, hlt, rfl⟩
    apply bind_eq_ok.2
    refine ⟨(⟨r.task.messageType, r.id, .ofNat r.task.size⟩, r.task.payload), ?_, ?_⟩
    · rw [encode, decode_withHeader r.task.isNamed_messageType, Task.length_payload, if_pos hlt]
    · apply bind_eq_ok.2
      exact ⟨r.task, decodeTask_eq_ok.2 ⟨rfl, Task.fits_of_size hlt, rfl⟩, rfl⟩

/-- **A request is read from exactly the body that it is written as.** -/
theorem decode_eq_ok : decode body = .ok r ↔ r.task.size < 2 ^ 32 ∧ body = r.encode := by
  rw [decode, unlessEmpty_eq_ok]
  constructor
  · rintro ⟨-, header, h⟩
    exact (decodeBody_eq_ok.1 h).2
  · rintro ⟨hlt, rfl⟩
    exact ⟨withHeader_ne_nil _ _ _, _, decodeBody_eq_ok.2 ⟨rfl, hlt, rfl⟩⟩

/-- A request too long for its header is refused by the check of sizes. -/
theorem decode_encode_of_large (h : ¬r.task.size < 2 ^ 32) :
    decode r.encode = .error (.sizeMismatch (r.task.size % 2 ^ 32) r.task.size) := by
  have hbody : decodeBody r.encode =
      .error (.sizeMismatch (r.task.size % 2 ^ 32) r.task.size) := by
    rw [decodeBody, encode, decode_withHeader r.task.isNamed_messageType, Task.length_payload,
      if_neg h]
    rfl
  exact unlessEmpty_eq_error (withHeader_ne_nil _ _ _) hbody

theorem layout_iff : Layout r body ↔ r.task.size < 2 ^ 32 ∧ body = r.encode := by
  obtain ⟨id, task⟩ := r
  constructor
  · rintro (hbody | ⟨hdir, hpattern, hbody⟩)
    · exact (laidOut_iff .create).1 hbody
    · obtain ⟨-, rfl⟩ := prefixed_iff.1 hdir
      obtain ⟨-, rfl⟩ := prefixed_iff.1 hpattern
      obtain ⟨hlt, rfl⟩ := (laidOut_iff .find).1 hbody
      rw [← Task.length_payload]
      exact ⟨hlt, rfl⟩
  · rintro ⟨hlt, rfl⟩
    have hfits := Task.fits_of_size hlt
    rw [← Task.length_payload] at hlt
    cases task with
    | create => exact .create ((laidOut_iff .create).2 ⟨hlt, rfl⟩)
    | find dir pattern =>
        exact .find (prefixed_iff.2 ⟨hfits.1, rfl⟩) (prefixed_iff.2 ⟨hfits.2, rfl⟩)
          ((laidOut_iff .find).2 ⟨hlt, rfl⟩)

/-- **A request reads back from its body, and from no other.** What is written for a request is
read as that request if its payload takes fewer than 2^32 bytes, and refused otherwise, never
read as another one. Whatever body is read as a request is the one written for it; and those
are exactly the bodies of the layout. -/
theorem read_back_exactly_as_laid_out (r : Request) :
    (Message.ofRequest r).encode.length = Header.size + r.task.size ∧
    decode (Message.ofRequest r).encode =
      (if r.task.size < 2 ^ 32 then .ok r
      else .error (.sizeMismatch (r.task.size % 2 ^ 32) r.task.size)) ∧
    (∀ body, decode body = .ok r ↔
      r.task.size < 2 ^ 32 ∧ (Message.ofRequest r).encode = body) ∧
    ∀ body, decode body = .ok r ↔ Layout r body := by
  have hencode : (Message.ofRequest r).encode = r.encode := rfl
  rw [hencode]
  refine ⟨?_, ?_, ?_, ?_⟩
  · rw [encode, length_withHeader, Task.length_payload]
  · split
    · rename_i hlt
      exact decode_eq_ok.2 ⟨hlt, rfl⟩
    · rename_i hlarge
      exact decode_encode_of_large hlarge
  · intro body
    rw [decode_eq_ok, eq_comm (a := body)]
  · intro body
    rw [decode_eq_ok, layout_iff]

/-- The request number 7 for the names in `d` that match `x`. -/
example : decode [2, 0, 0, 0, 0, 0, 0, 0, 7, 0, 0, 0, 10, 0, 0, 0, 1, 100, 0, 0, 0, 1, 120] =
    .ok ⟨7, .find (text "d") (text "x")⟩ := by decide

end Request

end SearchDaemon
