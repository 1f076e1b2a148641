import SearchDaemon.Proofs.RequestBodies
import SearchDaemon.Proofs.ResponseBodies

/-!
# Bodies of messages

A body can be read as a message, without knowing which kind to expect. The type byte then
decides who reads it, before its size has been looked at, while a reader of requests or of
responses alone looks at the size first. They still agree: a body is read as a message that
holds a request exactly where it is read as that request, and the same for responses.
-/

namespace SearchDaemon

theorem Request.decode_eq_ok_iff_body {body : Bytes} {r : Request} :
    decode body = .ok r ↔ ∃ header, decodeBody body = .ok (header, r) := by
  simp only [decode_eq_ok, decodeBody_eq_ok, exists_eq_left]

theorem Response.decode_eq_ok_iff_body {body : Bytes} {r : Response} :
    decode body = .ok r ↔ ∃ header, decodeBody body = .ok (header, r) := by
  simp only [decode_eq_ok, decodeBody_eq_ok, exists_eq_left]

namespace Message

variable {body : Bytes} {m : Message} {header : Header}

/-! ## Who reads a body -/

/-- The type byte of a body that holds a request sends it to the reader of requests. -/
theorem decode_request (r : Request) :
    decode r.encode = (Request.decodeBody r.encode >>= fun found =>
      .ok ⟨found.1, .request found.2⟩) := by
  obtain ⟨id, _ | ⟨dir, pattern⟩⟩ := r <;> rfl

/-- The type byte of a body that holds a response sends it to the reader of responses. -/
theorem decode_response (r : Response) :
    decode r.encode = (Response.decodeBody r.encode >>= fun found =>
      .ok ⟨found.1, .response found.2⟩) := rfl

/-- What is read as a message has been read as a request or as a response. -/
theorem decode_cases (h : decode body = .ok m) :
    (∃ header r, m = ⟨header, .request r⟩ ∧ Request.decodeBody body = .ok (header, r)) ∨
      ∃ header r, m = ⟨header, .response r⟩ ∧ Response.decodeBody body = .ok (header, r) := by
  unfold decode at h
  split at h
  · contradiction
  · split at h
    · obtain ⟨⟨header, r⟩, hbody, h⟩ := bind_eq_ok.1 h
      cases h
      exact Or.inl ⟨header, r, rfl, hbody⟩
    · obtain ⟨⟨header, r⟩, hbody, h⟩ := bind_eq_ok.1 h
      cases h
      exact Or.inl ⟨header, r, rfl, hbody⟩
    · obtain ⟨⟨header, r⟩, hbody, h⟩ := bind_eq_ok.1 h
      cases h
      exact Or.inr ⟨header, r, rfl, hbody⟩
    · contradiction

theorem decode_eq_ok_request {r : Request} :
    decode body = .ok ⟨header, .request r⟩ ↔ Request.decodeBody body = .ok (header, r) := by
  constructor
  · intro h
    rcases decode_cases h with ⟨_, _, hm, hbody⟩ | ⟨_, _, hm, -⟩
    · cases hm
      exact hbody
    · cases hm
  · intro h
    obtain ⟨-, -, rfl⟩ := Request.decodeBody_eq_ok.1 h
    rw [decode_request, h]
    rfl

theorem decode_eq_ok_response {r : Response} :
    decode body = .ok ⟨header, .response r⟩ ↔ Response.decodeBody body = .ok (header, r) := by
  constructor
  · intro h
    rcases decode_cases h with ⟨_, _, hm, -⟩ | ⟨_, _, hm, hbody⟩
    · cases hm
    · cases hm
      exact hbody
  · intro h
    obtain ⟨-, -, -, rfl⟩ := Response.decodeBody_eq_ok.1 h
    rw [decode_response, h]
    rfl

/-! ## What the header says -/

/-- The header fields stand in front of a body, and what follows has the size they tell. -/
def Heads (header : Header) (body : Bytes) : Prop :=
  ∃ payload, payload.length = header.payloadSize.toNat ∧
    LaidOut header.type.toByte header.id payload body

/-- The header fields repeat what the content says of itself. -/
def Consistent (m : Message) : Prop :=
  match m.content with
  | .bare => False
  | .request r =>
      m.header.type = r.task.messageType ∧ m.header.id = r.id ∧
        m.header.payloadSize.toNat = r.task.size
  | .response r =>
      m.header.type = .response ∧ m.header.id = r.requestId ∧
        m.header.payloadSize.toNat = r.size

theorem heads_withHeader {type : MessageType} {id : UInt64} {payload : Bytes}
    (h : payload.length < 2 ^ 32) :
    Heads ⟨type, id, .ofNat payload.length⟩ (withHeader type id payload) :=
  ⟨payload, (UInt32.toNat_ofNat_of_lt' h).symm, (laidOut_iff type).2 ⟨h, rfl⟩⟩

/-- A message that has been read is the one that is written so. -/
theorem consistent_of_decode (h : decode body = .ok m) :
    m.Consistent ∧ Heads m.header body ∧ m.encode = body := by
  rcases decode_cases h with ⟨header, r, rfl, hbody⟩ | ⟨header, r, rfl, hbody⟩
  · obtain ⟨rfl, hlt, rfl⟩ := Request.decodeBody_eq_ok.1 hbody
    refine ⟨⟨rfl, rfl, UInt32.toNat_ofNat_of_lt' hlt⟩, ?_, rfl⟩
    rw [← Task.length_payload] at hlt ⊢
    exact heads_withHeader hlt
  · obtain ⟨rfl, -, hlt, rfl⟩ := Response.decodeBody_eq_ok.1 hbody
    refine ⟨⟨rfl, rfl, UInt32.toNat_ofNat_of_lt' hlt⟩, ?_, rfl⟩
    rw [← Response.length_payload] at hlt ⊢
    exact heads_withHeader hlt

/-! ## The three readers -/

/-- **The readers of messages, of requests and of responses agree on every string of bytes.**
It is read as a message with a request exactly if it is read as that request, as a message with
a response exactly if it is read as that response, and never as both. The header of a message
that has been read says what stands in the bytes and what the content says of itself, and the
message is written as the bytes that it was read from. -/
theorem readers_agree (body : Bytes) :
    (∀ r, (∃ header, decode body = .ok ⟨header, .request r⟩) ↔ Request.decode body = .ok r) ∧
    (∀ r, (∃ header, decode body = .ok ⟨header, .response r⟩) ↔ Response.decode body = .ok r) ∧
    ¬((∃ r, Request.decode body = .ok r) ∧ ∃ r, Response.decode body = .ok r) ∧
    ∀ m, decode body = .ok m → m.Consistent ∧ Heads m.header body ∧ m.encode = body := by
  have hrequest (r : Request) :
      (∃ header, decode body = .ok ⟨header, .request r⟩) ↔ Request.decode body = .ok r := by
    simp only [decode_eq_ok_request, Request.decode_eq_ok_iff_body]
  have hresponse (r : Response) :
      (∃ header, decode body = .ok ⟨header, .response r⟩) ↔ Response.decode body = .ok r := by
    simp only [decode_eq_ok_response, Response.decode_eq_ok_iff_body]
  refine ⟨hrequest, hresponse, ?_, fun m => consistent_of_decode⟩
  -- A message has one content only.
  rintro ⟨⟨request, hfirst⟩, response, hsecond⟩
  obtain ⟨_, hfirst⟩ := (hrequest request).2 hfirst
  obtain ⟨_, hsecond⟩ := (hresponse response).2 hsecond
  rw [hfirst] at hsecond
  cases hsecond

/-- The response number 7 with the one file `x`. -/
theorem readers_agree_one_file :
    decode [16, 0, 0, 0, 0, 0, 0, 0, 7, 0, 0, 0, 15, 0, 1, 0, 0, 0, 0, 0, 0, 0, 1, 0, 0, 0, 1, 120]
        = .ok ⟨⟨.response, 7, 15⟩, .response { requestId := 7, kind := 1, files := [[120]] }⟩ ∧
      Response.decode
          [16, 0, 0, 0, 0, 0, 0, 0, 7, 0, 0, 0, 15, 0, 1, 0, 0, 0, 0, 0, 0, 0, 1, 0, 0, 0, 1, 120]
        = .ok { requestId := 7, kind := 1, files := [[120]] } ∧
      Consistent ⟨⟨.response, 7, 15⟩,
        .response { requestId := 7, kind := 1, files := [[120]] }⟩ := by
  have hread : decode
      [16, 0, 0, 0, 0, 0, 0, 0, 7, 0, 0, 0, 15, 0, 1, 0, 0, 0, 0, 0, 0, 0, 1, 0, 0, 0, 1, 120] =
      .ok ⟨⟨.response, 7, 15⟩, .response { requestId := 7, kind := 1, files := [[120]] }⟩ := by
    decide
  obtain ⟨-, hresponse, -, hsame⟩ := readers_agree
    [16, 0, 0, 0, 0, 0, 0, 0, 7, 0, 0, 0, 15, 0, 1, 0, 0, 0, 0, 0, 0, 0, 1, 0, 0, 0, 1, 120]
  exact ⟨hread, (hresponse _).1 ⟨_, hread⟩, (hsame _ hread).1⟩

end Message

end SearchDaemon
