import Mathlib.Algebra.Group.Nat.Defs
import Mathlib.Data.List.Basic
import SearchDaemon.Message.Decoding

/-!
# Fields of a body

What the readers of the parts of a body accept. Each of them gives a value, and a rest,
exactly where the written form of that value stands in front of that rest; the only thing a
value must satisfy is that its length fits the bytes that count it. So a reader of several
fields accepts what the writer of the same fields writes and nothing else.
-/

namespace SearchDaemon

/-- Two readings one after the other succeed if each of them does. -/
theorem bind_eq_ok {ε α β : Type} {first : Except ε α} {next : α → Except ε β} {b : β} :
    (first >>= next) = .ok b ↔ ∃ a, first = .ok a ∧ next a = .ok b := by
  cases first with
  | error e => simp [bind, Except.bind]
  | ok a => simp [bind, Except.bind]

theorem bind_eq_error {ε α β : Type} {first : Except ε α} {next : α → Except ε β} {e : ε} :
    (first >>= next) = .error e ↔
      first = .error e ∨ ∃ a, first = .ok a ∧ next a = .error e := by
  cases first with
  | error e' => simp [bind, Except.bind]
  | ok a => simp [bind, Except.bind]

theorem ok_bind {ε α β : Type} (a : α) (next : α → Except ε β) : (.ok a >>= next) = next a := rfl

/-- A reading that must have come to the end. -/
theorem atEnd_eq_ok {ε α : Type} {rest : Bytes} {a b : α} {e : ε} :
    (if rest.isEmpty then Except.ok a else .error e) = .ok b ↔ rest = [] ∧ a = b := by
  cases rest with
  | nil => simp
  | cons first others => simp

/-- A number below 2^32 keeps its value on four bytes. -/
theorem ofBigEndian_word {n : Nat} (h : n < 2 ^ 32) : ofBigEndian (bigEndian 4 n) = n := by
  rw [ofBigEndian_bigEndian]
  exact Nat.mod_eq_of_lt h

theorem ofBigEndian_id (id : UInt64) : ofBigEndian (bigEndian 8 id.toNat) = id.toNat := by
  rw [ofBigEndian_bigEndian]
  exact Nat.mod_eq_of_lt id.toNat_lt

namespace Decoder

variable {field : Field} {bs rest s : Bytes} {ss : List Bytes} {b : UInt8} {n count : Nat}

theorem byte_eq_ok : byte field bs = .ok (b, rest) ↔ bs = b :: rest := by
  cases bs with
  | nil => simp [byte]
  | cons first others => simp [byte]

theorem word_eq_ok :
    word field bs = .ok (n, rest) ↔ n < 2 ^ 32 ∧ bs = bigEndian 4 n ++ rest := by
  unfold word
  constructor
  · intro h
    split at h
    · contradiction
    · rename_i digits after hsplit
      obtain ⟨rfl, hlength⟩ := Bytes.splitExact?_eq_some_iff.1 hsplit
      cases h
      have hlt := ofBigEndian_lt digits
      have hsame := bigEndian_ofBigEndian digits
      rw [hlength] at hlt hsame
      exact ⟨hlt, by rw [hsame]⟩
  · rintro ⟨hlt, rfl⟩
    have hsplit : (bigEndian 4 n ++ rest).splitExact? 4 = some (bigEndian 4 n, rest) :=
      Bytes.splitExact?_eq_some_iff.2 ⟨rfl, length_bigEndian 4 n⟩
    rw [hsplit]
    dsimp only
    rw [ofBigEndian_word hlt]

theorem string_eq_ok :
    string bs = .ok (s, rest) ↔ s.length < 2 ^ 32 ∧ bs = lengthPrefixed s ++ rest := by
  rw [string, bind_eq_ok]
  constructor
  · rintro ⟨⟨length, after⟩, hword, hfound⟩
    obtain ⟨hlt, rfl⟩ := word_eq_ok.1 hword
    dsimp only at hfound
    split at hfound
    · contradiction
    · rename_i found hsplit
      cases hfound
      obtain ⟨rfl, rfl⟩ := Bytes.splitExact?_eq_some_iff.1 hsplit
      exact ⟨hlt, by rw [lengthPrefixed, List.append_assoc]⟩
  · rintro ⟨hlt, rfl⟩
    have hsplit : (s ++ rest).splitExact? s.length = some (s, rest) :=
      Bytes.splitExact?_eq_some_iff.2 ⟨rfl, rfl⟩
    refine ⟨(s.length, s ++ rest), ?_, ?_⟩
    · rw [word_eq_ok, lengthPrefixed, List.append_assoc]
      exact ⟨hlt, rfl⟩
    · simp only [hsplit]

theorem strings_eq_ok :
    strings count bs = .ok (ss, rest) ↔
      ss.length = count ∧ (∀ s ∈ ss, s.length < 2 ^ 32) ∧
        bs = ss.flatMap lengthPrefixed ++ rest := by
  induction count generalizing bs ss with
  | zero =>
      rw [strings]
      constructor
      · intro h
        cases h
        exact ⟨rfl, nofun, rfl⟩
      · rintro ⟨hlength, -, rfl⟩
        rw [List.length_eq_zero_iff.mp hlength]
        rfl
  | succ count ih =>
      simp only [strings, bind_eq_ok, pure, Except.pure]
      constructor
      · rintro ⟨⟨s, after⟩, hs, ⟨others, last⟩, hothers, h⟩
        cases h
        obtain ⟨hlt, rfl⟩ := string_eq_ok.1 hs
        obtain ⟨hlength, hall, rfl⟩ := ih.1 hothers
        refine ⟨by rw [List.length_cons, hlength], ?_, ?_⟩
        · rw [List.forall_mem_cons]
          exact ⟨hlt, hall⟩
        · rw [List.flatMap_cons, List.append_assoc]
      · rintro ⟨hlength, hall, rfl⟩
        cases ss with
        | nil => contradiction
        | cons s others =>
            rw [List.forall_mem_cons] at hall
            refine ⟨(s, others.flatMap lengthPrefixed ++ rest), ?_, (others, rest), ?_, rfl⟩
            · rw [string_eq_ok, List.flatMap_cons, List.append_assoc]
              exact ⟨hall.1, rfl⟩
            · exact ih.2 ⟨Nat.succ.inj hlength, hall.2, rfl⟩

end Decoder

/-! ## Headers -/

namespace MessageType

/-- The type is the one that its own byte names. -/
def IsNamed (type : MessageType) : Prop := ofByte type.toByte = type

theorem isNamed_create : IsNamed .create := rfl

theorem isNamed_find : IsNamed .find := rfl

theorem isNamed_response : IsNamed .response := rfl

theorem toByte_ofByte (b : UInt8) : (ofByte b).toByte = b := by
  unfold ofByte
  split
  · rename_i h
    rw [h]
    rfl
  · split
    · rename_i h
      rw [h]
      rfl
    · split
      · rename_i h
        rw [h]
        rfl
      · rfl

end MessageType

namespace Header

variable {body payload : Bytes} {header : Header} {type : MessageType} {id : UInt64}

/-- The header that thirteen bytes write. -/
def ofBytes (head : Bytes) : Header where
  type := .ofByte (head.headD 0)
  id := .ofNat (ofBigEndian ((head.drop 1).take 8))
  payloadSize := .ofNat (ofBigEndian (head.drop 9))

theorem ofBytes_encode (header : Header) (named : header.type.IsNamed) :
    ofBytes header.encode = header := by
  obtain ⟨type, id, payloadSize⟩ := header
  have htype : MessageType.ofByte type.toByte = type := named
  have hid : (bigEndian 8 id.toNat ++ bigEndian 4 payloadSize.toNat).take 8 =
      bigEndian 8 id.toNat := List.take_left' (length_bigEndian _ _)
  have hsize : (bigEndian 8 id.toNat ++ bigEndian 4 payloadSize.toNat).drop 8 =
      bigEndian 4 payloadSize.toNat := List.drop_left' (length_bigEndian _ _)
  simp only [ofBytes, encode, List.headD_cons, List.drop_succ_cons, List.drop_zero, htype, hid,
    hsize, ofBigEndian_id, ofBigEndian_word payloadSize.toNat_lt, UInt64.ofNat_toNat,
    UInt32.ofNat_toNat]

theorem encode_ofBytes {head : Bytes} (h : head.length = size) : (ofBytes head).encode = head := by
  cases head with
  | nil => contradiction
  | cons first digits =>
      rw [List.length_cons, size] at h
      have hid : (digits.take 8).length = 8 := by
        rw [List.length_take]
        omega
      have hsize : (digits.drop 8).length = 4 := by
        rw [List.length_drop]
        omega
      have hidLt := ofBigEndian_lt (digits.take 8)
      have hsizeLt := ofBigEndian_lt (digits.drop 8)
      have hidSame := bigEndian_ofBigEndian (digits.take 8)
      have hsizeSame := bigEndian_ofBigEndian (digits.drop 8)
      rw [hid] at hidLt hidSame
      rw [hsize] at hsizeLt hsizeSame
      simp only [ofBytes, encode, List.headD_cons, List.drop_succ_cons, List.drop_zero,
        MessageType.toByte_ofByte]
      rw [UInt64.toNat_ofNat_of_lt' hidLt, UInt32.toNat_ofNat_of_lt' hsizeLt, hidSame, hsizeSame,
        List.take_append_drop]

/-- A body of a header's length or more is read as that header and a payload, if the size in the
one is that of the other. -/
theorem decode_append {head : Bytes} (h : head.length = size) (payload : Bytes) :
    decode (head ++ payload) =
      if (ofBytes head).payloadSize.toNat = payload.length then .ok (ofBytes head, payload)
      else .error (.sizeMismatch (ofBytes head).payloadSize.toNat payload.length) := by
  have hsplit : (head ++ payload).splitExact? size = some (head, payload) :=
    Bytes.splitExact?_eq_some_iff.2 ⟨rfl, h⟩
  rw [decode, hsplit]
  rfl

theorem decode_eq_ok :
    decode body = .ok (header, payload) ↔
      header.type.IsNamed ∧ header.payloadSize.toNat = payload.length ∧
        body = header.encode ++ payload := by
  constructor
  · intro h
    cases hsplit : body.splitExact? size with
    | none =>
        rw [decode, hsplit] at h
        contradiction
    | some parts =>
        obtain ⟨head, after⟩ := parts
        obtain ⟨rfl, hlength⟩ := Bytes.splitExact?_eq_some_iff.1 hsplit
        rw [decode_append hlength] at h
        split at h
        · rename_i hsize
          cases h
          refine ⟨?_, hsize, ?_⟩
          · rw [MessageType.IsNamed, ofBytes, MessageType.toByte_ofByte]
          · rw [encode_ofBytes hlength]
        · contradiction
  · rintro ⟨named, hsize, rfl⟩
    rw [decode_append (length_encode header), ofBytes_encode header named, if_pos hsize]

end Header

/-- A payload behind its header reads back if its size fits four bytes; otherwise the header
announces a smaller one. -/
theorem decode_withHeader {type : MessageType} (named : type.IsNamed) (id : UInt64)
    (payload : Bytes) :
    Header.decode (withHeader type id payload) =
      if payload.length < 2 ^ 32 then
        .ok ({ type, id, payloadSize := .ofNat payload.length }, payload)
      else .error (.sizeMismatch (payload.length % 2 ^ 32) payload.length) := by
  have hsize : (UInt32.ofNat payload.length).toNat = payload.length % 2 ^ 32 :=
    UInt32.toNat_ofNat'
  rw [withHeader, Header.decode_append (Header.length_encode _), Header.ofBytes_encode _ named]
  dsimp only
  rw [hsize]
  by_cases h : payload.length < 2 ^ 32
  · rw [if_pos h, if_pos (Nat.mod_eq_of_lt h)]
  · have hne : payload.length % 2 ^ 32 ≠ payload.length := by omega
    rw [if_neg h, if_neg hne]

/-! ## Whole bodies -/

theorem withHeader_ne_nil (type : MessageType) (id : UInt64) (payload : Bytes) :
    withHeader type id payload ≠ [] := by
  intro h
  have hlength := congrArg List.length h
  rw [length_withHeader, Header.size, List.length_nil] at hlength
  omega

section

variable {α : Type} {found : Except DecodeError (Header × α)} {body : Bytes} {a : α}

/-- What a body is read as, an empty one apart. -/
theorem unlessEmpty_eq_ok :
    (if body.isEmpty then .error .empty else Prod.snd <$> found) = .ok a ↔
      body ≠ [] ∧ ∃ header, found = .ok (header, a) := by
  cases body with
  | nil => simp
  | cons first others =>
      cases found with
      | error e => simp [Functor.map, Except.map]
      | ok pair =>
          obtain ⟨header, value⟩ := pair
          simp [Functor.map, Except.map]

theorem unlessEmpty_eq_error {e : DecodeError} (h : body ≠ []) (hfound : found = .error e) :
    (if body.isEmpty then .error .empty else Prod.snd <$> found) = .error e := by
  rw [hfound, if_neg]
  · rfl
  · rwa [List.isEmpty_iff]

end

end SearchDaemon
