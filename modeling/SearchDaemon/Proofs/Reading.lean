import Mathlib.Data.List.Basic
import SearchDaemon.Frame
import SearchDaemon.Message.Decoding

/-!
# What a stream of bytes asks for

`Frame.next` reads a stream that has ended and `Frame.Reader` one that arrives in
pieces. Here the two are brought together: whatever the pieces, a reader that has
taken some bytes stands where `next` would, in the middle of one frame. On top of
this `Request.readAll` says what requests a stream asks for: those of its longest
beginning that consists of frames with requests in them.
-/

namespace SearchDaemon

namespace Frame

/-! ## The bytes of a frame begun -/

namespace Reader

/-- The bytes of the frame that have been taken. -/
def bytes : Reader → Bytes
  | .length got => got
  | .body size got => bigEndian lengthSize size ++ got

/-- The reader is inside a frame that may become a valid one. -/
def IsPartial : Reader → Prop
  | .length got => got.length < lengthSize
  | .body size got => isInvalidLength size = false ∧ got.length < size

theorem isPartial_start : start.IsPartial := Nat.zero_lt_succ _

end Reader

/-- A length that is allowed keeps its value when it is written. -/
theorem ofBigEndian_length {n : Nat} (valid : isInvalidLength n = false) :
    ofBigEndian (bigEndian lengthSize n) = n := by
  have hle : n ≤ limit := by
    simp only [isInvalidLength, Bool.or_eq_false_iff, decide_eq_false_iff_not] at valid
    omega
  rw [ofBigEndian_bigEndian]
  apply Nat.mod_eq_of_lt
  apply Nat.lt_of_le_of_lt hle
  decide

/-- The eight bytes of a length are those that write it. -/
theorem bigEndian_of_length {digits : Bytes} (h : digits.length = lengthSize) :
    bigEndian lengthSize (ofBigEndian digits) = digits := by
  rw [← h]
  exact bigEndian_ofBigEndian digits

theorem takeBody_waiting {size : Nat} {got bs : Bytes} {reader : Reader}
    (valid : isInvalidLength size = false)
    (h : Reader.takeBody size got bs = .waiting reader) :
    reader.IsPartial ∧ reader.bytes = bigEndian lengthSize size ++ (got ++ bs) := by
  rw [Reader.takeBody] at h
  split at h
  · rename_i hshort
    cases h
    have hall : bs.take (size - got.length) = bs := by
      apply List.take_of_length_le
      rw [List.length_append, List.length_take] at hshort
      omega
    rw [hall] at hshort ⊢
    exact ⟨⟨valid, hshort⟩, rfl⟩
  · contradiction

theorem takeBody_frame {size : Nat} {got bs body rest : Bytes} (le : got.length ≤ size)
    (h : Reader.takeBody size got bs = .frame body rest) :
    body.length = size ∧ got ++ bs = body ++ rest := by
  rw [Reader.takeBody] at h
  split at h
  · contradiction
  · rename_i hlong
    cases h
    rw [List.length_append, List.length_take] at hlong
    refine ⟨?_, ?_⟩
    · rw [List.length_append, List.length_take]
      omega
    · rw [List.append_assoc, List.take_append_drop]

theorem takeBody_ne_invalid {size n : Nat} {got bs rest : Bytes} :
    Reader.takeBody size got bs ≠ .invalid n rest := by
  intro h
  rw [Reader.takeBody] at h
  split at h <;> contradiction

/-! ## A reader and the bytes it takes -/

variable {reader reader' : Reader} {bs body rest : Bytes}

/-- A reader that has not read its length yet either still waits for it, refuses it, or
goes on with the body. -/
theorem take_length {got : Bytes} (bs : Bytes) (short : got.length < lengthSize) :
    (Reader.length got).take bs = .waiting (.length (got ++ bs)) ∧
        (got ++ bs).length < lengthSize ∨
      ∃ digits rest, digits.length = lengthSize ∧ got ++ bs = digits ++ rest ∧
        (Reader.length got).take bs =
          if isInvalidLength (ofBigEndian digits) then .invalid (ofBigEndian digits) rest
          else Reader.takeBody (ofBigEndian digits) [] rest := by
  by_cases hshort : (got ++ bs).length < lengthSize
  · have hall : bs.take (lengthSize - got.length) = bs := by
      apply List.take_of_length_le
      rw [List.length_append] at hshort
      omega
    left
    refine ⟨?_, hshort⟩
    simp only [Reader.take, hall, if_pos hshort]
  · right
    rw [List.length_append] at hshort
    have hdigits : (got ++ bs.take (lengthSize - got.length)).length = lengthSize := by
      rw [List.length_append, List.length_take]
      omega
    refine ⟨got ++ bs.take (lengthSize - got.length), bs.drop (lengthSize - got.length),
      hdigits, ?_, ?_⟩
    · rw [List.append_assoc, List.take_append_drop]
    · simp only [Reader.take, hdigits, Nat.lt_irrefl, if_false]

theorem take_waiting (inside : reader.IsPartial) (h : reader.take bs = .waiting reader') :
    reader'.IsPartial ∧ reader'.bytes = reader.bytes ++ bs := by
  cases reader with
  | length got =>
      rcases take_length bs inside with ⟨hwait, hshort⟩ | ⟨digits, rest, hd, heq, htake⟩
      · rw [hwait] at h
        cases h
        exact ⟨hshort, rfl⟩
      · rw [htake] at h
        split at h
        · contradiction
        · rename_i hvalid
          rw [Bool.not_eq_true] at hvalid
          obtain ⟨hinside, hbytes⟩ := takeBody_waiting hvalid h
          refine ⟨hinside, ?_⟩
          rw [hbytes, bigEndian_of_length hd, List.nil_append, ← heq]
          rfl
  | body size got =>
      obtain ⟨hinside, hbytes⟩ := takeBody_waiting inside.1 h
      refine ⟨hinside, ?_⟩
      rw [hbytes, Reader.bytes, List.append_assoc]

theorem take_frame (inside : reader.IsPartial) (h : reader.take bs = .frame body rest) :
    isInvalidLength body.length = false ∧ reader.bytes ++ bs = encode body ++ rest := by
  cases reader with
  | length got =>
      rcases take_length bs inside with ⟨hwait, -⟩ | ⟨digits, rest', hd, heq, htake⟩
      · rw [hwait] at h
        contradiction
      · rw [htake] at h
        split at h
        · contradiction
        · rename_i hvalid
          rw [Bool.not_eq_true] at hvalid
          obtain ⟨hsize, hrest⟩ := takeBody_frame (Nat.zero_le _) h
          rw [List.nil_append] at hrest
          refine ⟨hsize ▸ hvalid, ?_⟩
          rw [Reader.bytes, heq, hrest, encode, hsize, bigEndian_of_length hd,
            List.append_assoc]
  | body size got =>
      obtain ⟨hvalid, hlt⟩ := inside
      obtain ⟨hsize, hrest⟩ := takeBody_frame (Nat.le_of_lt hlt) h
      refine ⟨hsize ▸ hvalid, ?_⟩
      rw [Reader.bytes, List.append_assoc, hrest, encode, hsize, List.append_assoc]

theorem take_invalid {n : Nat} (inside : reader.IsPartial)
    (h : reader.take bs = .invalid n rest) :
    ∃ digits : Bytes, digits.length = lengthSize ∧ ofBigEndian digits = n ∧
      isInvalidLength n = true ∧ reader.bytes ++ bs = digits ++ rest := by
  cases reader with
  | length got =>
      rcases take_length bs inside with ⟨hwait, -⟩ | ⟨digits, rest', hd, heq, htake⟩
      · rw [hwait] at h
        contradiction
      · rw [htake] at h
        split at h
        · rename_i hinvalid
          cases h
          exact ⟨digits, hd, rfl, hinvalid, heq⟩
        · exact absurd h takeBody_ne_invalid
  | body size got => exact absurd h takeBody_ne_invalid

/-! ## A stream that has ended -/

theorem next_encode_append (valid : isInvalidLength body.length = false) :
    next (encode body ++ rest) = .frame body rest := by
  have hne : (encode body ++ rest).isEmpty = false := by
    simp [encode, bigEndian, lengthSize]
  have hlength : (encode body ++ rest).splitExact? lengthSize =
      some (bigEndian lengthSize body.length, body ++ rest) := by
    rw [Bytes.splitExact?_eq_some_iff]
    exact ⟨by rw [encode, List.append_assoc], length_bigEndian _ _⟩
  have hbody : (body ++ rest).splitExact? body.length = some (body, rest) := by
    rw [Bytes.splitExact?_eq_some_iff]
    exact ⟨rfl, rfl⟩
  simp [next, hne, hlength, ofBigEndian_length valid, valid, hbody]

theorem next_invalid {digits : Bytes} (h : digits.length = lengthSize)
    (invalid : isInvalidLength (ofBigEndian digits) = true) :
    next (digits ++ rest) = .invalid (ofBigEndian digits) rest := by
  have hne : (digits ++ rest).isEmpty = false := by
    cases digits with
    | nil => contradiction
    | cons b bs => rfl
  have hlength : (digits ++ rest).splitExact? lengthSize = some (digits, rest) := by
    rw [Bytes.splitExact?_eq_some_iff]
    exact ⟨rfl, h⟩
  simp [next, hne, hlength, invalid]

/-- What is read as a frame is one. -/
theorem eq_of_next_frame {stream : Bytes} (h : next stream = .frame body rest) :
    isInvalidLength body.length = false ∧ stream = encode body ++ rest := by
  unfold next at h
  split at h
  · contradiction
  · split at h
    · contradiction
    · rename_i digits after hdigits
      obtain ⟨rfl, hd⟩ := Bytes.splitExact?_eq_some_iff.1 hdigits
      dsimp only at h
      split at h
      · contradiction
      · rename_i hvalid
        rw [Bool.not_eq_true] at hvalid
        split at h
        · contradiction
        · rename_i found more hbody
          obtain ⟨rfl, hsize⟩ := Bytes.splitExact?_eq_some_iff.1 hbody
          cases h
          refine ⟨hsize ▸ hvalid, ?_⟩
          rw [encode, hsize, bigEndian_of_length hd, List.append_assoc]

/-- A stream that ends where a reader waits holds no further frame. -/
theorem next_partial (inside : reader.IsPartial) :
    next reader.bytes = if reader.isFresh then .closed else .torn := by
  cases reader with
  | length got =>
      cases got with
      | nil => rfl
      | cons b got =>
          have hsplit : Bytes.splitExact? lengthSize (b :: got) = none := by
            rw [Bytes.splitExact?_eq_none_iff]
            exact inside
          simp [next, Reader.bytes, hsplit, Reader.isFresh, Reader.start]
  | body size got =>
      obtain ⟨hvalid, hlt⟩ := inside
      have hne : (bigEndian lengthSize size ++ got).isEmpty = false := by
        simp [bigEndian, lengthSize]
      have hlength : (bigEndian lengthSize size ++ got).splitExact? lengthSize =
          some (bigEndian lengthSize size, got) := by
        rw [Bytes.splitExact?_eq_some_iff]
        exact ⟨rfl, length_bigEndian _ _⟩
      have hbody : got.splitExact? size = none := by
        rw [Bytes.splitExact?_eq_none_iff]
        exact hlt
      simp [next, Reader.bytes, hne, hlength, ofBigEndian_length hvalid, hvalid, hbody,
        Reader.isFresh, Reader.start]

end Frame

/-! ## Requests on a stream -/

namespace Request

/-- The requests at the beginning of a stream, up to the first frame that is none or holds
none, and what follows them. -/
def readAll (stream : Bytes) : List Request × Bytes :=
  match _h : Frame.next stream with
  | .frame body rest =>
      match decode body with
      | .ok r => (r :: (readAll rest).1, (readAll rest).2)
      | .error _ => ([], stream)
  | _ => ([], stream)
termination_by stream.length
decreasing_by all_goals exact Frame.length_lt_of_next ‹_›

/-- The bytes are the frames of bodies that hold these requests. -/
inductive Frames : List Request → Bytes → Prop
  | nil : Frames [] []
  | cons {body rest : Bytes} {r : Request} {rs : List Request} :
      Frame.isInvalidLength body.length = false → decode body = .ok r → Frames rs rest →
      Frames (r :: rs) (Frame.encode body ++ rest)

theorem Frames.append {rs rs' : List Request} {bs bs' : Bytes} (h : Frames rs bs)
    (h' : Frames rs' bs') : Frames (rs ++ rs') (bs ++ bs') := by
  induction h with
  | nil => exact h'
  | cons valid found _ ih =>
      rw [List.append_assoc]
      exact .cons valid found ih

theorem Frames.snoc {rs : List Request} {bs body : Bytes} {r : Request} (h : Frames rs bs)
    (valid : Frame.isInvalidLength body.length = false) (found : decode body = .ok r) :
    Frames (rs ++ [r]) (bs ++ Frame.encode body) := by
  have hlast : Frames [r] (Frame.encode body ++ []) := .cons valid found .nil
  rw [List.append_nil] at hlast
  exact h.append hlast

/-- Nothing is read where no frame with a request in it begins. -/
theorem readAll_of_not_frame {stream : Bytes}
    (h : ∀ body rest, Frame.next stream = .frame body rest → ∃ e, decode body = .error e) :
    readAll stream = ([], stream) := by
  rw [readAll]
  split
  · rename_i body rest hnext
    obtain ⟨e, he⟩ := h body rest hnext
    rw [he]
  · rfl

/-- Frames with requests are read one by one. -/
theorem Frames.readAll_append {rs : List Request} {bs : Bytes} (h : Frames rs bs)
    (rest : Bytes) : readAll (bs ++ rest) = (rs ++ (readAll rest).1, (readAll rest).2) := by
  -- Each frame is found again, whatever follows it.
  induction h with
  | nil => rfl
  | @cons body later r rs valid found _ ih =>
      rw [List.append_assoc, readAll]
      split
      · rename_i body' rest' hnext
        rw [Frame.next_encode_append valid] at hnext
        cases hnext
        rw [found]
        dsimp only
        rw [ih]
        rfl
      · rename_i hno
        exact absurd (Frame.next_encode_append valid) (hno _ _)

/-- What is read are frames with requests, and they are followed by what is left. -/
theorem frames_readAll (stream : Bytes) :
    ∃ bs, Frames (readAll stream).1 bs ∧ stream = bs ++ (readAll stream).2 := by
  fun_induction readAll stream with
  | case1 stream body rest hnext r found ih =>
      obtain ⟨valid, heq⟩ := Frame.eq_of_next_frame hnext
      obtain ⟨bs, hframes, hrest⟩ := ih
      refine ⟨Frame.encode body ++ bs, .cons valid found hframes, ?_⟩
      rw [List.append_assoc, ← hrest, heq]
  | case2 => exact ⟨[], .nil, rfl⟩
  | case3 => exact ⟨[], .nil, rfl⟩

/-- More bytes ask for more requests, never for other ones. -/
theorem readAll_prefix (stream more : Bytes) :
    (readAll stream).1 <+: (readAll (stream ++ more)).1 := by
  obtain ⟨bs, hframes, heq⟩ := frames_readAll stream
  have happend : stream ++ more = bs ++ ((readAll stream).2 ++ more) := by
    rw [← List.append_assoc, ← heq]
  rw [happend, hframes.readAll_append]
  exact List.prefix_append _ _

end Request

end SearchDaemon
