import SearchDaemon.Proofs.ResponseBodies

/-!
# The number of files

A response says how many files it lists, and room for so many is made at once. Before that, a
number that the bytes behind it cannot hold is refused. The refusal costs nothing: a reader that
goes on without it accepts the same bodies, and where the early refusal speaks it runs out of
bytes. And it is worth something: room is made only for as many files as some body of the same
length lists.
-/

namespace SearchDaemon

/-! ## Two readings of the same bytes -/

/-- A reading with the early refusal and one without it: they come to the same, unless the first
one says that the bytes cannot hold the list and the second one runs out of bytes in it. -/
inductive SameReading {α : Type} : Except DecodeError α → Except DecodeError α → Prop
  | same (result : Except DecodeError α) : SameReading result result
  | refused {field : Field} : field = .stringLength ∨ field = .stringData →
      SameReading (.error (.underflow .fileList)) (.error (.underflow field))

namespace SameReading

variable {α β : Type} {early plain : Except DecodeError α}

theorem eq_ok_iff (h : SameReading early plain) (a : α) : early = .ok a ↔ plain = .ok a := by
  cases h with
  | same => exact Iff.rfl
  | refused => exact iff_of_false nofun nofun

/-- What is read before is the same. -/
theorem after {first : Except DecodeError α} {next next' : α → Except DecodeError β}
    (h : ∀ a, SameReading (next a) (next' a)) : SameReading (first >>= next) (first >>= next') := by
  cases first with
  | error e => exact .same _
  | ok a => exact h a

/-- What is read behind is read in the same way. -/
theorem bind (h : SameReading early plain) (next : α → Except DecodeError β) :
    SameReading (early >>= next) (plain >>= next) := by
  cases h with
  | same => exact .same _
  | refused hfield => exact .refused hfield

theorem map (h : SameReading early plain) (f : α → β) :
    SameReading (f <$> early) (f <$> plain) := by
  cases h with
  | same => exact .same _
  | refused hfield => exact .refused hfield

end SameReading

namespace Decoder

variable {bs : Bytes} {e : DecodeError} {count : Nat}

theorem string_eq_error (h : string bs = .error e) :
    ∃ field, (field = .stringLength ∨ field = .stringData) ∧ e = .underflow field := by
  rcases bind_eq_error.mp h with hword | ⟨⟨length, rest⟩, -, hdata⟩
  · unfold word at hword
    split at hword
    · cases hword
      exact ⟨_, Or.inl rfl, rfl⟩
    · contradiction
  · dsimp only at hdata
    split at hdata
    · cases hdata
      exact ⟨_, Or.inr rfl, rfl⟩
    · contradiction

/-- Strings are read until the bytes run out. -/
theorem strings_eq_error (h : strings count bs = .error e) :
    ∃ field, (field = .stringLength ∨ field = .stringData) ∧ e = .underflow field := by
  induction count generalizing bs with
  | zero => contradiction
  | succ count ih =>
      rcases bind_eq_error.mp h with hfirst | ⟨⟨first, rest⟩, -, hothers⟩
      · exact string_eq_error hfirst
      · rcases bind_eq_error.mp hothers with hlater | ⟨pair, -, hnever⟩
        · exact ih hlater
        · contradiction

end Decoder

namespace Response

variable {body bs rest last : Bytes} {files : List Bytes} {count : Nat} {r : Response}

/-! ## Reading without the early refusal -/

/-- A response and its header, with the given reader for the files. -/
def decodeBodyWith (contentAts : Bytes → Except DecodeError (List Bytes × Bytes)) (body : Bytes) :
    Except DecodeError (Header × Response) := do
  let (header, payload) ← Header.decode body
  match header.type with
  | .response => do
      let response ← decodePayload contentAts header.id payload
      return (header, response)
  | other => .error (.notResponse other.toByte)

/-- The response a body holds, with the given reader for the files. -/
def decodeWith (contentAts : Bytes → Except DecodeError (List Bytes × Bytes)) (body : Bytes) :
    Except DecodeError Response :=
  if body.isEmpty then .error .empty else Prod.snd <$> decodeBodyWith contentAts body

theorem decodeWith_decodeFiles (body : Bytes) : decodeWith decodeFiles body = decode body := rfl

/-- The response a body holds, its files read one after the other whatever their number. -/
def decodePlainly (body : Bytes) : Except DecodeError Response :=
  decodeWith decodeFilesPlainly body

/-- Where the early refusal speaks, the strings do not all stand there. -/
theorem sameReading_files (bs : Bytes) : SameReading (decodeFiles bs) (decodeFilesPlainly bs) := by
  apply SameReading.after
  rintro ⟨count, rest⟩
  dsimp only
  split
  · rename_i hfew
    cases hstrings : Decoder.strings count rest with
    | error e =>
        obtain ⟨field, hfield, rfl⟩ := Decoder.strings_eq_error hstrings
        exact .refused hfield
    | ok found =>
        obtain ⟨files, last⟩ := found
        obtain ⟨rfl, -, rfl⟩ := Decoder.strings_eq_ok.1 hstrings
        have hle := length_le_total files
        rw [List.length_append, length_flatMap_lengthPrefixed] at hfew
        omega
  · exact .same _

theorem sameReading_payload (id : UInt64) (payload : Bytes) :
    SameReading (decodePayload decodeFiles id payload)
      (decodePayload decodeFilesPlainly id payload) := by
  have hparams (kind : UInt8) (bs : Bytes) :
      SameReading (decodeParams decodeFiles kind bs) (decodeParams decodeFilesPlainly kind bs) := by
    unfold decodeParams
    split
    · exact .same _
    · split
      · exact sameReading_files bs
      · exact .same _
  rw [decodePayload_eq, decodePayload_eq]
  apply SameReading.after
  intro status
  split
  · exact .same _
  · refine .after fun kind => .after fun error => ?_
    exact (hparams kind.1 error.2).bind _

theorem sameReading_decode (body : Bytes) : SameReading (decode body) (decodePlainly body) := by
  have hbody : SameReading (decodeBodyWith decodeFiles body)
      (decodeBodyWith decodeFilesPlainly body) := by
    apply SameReading.after
    rintro ⟨⟨type, id, payloadSize⟩, payload⟩
    cases type with
    | response => exact (sameReading_payload id payload).bind _
    | create | find | other => exact .same _
  rw [← decodeWith_decodeFiles, decodePlainly, decodeWith, decodeWith]
  split
  · exact .same _
  · exact hbody.map _

/-! ## The list in the making -/

/-- A body announces so many files, and these bytes stand behind their number: a header, the
status, the kind of a list, the error text and the number have been read. -/
def Announces (body : Bytes) (count : Nat) (rest : Bytes) : Prop :=
  ∃ header status error, header.type = .response ∧ ¬status > 1 ∧ error.length < 2 ^ 32 ∧
    count < 2 ^ 32 ∧
      Header.decode body =
        .ok (header, status :: fileList :: (lengthPrefixed error ++ (bigEndian 4 count ++ rest)))

/-- What the list holds, and the bytes still to be read, while it is filled with the files
announced. -/
inductive Filled (count : Nat) (rest : Bytes) : List Bytes → Bytes → Prop
  | none : Filled count rest [] rest
  | more {files : List Bytes} {last last' file : Bytes} : Filled count rest files last →
      files.length < count → Decoder.string last = .ok (file, last') →
      Filled count rest (files ++ [file]) last'

/-- The list never holds more than was announced, nor more than its bytes. -/
theorem Filled.bounded (h : Filled count rest files last) :
    files.length ≤ count ∧ rest = files.flatMap lengthPrefixed ++ last := by
  induction h with
  | none => exact ⟨Nat.zero_le count, rfl⟩
  | more _ hroom hstring ih =>
      obtain ⟨-, hrest⟩ := ih
      obtain ⟨-, rfl⟩ := Decoder.string_eq_ok.1 hstring
      refine ⟨?_, ?_⟩
      · rw [List.length_append, List.length_singleton]
        exact hroom
      · rw [hrest, List.flatMap_append, List.flatMap_singleton, List.append_assoc]

theorem Filled.four_mul_length_le (h : Filled count rest files last) :
    4 * files.length + last.length ≤ rest.length := by
  have hle := length_le_total files
  rw [h.bounded.2, List.length_append, length_flatMap_lengthPrefixed]
  omega

/-- Reading some strings fills the list with them. -/
theorem Filled.strings {k : Nat} {more : List Bytes} {end' : Bytes}
    (h : Filled count rest files last) (room : files.length + k ≤ count)
    (read : Decoder.strings k last = .ok (more, end')) :
    Filled count rest (files ++ more) end' := by
  induction k generalizing files last more with
  | zero =>
      cases read
      rwa [List.append_nil]
  | succ k ih =>
      obtain ⟨⟨first, after⟩, hfirst, hothers⟩ := bind_eq_ok.mp read
      obtain ⟨⟨others, end''⟩, hlater, hdone⟩ := bind_eq_ok.mp hothers
      cases hdone
      have hone := h.more (by omega) hfirst
      have hall := ih hone (by simp; omega) hlater
      rwa [List.append_assoc, List.singleton_append] at hall

/-! ## Bodies that announce files -/

/-- Behind the number of files nothing but the files is read. -/
theorem decode_announced (h : Announces body count rest) :
    ∃ id success error, decode body =
      ((if rest.length / 4 < count then .error (.underflow .fileList)
        else Decoder.strings count rest) >>= fun files =>
          if files.2.isEmpty then
            .ok { requestId := id, success, error, kind := fileList, files := files.1 }
          else .error .trailingAfterResponse) := by
  obtain ⟨⟨type, id, payloadSize⟩, status, error, htype, hvalid, hshort, hfew, hheader⟩ := h
  subst htype
  have hstring : Decoder.string (lengthPrefixed error ++ (bigEndian 4 count ++ rest)) =
      .ok (error, bigEndian 4 count ++ rest) := Decoder.string_eq_ok.2 ⟨hshort, rfl⟩
  have hcount : Decoder.word .fileCount (bigEndian 4 count ++ rest) = .ok (count, rest) :=
    Decoder.word_eq_ok.2 ⟨hfew, rfl⟩
  have hkinds : fileList ≠ plain := by decide
  have hsome : body.isEmpty = false := by
    cases body with
    | nil => contradiction
    | cons => rfl
  have hdecode : decode body = decodePayload decodeFiles id
      (status :: fileList :: (lengthPrefixed error ++ (bigEndian 4 count ++ rest))) := by
    rw [decode, hsome, if_neg Bool.false_ne_true, decodeBody, hheader, ok_bind]
    dsimp only
    cases decodePayload decodeFiles id _ <;> rfl
  refine ⟨id, status = 0, error, ?_⟩
  rw [hdecode, decodePayload_eq, Decoder.byte, ok_bind]
  dsimp only
  rw [if_neg hvalid, Decoder.byte, ok_bind, hstring, ok_bind]
  dsimp only
  rw [decodeParams, if_neg hkinds, if_pos rfl, decodeFiles, hcount, ok_bind]

/-- A list that is read has been filled with the files announced. -/
theorem filled_of_decode (h : Announces body count rest) (read : decode body = .ok r) :
    Filled count rest r.files [] ∧ r.files.length = count := by
  obtain ⟨id, success, error, hdecode⟩ := decode_announced h
  obtain ⟨⟨files, last⟩, hfiles, hend⟩ := bind_eq_ok.mp (hdecode.symm.trans read)
  obtain ⟨rfl, rfl⟩ := atEnd_eq_ok.1 hend
  split at hfiles
  · contradiction
  · have hlength := (Decoder.strings_eq_ok.1 hfiles).1
    have hfilled := Filled.none.strings (Nat.le_of_eq (Nat.zero_add count)) hfiles
    exact ⟨hfilled, hlength⟩

theorem total_replicate (k n : Nat) : total (List.replicate k n) = k * n := by
  induction k with
  | zero => rw [List.replicate_zero, total_nil, Nat.zero_mul]
  | succ k ih => rw [List.replicate_succ, total_cons, ih, Nat.succ_mul, Nat.add_comm]

/-- A list of empty names, behind an error text of the given length. -/
def emptyNames (padding count : Nat) : Response where
  error := List.replicate padding 0
  kind := fileList
  files := List.replicate count []

theorem size_emptyNames (padding count : Nat) :
    (emptyNames padding count).size = 10 + padding + 4 * count := by
  have htotal : total ((List.replicate count []).map fun file : Bytes => 4 + file.length) =
      count * 4 := by
    rw [List.map_replicate, total_replicate, List.length_nil]
  rw [size, emptyNames]
  dsimp only
  rw [if_pos rfl, htotal, List.length_replicate]
  omega

/-- As many files as a quarter of the bytes left could be listed in a body of the same length,
behind a longer error text. -/
theorem exists_of_four_mul_le (h : Announces body count rest) (enough : 4 * count ≤ rest.length) :
    ∃ other : Response, other.files.length = count ∧ other.encode.length = body.length ∧
      decode other.encode = .ok other := by
  obtain ⟨header, status, error, -, -, -, -, hheader⟩ := h
  obtain ⟨-, hsize, rfl⟩ := Header.decode_eq_ok.1 hheader
  have hlt := header.payloadSize.toNat_lt
  have hpayload : (status :: fileList ::
      (lengthPrefixed error ++ (bigEndian 4 count ++ rest))).length =
        10 + error.length + rest.length := by
    simp only [List.length_cons, List.length_append, lengthPrefixed, length_bigEndian]
    omega
  have hother : (emptyNames (error.length + (rest.length - 4 * count)) count).size =
      10 + error.length + rest.length := by
    rw [size_emptyNames]
    omega
  rw [hsize, hpayload, ← hother] at hlt
  refine ⟨emptyNames (error.length + (rest.length - 4 * count)) count, List.length_replicate, ?_,
    decode_eq_ok.2 ⟨Or.inr rfl, hlt, rfl⟩⟩
  rw [encode, length_withHeader, length_payload, hother, List.length_append,
    Header.length_encode, hpayload]

/-- **The check of the number of files is free.** With it and without it the same bodies are
read, as the same responses; where it refuses a body, the reader without it runs out of bytes in
the list. Where a number passes it, the list is filled with at most so many files, each taking
four bytes or more of those behind the number, and some response of the same length lists exactly
so many. -/
theorem count_check_is_free (body : Bytes) :
    SameReading (decode body) (decodePlainly body) ∧
    (∀ r, decode body = .ok r ↔ decodePlainly body = .ok r) ∧
    ∀ count rest, Announces body count rest →
      if rest.length / 4 < count then decode body = .error (.underflow .fileList)
      else
        4 * count ≤ rest.length ∧
        (∃ other : Response, other.files.length = count ∧ other.encode.length = body.length ∧
          decode other.encode = .ok other) ∧
        (∀ files last, Filled count rest files last →
          files.length ≤ count ∧ 4 * files.length + last.length ≤ rest.length) ∧
        ∀ r, decode body = .ok r → Filled count rest r.files [] ∧ r.files.length = count := by
  have hreading := sameReading_decode body
  refine ⟨hreading, hreading.eq_ok_iff, ?_⟩
  intro count rest announces
  split
  · rename_i htoo
    obtain ⟨id, success, error, hdecode⟩ := decode_announced announces
    rw [hdecode, if_pos htoo]
    rfl
  · rename_i henough
    have hquarter : 4 * count ≤ rest.length := by omega
    refine ⟨hquarter, exists_of_four_mul_le announces hquarter, ?_, ?_⟩
    · exact fun files last filled => ⟨filled.bounded.1, filled.four_mul_length_le⟩
    · exact fun r => filled_of_decode announces

/-- Two empty names in eight bytes: the largest number that passes the check. -/
theorem count_check_is_free_two_empty_names :
    Announces (emptyNames 0 2).encode 2 [0, 0, 0, 0, 0, 0, 0, 0] ∧
      decodePlainly (emptyNames 0 2).encode = .ok (emptyNames 0 2) ∧
      Filled 2 [0, 0, 0, 0, 0, 0, 0, 0] [[], []] [] := by
  have hannounces : Announces (emptyNames 0 2).encode 2 [0, 0, 0, 0, 0, 0, 0, 0] :=
    ⟨{ type := .response, payloadSize := 18 }, 0, [], rfl, by decide, by decide, by decide, by
      decide⟩
  have hread : decode (emptyNames 0 2).encode = .ok (emptyNames 0 2) := by decide
  obtain ⟨-, hsame, hlist⟩ := count_check_is_free (emptyNames 0 2).encode
  have hpassed := hlist 2 _ hannounces
  rw [if_neg (by decide)] at hpassed
  exact ⟨hannounces, (hsame _).mp hread, (hpassed.2.2.2 _ hread).1⟩

end Response

end SearchDaemon
