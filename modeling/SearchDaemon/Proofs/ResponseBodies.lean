import SearchDaemon.Proofs.Fields
import SearchDaemon.Total

/-!
# Bodies of responses

A response is read from exactly the body it is written as, if it is canonical and its payload
fits the header. A response may say more than its kind can carry: the files of a plain one are
not written, and a body of an unknown kind is written but never read.
-/

namespace SearchDaemon

namespace Response

variable {body payload bs rest : Bytes} {files : List Bytes} {id : UInt64} {header : Header}
  {r : Response}

/-! ## The list of files -/

theorem length_flatMap_lengthPrefixed (files : List Bytes) :
    (files.flatMap lengthPrefixed).length = total (files.map fun file => 4 + file.length) := by
  induction files with
  | nil => rfl
  | cons file files ih =>
      rw [List.flatMap_cons, List.length_append, ih, List.map_cons, total_cons, lengthPrefixed,
        List.length_append, length_bigEndian]

theorem length_encodeFiles (files : List Bytes) :
    (encodeFiles files).length = 4 + total (files.map fun file => 4 + file.length) := by
  rw [encodeFiles, List.length_append, length_bigEndian, length_flatMap_lengthPrefixed]

/-- Every entry takes at least its four length bytes. -/
theorem length_le_total (files : List Bytes) :
    4 * files.length ≤ total (files.map fun file => 4 + file.length) := by
  induction files with
  | nil => exact Nat.le_refl 0
  | cons file files ih =>
      rw [List.length_cons, List.map_cons, total_cons]
      omega

theorem length_file_le_total {file : Bytes} (h : file ∈ files) :
    file.length ≤ total (files.map fun file => 4 + file.length) := by
  induction files with
  | nil => contradiction
  | cons first files ih =>
      rw [List.map_cons, total_cons]
      rcases List.mem_cons.mp h with rfl | h
      · omega
      · have := ih h
        omega

theorem decodeFilesPlainly_eq_ok :
    decodeFilesPlainly bs = .ok (files, rest) ↔
      files.length < 2 ^ 32 ∧ (∀ file ∈ files, file.length < 2 ^ 32) ∧
        bs = encodeFiles files ++ rest := by
  rw [decodeFilesPlainly, bind_eq_ok]
  constructor
  · rintro ⟨⟨count, after⟩, hcount, h⟩
    obtain ⟨hlt, rfl⟩ := Decoder.word_eq_ok.1 hcount
    obtain ⟨rfl, hall, rfl⟩ := Decoder.strings_eq_ok.1 h
    exact ⟨hlt, hall, by rw [encodeFiles, List.append_assoc]⟩
  · rintro ⟨hlt, hall, rfl⟩
    refine ⟨(files.length, files.flatMap lengthPrefixed ++ rest), ?_, ?_⟩
    · rw [Decoder.word_eq_ok, encodeFiles, List.append_assoc]
      exact ⟨hlt, rfl⟩
    · exact Decoder.strings_eq_ok.2 ⟨rfl, hall, rfl⟩

/-- The early refusal costs nothing: no list that would be read has a count so large. -/
theorem decodeFiles_eq_ok_iff_plainly :
    decodeFiles bs = .ok (files, rest) ↔ decodeFilesPlainly bs = .ok (files, rest) := by
  rw [decodeFiles, decodeFilesPlainly, bind_eq_ok, bind_eq_ok]
  apply exists_congr
  rintro ⟨count, after⟩
  apply and_congr_right
  intro _
  dsimp only
  split
  · rename_i hfew
    -- The count is beyond a quarter of the bytes, so they cannot hold so many entries.
    have hnone : Decoder.strings count after ≠ .ok (files, rest) := by
      intro h
      obtain ⟨rfl, -, rfl⟩ := Decoder.strings_eq_ok.1 h
      have hle := length_le_total files
      rw [List.length_append, length_flatMap_lengthPrefixed] at hfew
      omega
    exact ⟨nofun, fun h => absurd h hnone⟩
  · exact Iff.rfl

theorem decodeFiles_eq_ok :
    decodeFiles bs = .ok (files, rest) ↔
      files.length < 2 ^ 32 ∧ (∀ file ∈ files, file.length < 2 ^ 32) ∧
        bs = encodeFiles files ++ rest := by
  rw [decodeFiles_eq_ok_iff_plainly, decodeFilesPlainly_eq_ok]

/-! ## Payloads -/

/-- The number of bytes in the payload of a response. -/
def size (r : Response) : Nat :=
  6 + r.error.length +
    if r.kind = fileList then 4 + total (r.files.map fun file => 4 + file.length) else 0

/-- Four bytes are enough for every length and for the number of files. -/
def Fits (r : Response) : Prop :=
  r.error.length < 2 ^ 32 ∧
    (r.kind = fileList → r.files.length < 2 ^ 32 ∧ ∀ file ∈ r.files, file.length < 2 ^ 32)

theorem length_payload (r : Response) : r.payload.length = r.size := by
  rw [payload, size]
  by_cases hkind : r.kind = fileList
  · simp only [if_pos hkind, List.length_cons, List.length_append, lengthPrefixed,
      length_bigEndian, length_encodeFiles]
    omega
  · simp only [if_neg hkind, List.length_cons, List.length_append, lengthPrefixed,
      length_bigEndian, List.length_nil]
    omega

theorem fits_of_size (h : r.size < 2 ^ 32) : r.Fits := by
  rw [size] at h
  refine ⟨by omega, ?_⟩
  intro hkind
  rw [if_pos hkind] at h
  have hle := length_le_total r.files
  refine ⟨by omega, ?_⟩
  intro file hfile
  have := length_file_le_total hfile
  omega

/-- What a payload says about files, by its kind, and what follows it. -/
def decodeParams (contentAts : Bytes → Except DecodeError (List Bytes × Bytes)) (kind : UInt8)
    (bs : Bytes) : Except DecodeError (List Bytes × Bytes) :=
  if kind = plain then .ok ([], bs)
  else if kind = fileList then contentAts bs
  else .error (.unknownKind kind)

theorem decodePayload_eq
    (contentAts : Bytes → Except DecodeError (List Bytes × Bytes)) (id : UInt64)
    (payload : Bytes) :
    decodePayload contentAts id payload =
      (Decoder.byte .status payload >>= fun status =>
        if status.1 > 1 then .error (.invalidStatus status.1)
        else
          Decoder.byte .paramsKind status.2 >>= fun kind =>
          Decoder.string kind.2 >>= fun error =>
          decodeParams contentAts kind.1 error.2 >>= fun files =>
            if files.2.isEmpty then
              .ok
                { requestId := id
                  success := status.1 = 0
                  error := error.1
                  kind := kind.1
                  files := files.1 }
            else .error .trailingAfterResponse) := by
  unfold decodePayload
  congr 1
  funext ⟨status, rest⟩
  dsimp only
  split
  · rfl
  · congr 1
    funext ⟨kind, rest⟩
    congr 1
    funext ⟨error, rest⟩
    unfold decodeParams
    dsimp only
    split
    · rfl
    · split <;> rfl

theorem decodeParams_eq_ok {kind : UInt8} :
    decodeParams decodeFiles kind bs = .ok (files, rest) ↔
      (kind = plain ∧ files = [] ∧ bs = rest) ∨
        (kind = fileList ∧ files.length < 2 ^ 32 ∧ (∀ file ∈ files, file.length < 2 ^ 32) ∧
          bs = encodeFiles files ++ rest) := by
  have hkinds : plain ≠ fileList := by decide
  unfold decodeParams
  split
  · rename_i hplain
    subst hplain
    simp [hkinds, eq_comm]
  · rename_i hplain
    split
    · rename_i hfiles
      rw [decodeFiles_eq_ok]
      simp [hkinds.symm, hfiles]
    · rename_i hfiles
      simp [hplain, hfiles]

/-- The byte that says whether a response is a success. -/
theorem status_eq {status : UInt8} (h : ¬status > 1) :
    (if decide (status = 0) = true then 0 else 1) = status := by
  have hle : status.toNat ≤ 1 := by
    simpa [UInt8.lt_iff_toNat_lt] using h
  have hsmall : status.toNat = 0 ∨ status.toNat = 1 := by omega
  rcases hsmall with h | h
  · rw [UInt8.toNat_inj.mp (show status.toNat = (0 : UInt8).toNat from h)]
    rfl
  · rw [UInt8.toNat_inj.mp (show status.toNat = (1 : UInt8).toNat from h)]
    rfl

theorem status_le (success : Bool) : ¬(if success = true then (0 : UInt8) else 1) > 1 := by
  cases success <;> decide

theorem success_eq (success : Bool) :
    decide ((if success = true then (0 : UInt8) else 1) = 0) = success := by
  cases success <;> rfl

/-- A payload is read to its end as the canonical response that it is written for. -/
theorem decodePayload_eq_ok :
    decodePayload decodeFiles id payload = .ok r ↔
      r.requestId = id ∧ r.IsCanonical ∧ r.Fits ∧ payload = r.payload := by
  rw [decodePayload_eq, bind_eq_ok]
  constructor
  · rintro ⟨⟨status, rest⟩, hstatus, h⟩
    obtain rfl := Decoder.byte_eq_ok.1 hstatus
    dsimp only at h
    split at h
    · cases h
    · rename_i hvalid
      obtain ⟨⟨kind, rest⟩, hkind, h⟩ := bind_eq_ok.1 h
      obtain ⟨⟨error, rest⟩, herror, h⟩ := bind_eq_ok.1 h
      obtain ⟨⟨files, rest⟩, hfiles, h⟩ := bind_eq_ok.1 h
      obtain ⟨rfl, rfl⟩ := atEnd_eq_ok.1 h
      obtain rfl := Decoder.byte_eq_ok.1 hkind
      obtain ⟨hlt, rfl⟩ := Decoder.string_eq_ok.1 herror
      have hbyte := status_eq hvalid
      rcases decodeParams_eq_ok.1 hfiles with ⟨rfl, rfl, rfl⟩ | ⟨rfl, hcount, hall, rfl⟩
      · refine ⟨rfl, Or.inl ⟨rfl, rfl⟩, ⟨hlt, nofun⟩, ?_⟩
        simp only [Response.payload, hbyte]
        rfl
      · refine ⟨rfl, Or.inr rfl, ⟨hlt, fun _ => ⟨hcount, hall⟩⟩, ?_⟩
        simp only [Response.payload, hbyte, if_true, List.append_nil]
  · rintro ⟨rfl, hcanonical, ⟨hlt, hcounts⟩, rfl⟩
    obtain ⟨id, success, error, kind, files⟩ := r
    refine ⟨(_, _), Decoder.byte_eq_ok.2 rfl, ?_⟩
    dsimp only
    rw [if_neg (status_le success), success_eq]
    have hparams : decodeParams decodeFiles kind
        (if kind = fileList then encodeFiles files else []) = .ok (files, []) := by
      rw [decodeParams_eq_ok]
      rcases hcanonical with ⟨rfl, rfl⟩ | rfl
      · exact Or.inl ⟨rfl, rfl, rfl⟩
      · exact Or.inr ⟨rfl, (hcounts rfl).1, (hcounts rfl).2, by rw [if_pos rfl, List.append_nil]⟩
    refine bind_eq_ok.2 ⟨(_, _), Decoder.byte_eq_ok.2 rfl, ?_⟩
    refine bind_eq_ok.2 ⟨(_, _), Decoder.string_eq_ok.2 ⟨hlt, rfl⟩, ?_⟩
    exact bind_eq_ok.2 ⟨_, hparams, rfl⟩

/-! ## Bodies -/

theorem decodeBody_eq_ok :
    decodeBody body = .ok (header, r) ↔
      header = { type := .response, id := r.requestId, payloadSize := .ofNat r.size } ∧
        r.IsCanonical ∧ r.size < 2 ^ 32 ∧ body = r.encode := by
  constructor
  · intro h
    obtain ⟨⟨⟨type, id, payloadSize⟩, payload⟩, hheader, hread⟩ := bind_eq_ok.1 h
    obtain ⟨-, hsize, rfl⟩ := Header.decode_eq_ok.1 hheader
    dsimp only at hread hsize
    split at hread
    · obtain ⟨found, hfound, h⟩ := bind_eq_ok.1 hread
      cases h
      obtain ⟨rfl, hcanonical, -, rfl⟩ := decodePayload_eq_ok.1 hfound
      have hlt := payloadSize.toNat_lt
      rw [hsize, length_payload] at hlt
      -- The size in the header is the one that would be written.
      have hsame : payloadSize = .ofNat r.size := by
        rw [← length_payload, ← hsize, UInt32.ofNat_toNat]
      refine ⟨by rw [hsame], hcanonical, hlt, ?_⟩
      rw [encode, withHeader, length_payload, ← hsame]
    · cases hread
  · rintro ⟨rfl, hcanonical, hlt, rfl⟩
    refine bind_eq_ok.2 ⟨(⟨.response, r.requestId, .ofNat r.size⟩, r.payload), ?_, ?_⟩
    · rw [encode, decode_withHeader MessageType.isNamed_response, length_payload, if_pos hlt]
    · exact bind_eq_ok.2
        ⟨r, decodePayload_eq_ok.2 ⟨rfl, hcanonical, fits_of_size hlt, rfl⟩, rfl⟩

/-- **A response is read from exactly the body that it is written as**, if it is canonical. -/
theorem decode_eq_ok :
    decode body = .ok r ↔ r.IsCanonical ∧ r.size < 2 ^ 32 ∧ body = r.encode := by
  rw [decode, unlessEmpty_eq_ok]
  constructor
  · rintro ⟨-, header, h⟩
    exact (decodeBody_eq_ok.1 h).2
  · rintro ⟨hcanonical, hlt, rfl⟩
    exact ⟨withHeader_ne_nil _ _ _, _, decodeBody_eq_ok.2 ⟨rfl, hcanonical, hlt, rfl⟩⟩

/-! ## What is written -/

/-- A response too long for its header is refused by the check of sizes. -/
theorem decode_encode_of_large (h : ¬r.size < 2 ^ 32) :
    decode r.encode = .error (.sizeMismatch (r.size % 2 ^ 32) r.size) := by
  have hbody : decodeBody r.encode = .error (.sizeMismatch (r.size % 2 ^ 32) r.size) := by
    rw [decodeBody, encode, decode_withHeader MessageType.isNamed_response, length_payload,
      if_neg h]
    rfl
  exact unlessEmpty_eq_error (withHeader_ne_nil _ _ _) hbody

/-- Of a plain response the files are not written. -/
theorem encode_without_files (h : r.kind = plain) : r.encode = { r with files := [] }.encode := by
  have hkind : r.kind ≠ fileList := by
    rw [h]
    decide
  rw [encode, encode, payload, payload, if_neg hkind, if_neg hkind]

theorem size_without_files (h : r.kind = plain) : r.size = { r with files := [] }.size := by
  have hkind : r.kind ≠ fileList := by
    rw [h]
    decide
  rw [size, size, if_neg hkind, if_neg hkind]

/-- A response of an unknown kind is refused once its error text has been read. -/
theorem decode_encode_of_unknown (hlt : r.size < 2 ^ 32) (hplain : r.kind ≠ plain)
    (hfiles : r.kind ≠ fileList) : decode r.encode = .error (.unknownKind r.kind) := by
  have hparams (bs : Bytes) :
      decodeParams decodeFiles r.kind bs = .error (.unknownKind r.kind) := by
    rw [decodeParams, if_neg hplain, if_neg hfiles]
  have hstring : Decoder.string (lengthPrefixed r.error ++ []) = .ok (r.error, []) :=
    Decoder.string_eq_ok.2 ⟨(fits_of_size hlt).1, rfl⟩
  have hpayload : decodePayload decodeFiles r.requestId r.payload =
      .error (.unknownKind r.kind) := by
    rw [decodePayload_eq, payload, if_neg hfiles, Decoder.byte, ok_bind]
    dsimp only
    rw [if_neg (status_le r.success), Decoder.byte, ok_bind, hstring, ok_bind, hparams]
    rfl
  have hbody : decodeBody r.encode = .error (.unknownKind r.kind) := by
    rw [decodeBody, encode, decode_withHeader MessageType.isNamed_response, length_payload,
      if_pos hlt, ok_bind]
    dsimp only
    rw [hpayload]
    rfl
  exact unlessEmpty_eq_error (withHeader_ne_nil _ _ _) hbody

/-- **A response reads back from its body if its kind can carry it, and from no other body.**
What is written for a response is read as that response if it lists files, as the response
without its files if it is plain, and refused if it is of any other kind or if its payload does
not fit 2^32 bytes. Whatever body is read as a response is the one written for it, and that
response is canonical. -/
theorem read_back_if_kind_carries (r : Response) :
    (Message.ofResponse r).encode.length = Header.size + r.size ∧
    decode (Message.ofResponse r).encode =
      (if r.size < 2 ^ 32 then
        if r.kind = fileList then .ok r
        else if r.kind = plain then .ok { r with files := [] }
        else .error (.unknownKind r.kind)
      else .error (.sizeMismatch (r.size % 2 ^ 32) r.size)) ∧
    ∀ body, decode body = .ok r ↔
      r.IsCanonical ∧ r.size < 2 ^ 32 ∧ (Message.ofResponse r).encode = body := by
  have hencode : (Message.ofResponse r).encode = r.encode := rfl
  rw [hencode]
  refine ⟨?_, ?_, ?_⟩
  · rw [encode, length_withHeader, length_payload]
  · split
    · rename_i hlt
      split
      · rename_i hfiles
        exact decode_eq_ok.2 ⟨Or.inr hfiles, hlt, rfl⟩
      · rename_i hfiles
        split
        · rename_i hplain
          rw [size_without_files hplain] at hlt
          exact decode_eq_ok.2 ⟨Or.inl ⟨hplain, rfl⟩, hlt, encode_without_files hplain⟩
        · rename_i hplain
          exact decode_encode_of_unknown hlt hplain hfiles
    · rename_i hlarge
      exact decode_encode_of_large hlarge
  · intro body
    rw [decode_eq_ok, eq_comm (a := body)]

end Response

end SearchDaemon
