import Mathlib.Data.List.Basic
import SearchDaemon.Frame.Receiving
import SearchDaemon.Proofs.Reading
import SearchDaemon.Proofs.Run

/-!
# Frames from one socket to another

A sender writes bodies as frames, their bytes arrive in pieces of any size, and a receiver
asks for one frame after the other. `outcome` says from the bytes alone what one attempt to
receive comes to on a stream that has ended; a `Reception` is the receiver at work, which
sees a part of the stream and has to wait for the next one. Along every run the two agree,
and so the bodies come out as they were sent.
-/

namespace SearchDaemon.Frame

/-! ## What a stream that has ended comes to -/

/-- What an attempt to receive a frame comes to on a stream that has ended, and the bytes
it uses. -/
def outcome (stream : Bytes) : Receipt × Bytes :=
  if stream = [] then (.closed, [])
  else if stream.length < lengthSize then (.ioError, stream)
  else
    let size := ofBigEndian (stream.take lengthSize)
    if size = 0 ∨ limit < size then (.invalid size, stream.take lengthSize)
    else if stream.length < lengthSize + size then (.ioError, stream)
    else (.frame ((stream.drop lengthSize).take size), stream.take (lengthSize + size))

/-- What a number of attempts come to, each on the bytes the one before has left. -/
def outcomes : Nat → Bytes → List (Receipt × Bytes)
  | 0, _ => []
  | k + 1, stream => outcome stream :: outcomes k (stream.drop (outcome stream).2.length)

namespace Receipt

def body? : Receipt → Option Bytes
  | .frame body => some body
  | _ => none

/-- Bytes that arrive later make no difference. -/
def isWhole : Receipt → Bool
  | .frame _ | .invalid _ => true
  | _ => false

end Receipt

/-- The bodies received, in order. -/
def okBodies (receipts : List (Receipt × Bytes)) : List Bytes :=
  receipts.filterMap fun r => r.1.body?

/-- The bytes that the attempts used which received a body. -/
def okBytes (receipts : List (Receipt × Bytes)) : Bytes :=
  (receipts.filter fun r => r.1.status = .ok).flatMap Prod.snd

theorem isInvalidLength_iff {n : Nat} : isInvalidLength n = true ↔ n = 0 ∨ limit < n := by
  simp [isInvalidLength]

theorem isInvalidLength_eq_false_iff {n : Nat} :
    isInvalidLength n = false ↔ 1 ≤ n ∧ n ≤ limit := by
  rw [Bool.eq_false_iff, Ne, isInvalidLength_iff]
  omega

theorem outcome_short {stream : Bytes} (hne : stream ≠ []) (short : stream.length < lengthSize) :
    outcome stream = (.ioError, stream) := by
  rw [outcome, if_neg hne, if_pos short]

/-- Eight bytes decide how a stream is read on. -/
theorem outcome_digits {digits : Bytes} (hd : digits.length = lengthSize) (rest : Bytes) :
    outcome (digits ++ rest) =
      if isInvalidLength (ofBigEndian digits) then (.invalid (ofBigEndian digits), digits)
      else if rest.length < ofBigEndian digits then (.ioError, digits ++ rest)
      else (.frame (rest.take (ofBigEndian digits)),
        digits ++ rest.take (ofBigEndian digits)) := by
  have hne : digits ++ rest ≠ [] := by
    intro h
    rw [(List.append_eq_nil_iff.1 h).1] at hd
    contradiction
  have hlong : ¬ (digits ++ rest).length < lengthSize := by
    rw [List.length_append]
    omega
  have hall (n : Nat) : (digits ++ rest).take (lengthSize + n) = digits ++ rest.take n := by
    rw [← hd, List.take_length_add_append]
  rw [outcome, if_neg hne, if_neg hlong]
  simp only [List.take_left' hd, List.drop_left' hd, hall, isInvalidLength_iff,
    List.length_append, hd, Nat.add_lt_add_iff_left]

variable {stream body rest more : Bytes} {k : Nat}

/-- A frame is received whatever follows it. -/
theorem outcome_encode_append (valid : isInvalidLength body.length = false) (rest : Bytes) :
    outcome (encode body ++ rest) = (.frame body, encode body) := by
  have hsize := ofBigEndian_length valid
  rw [encode, List.append_assoc, outcome_digits (length_bigEndian _ _), hsize, valid]
  simp

/-- A stream that ends where a reader waits ends between frames or inside one. -/
theorem outcome_partial {reader : Reader} (inside : reader.IsPartial) :
    outcome reader.bytes = (if reader.isFresh then .closed else .ioError, reader.bytes) := by
  cases reader with
  | length got =>
      cases got with
      | nil => rfl
      | cons b got => exact outcome_short (List.cons_ne_nil b got) inside
  | body size got =>
      obtain ⟨valid, hlt⟩ := inside
      rw [Reader.bytes, outcome_digits (length_bigEndian _ _), ofBigEndian_length valid, valid,
        if_neg Bool.false_ne_true, if_pos hlt]
      rfl

/-- Only a stream that has a length in it comes to more than its end. -/
theorem digits_of_whole (whole : (outcome stream).1.isWhole = true) :
    ∃ digits rest, stream = digits ++ rest ∧ digits.length = lengthSize := by
  have hlong : lengthSize ≤ stream.length := by
    by_contra hshort
    by_cases hne : stream = []
    · subst hne
      contradiction
    · rw [outcome_short hne (Nat.lt_of_not_le hshort)] at whole
      contradiction
  refine ⟨stream.take lengthSize, stream.drop lengthSize, ?_, ?_⟩
  · rw [List.take_append_drop]
  · rw [List.length_take]
    omega

/-- What a stream comes to is found again in a longer one, unless it was the end. -/
theorem outcome_append (whole : (outcome stream).1.isWhole = true) (more : Bytes) :
    outcome (stream ++ more) = outcome stream := by
  obtain ⟨digits, rest, rfl, hd⟩ := digits_of_whole whole
  rw [outcome_digits hd] at whole ⊢
  rw [List.append_assoc, outcome_digits hd]
  by_cases hinvalid : isInvalidLength (ofBigEndian digits) = true
  · rw [if_pos hinvalid, if_pos hinvalid]
  rw [if_neg hinvalid] at whole ⊢
  rw [if_neg hinvalid]
  by_cases htorn : rest.length < ofBigEndian digits
  · rw [if_pos htorn] at whole
    contradiction
  · have hlong : ¬ (rest ++ more).length < ofBigEndian digits := by
      rw [List.length_append]
      omega
    rw [if_neg htorn, if_neg hlong, List.take_append_of_le_length (Nat.le_of_not_lt htorn)]

/-- What was used to receive a body is its frame. -/
theorem outcome_frame (h : (outcome stream).1 = .frame body) :
    (outcome stream).2 = encode body := by
  obtain ⟨digits, rest, rfl, hd⟩ := digits_of_whole (by rw [h]; rfl)
  rw [outcome_digits hd] at h ⊢
  split_ifs at h ⊢ with hinvalid htorn
  cases h
  have hsize : (rest.take (ofBigEndian digits)).length = ofBigEndian digits := by
    rw [List.length_take]
    omega
  rw [encode, hsize, bigEndian_of_length hd]

/-- The bytes used stand at the beginning. -/
theorem outcome_prefix (stream : Bytes) : (outcome stream).2 <+: stream := by
  unfold outcome
  dsimp only
  split_ifs
  · exact List.nil_prefix
  · exact List.prefix_refl _
  · exact List.take_prefix _ _
  · exact List.prefix_refl _
  · exact List.take_prefix _ _

/-! ## What successive attempts come to -/

theorem outcomes_cons {used : Bytes} {receipt : Receipt} (h : outcome stream = (receipt, used))
    (hrest : stream = used ++ rest) (k : Nat) :
    outcomes (k + 1) stream = (receipt, used) :: outcomes k rest := by
  rw [outcomes, h, hrest, List.drop_left]

/-- One attempt more is made on what the others have left. -/
theorem outcomes_succ (h : stream = (outcomes k stream).flatMap Prod.snd ++ rest) :
    outcomes (k + 1) stream = outcomes k stream ++ [outcome rest] := by
  induction k generalizing stream with
  | zero =>
      have hsame : stream = rest := h
      rw [hsame]
      rfl
  | succ k ih =>
      obtain ⟨later, hlater⟩ := outcome_prefix stream
      have hcons := outcomes_cons rfl hlater.symm
      rw [hcons, List.flatMap_cons, List.append_assoc] at h
      have hrest : later = (outcomes k later).flatMap Prod.snd ++ rest :=
        List.append_cancel_left (hlater.trans h)
      rw [hcons, hcons, ih hrest]
      rfl

/-- Attempts that have come to something else than the end come to it on a longer stream. -/
theorem outcomes_append (whole : ∀ r ∈ outcomes k stream, r.1.isWhole = true) (more : Bytes) :
    outcomes k (stream ++ more) = outcomes k stream := by
  induction k generalizing stream with
  | zero => rfl
  | succ k ih =>
      obtain ⟨later, hlater⟩ := outcome_prefix stream
      have hcons := outcomes_cons rfl hlater.symm k
      rw [hcons] at whole ⊢
      have hfirst := outcome_append (whole _ List.mem_cons_self) more
      have hmore : stream ++ more = (outcome stream).2 ++ (later ++ more) := by
        rw [← List.append_assoc, hlater]
      rw [outcomes_cons hfirst hmore, ih fun r hr => whole r (List.mem_cons_of_mem _ hr)]

theorem mem_outcomes {r : Receipt × Bytes} (h : r ∈ outcomes k stream) :
    ∃ part, r = outcome part := by
  induction k generalizing stream with
  | zero => exact absurd h List.not_mem_nil
  | succ k ih =>
      rcases List.mem_cons.1 h with hfirst | hlater
      · exact ⟨stream, hfirst⟩
      · exact ih hlater

/-- The bodies received, written again, are the bytes used to receive them. -/
theorem encode_okBodies {receipts : List (Receipt × Bytes)}
    (h : ∀ r ∈ receipts, ∀ body, r.1 = .frame body → r.2 = encode body) :
    (okBodies receipts).flatMap encode = okBytes receipts := by
  induction receipts with
  | nil => rfl
  | cons r receipts ih =>
      obtain ⟨receipt, used⟩ := r
      have hlater := ih fun r hr => h r (List.mem_cons_of_mem _ hr)
      cases receipt with
      | frame body =>
          have hused : used = encode body := h _ List.mem_cons_self body rfl
          change encode body ++ (okBodies receipts).flatMap encode = used ++ okBytes receipts
          rw [hlater, hused]
      | invalid n => exact hlater
      | closed => exact hlater
      | ioError => exact hlater
      | waiting reader => exact hlater

/-- A stream of frames comes to their bodies in order, and then to its end for ever. -/
theorem outcomes_frames {bodies : List Bytes}
    (valid : ∀ body ∈ bodies, isInvalidLength body.length = false) (k : Nat) :
    (outcomes k (bodies.flatMap encode)).map Prod.fst <+:
      bodies.map Receipt.frame ++ List.replicate k Receipt.closed := by
  induction k generalizing bodies with
  | zero => exact List.nil_prefix
  | succ k ih =>
      cases bodies with
      | nil =>
          have hlater := @ih [] fun _ hbody => absurd hbody List.not_mem_nil
          have hclosed : outcomes (k + 1) [] = (.closed, []) :: outcomes k [] := rfl
          rw [List.flatMap_nil, hclosed]
          exact (List.prefix_cons_inj _).2 hlater
      | cons body bodies =>
          have hlater := ih fun body' hbody => valid body' (List.mem_cons_of_mem _ hbody)
          have hfirst := outcome_encode_append (valid body List.mem_cons_self)
            (bodies.flatMap encode)
          have hmore : bodies.map Receipt.frame ++ List.replicate k Receipt.closed <+:
              bodies.map Receipt.frame ++ List.replicate (k + 1) Receipt.closed := by
            rw [List.replicate_succ', ← List.append_assoc]
            exact List.prefix_append _ _
          rw [List.flatMap_cons, outcomes_cons hfirst rfl]
          exact (List.prefix_cons_inj _).2 (hlater.trans hmore)

/-! ## Sending -/

/-- Sends bodies one after the other, as long as they can be sent. -/
def sendAll (p : SocketPair) (e : End) : List Bytes → Bool × SocketPair
  | [] => (true, p)
  | body :: later =>
      match send p e body with
      | (true, p) => sendAll p e later
      | (false, p) => (false, p)

theorem send_ready {p : SocketPair} {e : End} (ready : p.canWrite e = true) (body : Bytes) :
    ∃ q, send p e body = (true, q) ∧ q.canWrite e = true ∧
      (q.socket e.opposite).inlet = (p.socket e.opposite).inlet.arrive (encode body) := by
  have hne : (encode body).isEmpty = false := by simp [encode, bigEndian, lengthSize]
  refine ⟨_, by rw [send, SocketPair.write, hne, if_neg Bool.false_ne_true, if_pos ready], ?_⟩
  cases e <;> exact ⟨ready, rfl⟩

/-- Between open sockets every body is sent, and the frames arrive in order. -/
theorem sendAll_ready {p : SocketPair} {e : End} (ready : p.canWrite e = true)
    (bodies : List Bytes) :
    ∃ q, sendAll p e bodies = (true, q) ∧
      (q.socket e.opposite).inlet =
        (p.socket e.opposite).inlet.arrive (bodies.flatMap encode) := by
  induction bodies generalizing p with
  | nil =>
      refine ⟨p, rfl, ?_⟩
      simp [Inlet.arrive]
  | cons body bodies ih =>
      obtain ⟨q, hsend, hready, hq⟩ := send_ready ready body
      obtain ⟨r, hall, hr⟩ := ih hready
      refine ⟨r, ?_, ?_⟩
      · rw [sendAll, hsend]
        exact hall
      · rw [hr, hq, Inlet.arrive, Inlet.arrive, List.append_assoc]
        rfl

/-! ## One attempt to receive -/

variable {reader : Reader} {inlet : Inlet} {bs : Bytes}

theorem takeBody_suffix {size : Nat} {got : Bytes}
    (h : Reader.takeBody size got bs = .frame body rest) : rest <:+ bs := by
  rw [Reader.takeBody] at h
  split at h
  · contradiction
  · cases h
    exact List.drop_suffix _ _

theorem take_frame_suffix (h : reader.take bs = .frame body rest) : rest <:+ bs := by
  cases reader with
  | length got =>
      simp only [Reader.take] at h
      split_ifs at h
      exact (takeBody_suffix h).trans (List.drop_suffix _ _)
  | body size got => exact takeBody_suffix h

theorem take_invalid_suffix {n : Nat} (h : reader.take bs = .invalid n rest) : rest <:+ bs := by
  cases reader with
  | length got =>
      simp only [Reader.take] at h
      split_ifs at h
      · cases h
        exact List.drop_suffix _ _
      · exact absurd h takeBody_ne_invalid
  | body size got => exact absurd h takeBody_ne_invalid

theorem outcome_ne_waiting {receipt : Receipt} {used : Bytes}
    (h : outcome stream = (receipt, used)) : receipt ≠ .waiting reader := by
  intro hwaiting
  subst hwaiting
  unfold outcome at h
  dsimp only at h
  split_ifs at h <;> cases h

/-- What an attempt does that goes on from a reader: it takes all there is and waits, or it
comes to what the bytes come to, whatever arrives behind them. -/
inductive Received (reader : Reader) (inlet : Inlet) : Receipt → Inlet → Prop
  | waits {reader' : Reader} : inlet.ended = false → reader'.IsPartial →
      reader'.bytes = reader.bytes ++ inlet.unread →
      Received reader inlet (.waiting reader') { inlet with unread := [] }
  | done {receipt : Receipt} {read rest : Bytes} : inlet.unread = read ++ rest →
      (inlet.ended = false → receipt.isWhole = true) →
      (∀ more, (inlet.ended = true → more = []) →
        outcome (reader.bytes ++ (inlet.unread ++ more)) = (receipt, reader.bytes ++ read)) →
      Received reader inlet receipt { inlet with unread := rest }

theorem Received.frame (inside : reader.IsPartial)
    (h : reader.take inlet.unread = .frame body rest) :
    Received reader inlet (.frame body) { inlet with unread := rest } := by
  obtain ⟨valid, hbytes⟩ := take_frame inside h
  obtain ⟨read, hread⟩ := take_frame_suffix h
  have hused : reader.bytes ++ read = encode body := by
    rw [← List.append_left_inj rest, List.append_assoc, hread, hbytes]
  refine .done hread.symm (fun _ => rfl) fun more _ => ?_
  rw [← List.append_assoc, hbytes, List.append_assoc, hused, outcome_encode_append valid]

theorem Received.invalid {n : Nat} (inside : reader.IsPartial)
    (h : reader.take inlet.unread = .invalid n rest) :
    Received reader inlet (.invalid n) { inlet with unread := rest } := by
  obtain ⟨digits, hd, hn, hinvalid, hbytes⟩ := take_invalid inside h
  obtain ⟨read, hread⟩ := take_invalid_suffix h
  have hused : reader.bytes ++ read = digits := by
    rw [← List.append_left_inj rest, List.append_assoc, hread, hbytes]
  refine .done hread.symm (fun _ => rfl) fun more _ => ?_
  rw [← List.append_assoc, hbytes, List.append_assoc, hused, outcome_digits hd, hn,
    if_pos hinvalid]

theorem receive_received (inside : reader.IsPartial) (unbroken : inlet.reset = false) :
    Received reader inlet (reader.receive inlet).1 (reader.receive inlet).2 := by
  unfold Reader.receive
  split
  · exact .frame inside ‹_›
  · exact .invalid inside ‹_›
  · rename_i reader' hwait
    obtain ⟨hinside, hbytes⟩ := take_waiting inside hwait
    dsimp only
    rw [if_neg (ne_true_of_eq_false unbroken)]
    split
    · rename_i hended
      -- Nothing can arrive any more, so the bytes taken are all that is left.
      refine .done (List.append_nil _).symm ?_ ?_
      · intro hgoing
        rw [hended] at hgoing
        contradiction
      intro more hmore
      rw [hmore hended, List.append_nil, ← hbytes]
      exact outcome_partial hinside
    · rename_i hgoing
      rw [Bool.not_eq_true] at hgoing
      exact .waits hgoing hinside hbytes

/-! ## A receiver at work -/

/-- A receiver, with what its attempts have come to. -/
structure Reception where
  inlet : Inlet := {}
  reader : Reader := .start
  /-- The bytes taken since the last attempt came to an end. -/
  used : Bytes := []
  /-- What the attempts have come to, and the bytes each has used. -/
  receipts : List (Receipt × Bytes) := []
deriving DecidableEq, Repr

/-- What a read of at most `n` bytes sees; the end only if it comes that far. -/
def upTo (n : Nat) (inlet : Inlet) : Inlet where
  unread := inlet.unread.take n
  ended := inlet.ended && decide (inlet.unread.length ≤ n)

namespace Reception

/-- What happens between a sender and a receiver. -/
inductive Act where
  /-- Some more bytes come out of the stream. -/
  | arrive (bs : Bytes)
  /-- The stream ends. -/
  | finish
  /-- The receiver goes on with what has arrived, up to some number of bytes. -/
  | receive (budget : Nat)
deriving DecidableEq, Repr

def Act.isRead : Act → Bool
  | .receive _ => true
  | _ => false

/-- The receiver goes on with at most `n` bytes. -/
def receive (s : Reception) (n : Nat) : Reception :=
  let (receipt, seen) := s.reader.receive (upTo n s.inlet)
  let unread := seen.unread ++ s.inlet.unread.drop n
  let used := s.used ++ s.inlet.unread.take (s.inlet.unread.length - unread.length)
  match receipt with
  | .waiting reader => { s with inlet := { s.inlet with unread }, reader, used }
  | receipt =>
      { inlet := { s.inlet with unread }, receipts := s.receipts ++ [(receipt, used)] }

/-- One step; a read of some bytes has to wait until there are some or none will come. -/
def act? (s : Reception) : Act → Option Reception
  | .arrive bs => if s.inlet.ended then none else some { s with inlet := s.inlet.arrive bs }
  | .finish => some { s with inlet := s.inlet.finish }
  | .receive budget => if 0 < budget ∧ s.inlet.isReady then some (s.receive budget) else none

def arrivedIn (m : Moment Reception Act) : Bytes :=
  match m.act with
  | .arrive bs => bs
  | _ => []

/-- The bytes of the stream so far. -/
def arrived (past : List (Moment Reception Act)) : Bytes := past.flatMap arrivedIn

/-- How often the receiver has read some bytes. -/
def reads (past : List (Moment Reception Act)) : Nat := past.countP (·.act.isRead)

variable {past : List (Moment Reception Act)} {m : Moment Reception Act} {s s' : Reception}
  {n : Nat}

theorem arrived_snoc : arrived (past ++ [m]) = arrived past ++ arrivedIn m := by
  simp [arrived]

theorem reads_snoc :
    reads (past ++ [m]) = reads past + if m.act.isRead then 1 else 0 := by
  rw [reads, List.countP_append, List.countP_singleton]
  rfl

/-- What a read of the receiver does. -/
inductive Read (s : Reception) : Reception → Prop
  | waits {reader : Reader} {read rest : Bytes} : s.inlet.unread = read ++ rest →
      read ≠ [] → reader.IsPartial → reader.bytes = s.reader.bytes ++ read →
      Read s { s with inlet := { s.inlet with unread := rest }, reader, used := s.used ++ read }
  | done {receipt : Receipt} {read rest : Bytes} : s.inlet.unread = read ++ rest →
      (s.inlet.ended = false → receipt.isWhole = true) →
      outcome (s.reader.bytes ++ s.inlet.unread) = (receipt, s.reader.bytes ++ read) →
      Read s { inlet := { s.inlet with unread := rest }
               receipts := s.receipts ++ [(receipt, s.used ++ read)] }

/-- Splits what lies ready at the place up to which a read has come. -/
theorem take_read {read rest : Bytes} (h : s.inlet.unread.take n = read ++ rest) :
    s.inlet.unread = read ++ (rest ++ s.inlet.unread.drop n) ∧
      s.inlet.unread.take (s.inlet.unread.length - (rest ++ s.inlet.unread.drop n).length) =
        read := by
  have hsplit : s.inlet.unread = read ++ (rest ++ s.inlet.unread.drop n) := by
    rw [← List.append_assoc, ← h, List.take_append_drop]
  refine ⟨hsplit, ?_⟩
  generalize rest ++ s.inlet.unread.drop n = later at hsplit ⊢
  rw [hsplit, List.length_append, Nat.add_sub_cancel, List.take_left]

/-- A read that has to go on has taken something. -/
theorem take_ne_nil (budget : 0 < n) (ready : s.inlet.isReady = true)
    (going : (upTo n s.inlet).ended = false) : s.inlet.unread.take n ≠ [] := by
  intro hnil
  have hdry : s.inlet.unread = [] := by
    rcases List.take_eq_nil_iff.1 hnil with hzero | hdry
    · omega
    · exact hdry
  simp [Inlet.isReady, hdry] at ready
  simp [upTo, ready, hdry] at going

theorem read_of_receive (inside : s.reader.IsPartial) (budget : 0 < n)
    (ready : s.inlet.isReady = true) : Read s (s.receive n) := by
  have hreceived : Received s.reader (upTo n s.inlet) _ _ := receive_received inside rfl
  unfold receive
  rcases hat : s.reader.receive (upTo n s.inlet) with ⟨receipt, seen⟩
  rw [hat] at hreceived
  cases hreceived with
  | @waits reader hgoing hinside hbytes =>
      obtain ⟨hsplit, htaken⟩ := take_read (List.append_nil (s.inlet.unread.take n)).symm
      dsimp only
      rw [htaken]
      exact .waits hsplit (take_ne_nil budget ready hgoing) hinside hbytes
  | @done _ read rest hread hwhole houtcome =>
      obtain ⟨hsplit, htaken⟩ := take_read hread
      have hbehind : (upTo n s.inlet).ended = true → s.inlet.unread.drop n = [] := by
        intro hended
        rw [upTo, Bool.and_eq_true, decide_eq_true_eq] at hended
        exact List.drop_eq_nil_of_le hended.2
      have hall := houtcome _ hbehind
      rw [upTo, List.take_append_drop] at hall
      have hwhole' : s.inlet.ended = false → receipt.isWhole = true := by
        intro hgoing
        exact hwhole (by rw [upTo, hgoing, Bool.false_and])
      dsimp only
      rw [htaken]
      split
      · exact absurd rfl (outcome_ne_waiting hall)
      · exact .done hsplit hwhole' hall

/-- What the bytes of a run say of the receiver it has led to. -/
structure Tallied (past : List (Moment Reception Act)) (s : Reception) : Prop where
  inside : s.reader.IsPartial
  used : s.reader.bytes = s.used
  /-- Every byte that has arrived is used by an attempt or still to come. -/
  bytes : s.receipts.flatMap Prod.snd ++ (s.used ++ s.inlet.unread) = arrived past
  receipts : s.receipts = outcomes s.receipts.length (arrived past)
  whole : s.inlet.ended = false → ∀ r ∈ s.receipts, r.1.isWhole = true
  /-- Every read uses some bytes or ends an attempt. -/
  progress : reads past + s.inlet.unread.length ≤ s.receipts.length + (arrived past).length

theorem tallied_start : Tallied [] {} where
  inside := Reader.isPartial_start
  used := rfl
  bytes := rfl
  receipts := rfl
  whole := fun _ _ h => absurd h List.not_mem_nil
  progress := Nat.le_refl 0

theorem Tallied.arrive {bs : Bytes} (h : Tallied past s) (going : s.inlet.ended = false)
    (m : Moment Reception Act) (hm : m.act = .arrive bs) :
    Tallied (past ++ [m]) { s with inlet := s.inlet.arrive bs } := by
  have harrived : arrived (past ++ [m]) = arrived past ++ bs := by
    rw [arrived_snoc, arrivedIn, hm]
  have hreads : reads (past ++ [m]) = reads past := by
    rw [reads_snoc, hm]
    rfl
  refine ⟨h.inside, h.used, ?_, ?_, h.whole, ?_⟩
  · rw [harrived, ← h.bytes]
    simp [Inlet.arrive]
  · have hwhole := h.whole going
    rw [h.receipts] at hwhole
    rw [harrived, outcomes_append hwhole]
    exact h.receipts
  · have := h.progress
    rw [harrived, hreads, Inlet.arrive, List.length_append, List.length_append]
    dsimp only
    omega

theorem Tallied.read (h : Tallied past s) (hread : Read s s') (m : Moment Reception Act)
    {budget : Nat} (hm : m.act = .receive budget) : Tallied (past ++ [m]) s' := by
  have harrived : arrived (past ++ [m]) = arrived past := by
    rw [arrived_snoc, arrivedIn, hm, List.append_nil]
  have hreads : reads (past ++ [m]) = reads past + 1 := by
    rw [reads_snoc, hm]
    rfl
  cases hread with
  | @waits reader read rest hsplit hne hinside hbytes =>
      refine ⟨hinside, ?_, ?_, ?_, h.whole, ?_⟩
      · rw [hbytes, h.used]
      · rw [harrived, ← h.bytes, hsplit, List.append_assoc]
      · rw [harrived]
        exact h.receipts
      · have hpos := List.length_pos_iff.2 hne
        have := h.progress
        rw [hsplit, List.length_append] at this
        rw [harrived, hreads]
        dsimp only
        omega
  | @done receipt read rest hsplit hwhole houtcome =>
      rw [h.used] at houtcome
      refine ⟨Reader.isPartial_start, rfl, ?_, ?_, ?_, ?_⟩
      · rw [harrived, ← h.bytes, hsplit]
        simp
      · -- One attempt more, on the bytes that are not used yet.
        have hrest : arrived past = (outcomes s.receipts.length (arrived past)).flatMap Prod.snd ++
            (s.used ++ s.inlet.unread) := by
          rw [← h.receipts, h.bytes]
        rw [harrived, List.length_append, List.length_singleton, outcomes_succ hrest, houtcome,
          ← h.receipts]
      · intro hgoing r hr
        rcases List.mem_append.1 hr with hold | hnew
        · exact h.whole hgoing r hold
        · rw [List.mem_singleton.1 hnew]
          exact hwhole hgoing
      · have := h.progress
        rw [hsplit, List.length_append] at this
        rw [harrived, hreads, List.length_append, List.length_singleton]
        dsimp only
        omega

theorem Tallied.finish (h : Tallied past s) (m : Moment Reception Act) (hm : m.act = .finish) :
    Tallied (past ++ [m]) { s with inlet := s.inlet.finish } := by
  have harrived : arrived (past ++ [m]) = arrived past := by
    rw [arrived_snoc, arrivedIn, hm, List.append_nil]
  have hreads : reads (past ++ [m]) = reads past := by
    rw [reads_snoc, hm]
    rfl
  refine ⟨h.inside, h.used, ?_, ?_, fun hgoing => absurd hgoing (by simp [Inlet.finish]), ?_⟩
  · rw [harrived]
    exact h.bytes
  · rw [harrived]
    exact h.receipts
  · rw [harrived, hreads]
    exact h.progress

theorem tallied_run (run : Run act? {} past s) : Tallied past s := by
  induction run with
  | start => exact tallied_start
  | @snoc past now next act _ step ih =>
      cases act with
      | arrive bs =>
          rw [act?] at step
          split_ifs at step with hended
          cases step
          exact ih.arrive (eq_false_of_ne_true hended) _ rfl
      | finish =>
          cases step
          exact ih.finish _ rfl
      | receive budget =>
          rw [act?] at step
          split_ifs at step with hready
          cases step
          exact ih.read (read_of_receive ih.inside hready.1 hready.2) _ rfl

/-! ## What a run comes to -/

/-- Bodies that a sender has sent are received. -/
theorem Tallied.received_frames (h : Tallied past s) {bodies : List Bytes}
    (valid : ∀ body ∈ bodies, 1 ≤ body.length ∧ body.length ≤ limit)
    (sent : arrived past = bodies.flatMap encode) :
    s.receipts.map Prod.fst <+:
      bodies.map Receipt.frame ++ List.replicate s.receipts.length Receipt.closed := by
  have hlengths : ∀ body ∈ bodies, isInvalidLength body.length = false := fun body hbody =>
    isInvalidLength_eq_false_iff.2 (valid body hbody)
  have hframes := outcomes_frames hlengths s.receipts.length
  rw [← sent, ← h.receipts] at hframes
  exact hframes

/-- More attempts than there are frames reach the end of the stream. -/
theorem end_reached {bodies : List Bytes} {receipts : List (Receipt × Bytes)}
    (h : receipts.map Prod.fst <+:
      bodies.map Receipt.frame ++ List.replicate receipts.length Receipt.closed)
    (enough : bodies.length < receipts.length) :
    bodies.map Receipt.frame ++ [.closed] <+: receipts.map Prod.fst := by
  obtain ⟨k, hk⟩ : ∃ k, receipts.length = k + 1 := ⟨receipts.length - 1, by omega⟩
  have hend : bodies.map Receipt.frame ++ [.closed] <+:
      bodies.map Receipt.frame ++ List.replicate receipts.length Receipt.closed := by
    rw [hk, List.replicate_succ, List.prefix_append_right_inj]
    exact ⟨List.replicate k .closed, rfl⟩
  apply List.prefix_of_prefix_length_le hend h
  rw [List.length_append, List.length_map, List.length_map, List.length_singleton]
  omega

/-- **Frames are received as they were sent, however their bytes arrive.** Along every run
what the receiver's attempts come to is determined by the bytes of the stream alone: each
comes to its `outcome` on the bytes the one before has left, and no byte is lost or used
twice. Once the stream has ended the receiver can always read, and a read that takes no
byte ends an attempt. The bodies received, sent again, give the very bytes that were used to
receive them. Where the stream is what sending some bodies of allowed lengths has put on it,
the receiver gets these in order, and then the end. -/
theorem frames_received_as_sent (run : Run act? {} past s) :
    s.receipts = outcomes s.receipts.length (arrived past) ∧
    s.receipts.flatMap Prod.snd ++ (s.used ++ s.inlet.unread) = arrived past ∧
    (s.inlet.ended = true → ∀ budget, 0 < budget → (act? s (.receive budget)).isSome = true) ∧
    reads past + s.inlet.unread.length ≤ s.receipts.length + (arrived past).length ∧
    ∀ (p : SocketPair) (e : End), p.canWrite e = true →
      (∃ q, sendAll p e (okBodies s.receipts) = (true, q) ∧
        (q.socket e.opposite).inlet = (p.socket e.opposite).inlet.arrive (okBytes s.receipts)) ∧
      ∀ bodies : List Bytes, (∀ body ∈ bodies, 1 ≤ body.length ∧ body.length ≤ limit) →
        ∃ q, sendAll p e bodies = (true, q) ∧
          ((q.socket e.opposite).inlet = (p.socket e.opposite).inlet.arrive (arrived past) →
            s.receipts.map Prod.fst <+:
                bodies.map .frame ++ List.replicate s.receipts.length .closed ∧
              (bodies.length + (arrived past).length < reads past →
                bodies.map .frame ++ [.closed] <+: s.receipts.map Prod.fst)) := by
  have h := tallied_run run
  refine ⟨h.receipts, h.bytes, ?_, h.progress, ?_⟩
  · intro hended budget hbudget
    have hready : s.inlet.isReady = true := by rw [Inlet.isReady, hended, Bool.or_true]
    rw [act?, if_pos ⟨hbudget, hready⟩]
    rfl
  intro p e hopen
  constructor
  · obtain ⟨q, hsent, hinlet⟩ := sendAll_ready hopen (okBodies s.receipts)
    refine ⟨q, hsent, ?_⟩
    rw [hinlet, encode_okBodies]
    intro r hr body hbody
    rw [h.receipts] at hr
    obtain ⟨part, rfl⟩ := mem_outcomes hr
    exact outcome_frame hbody
  · intro bodies valid
    obtain ⟨q, hsent, hinlet⟩ := sendAll_ready hopen bodies
    refine ⟨q, hsent, ?_⟩
    intro harrived
    have hbytes : arrived past = bodies.flatMap encode := by
      rw [hinlet] at harrived
      exact (List.append_cancel_left (congrArg Inlet.unread harrived)).symm
    have hbodies := h.received_frames valid hbytes
    refine ⟨hbodies, ?_⟩
    intro henough
    have hcount : bodies.length < s.receipts.length := by
      have := h.progress
      omega
    exact end_reached hbodies hcount

/-- Two bodies are sent; their bytes arrive cut inside the first length and inside the
first body, and are read one by one in the end. -/
theorem frames_received_as_sent_cut_twice :
    ∃ past s, Run act? {} past s ∧ s.receipts = outcomes s.receipts.length (arrived past) ∧
      [.frame [1, 2, 3], .frame [4], .closed] <+: s.receipts.map Prod.fst := by
  have hrun : (perform? act? {}
      ([.arrive [0, 0, 0, 0, 0], .receive 3, .arrive [0, 0, 3, 1], .receive 9,
        .arrive ([2, 3] ++ encode [4]), .finish] ++ List.replicate 23 (.receive 1))).map
      (fun p => (arrived p.1, reads p.1)) = some ([[1, 2, 3], [4]].flatMap encode, 25) := by
    decide +kernel
  obtain ⟨⟨past, s⟩, hperform, hshows⟩ := Option.map_eq_some_iff.mp hrun
  obtain ⟨harrived, hreads⟩ := Prod.mk.inj hshows
  have run := Run.of_perform? hperform
  obtain ⟨hdetermined, -, -, -, hsending⟩ := frames_received_as_sent run
  obtain ⟨q, hsent, hreceived⟩ := (hsending {} .near rfl).2 [[1, 2, 3], [4]] (by decide)
  cases hsent
  obtain ⟨-, hbodies⟩ := hreceived (by rw [harrived]; rfl)
  refine ⟨past, s, run, hdetermined, hbodies ?_⟩
  rw [harrived, hreads]
  decide

/-- A frame, a length that no frame may announce, and the end of the stream in a length. -/
example : outcomes 4 (encode [7] ++ bigEndian 8 0 ++ [0, 0]) =
    [(.frame [7], encode [7]), (.invalid 0, bigEndian 8 0), (.ioError, [0, 0]), (.closed, [])] := by
  decide

end Reception

end SearchDaemon.Frame
