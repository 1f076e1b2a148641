import Mathlib.Data.List.Nodup
import Mathlib.Order.Bounds.Basic
import SearchDaemon.Proofs.Delivery
import SearchDaemon.Proofs.Run

/-!
# Runs of one connection

Everybody who holds a connection acts on it in any order: workers deliver, its writer
takes steps, its handler says how many responses there will be, anyone may abort it,
and its client writes, reads and leaves. `Recorded` relates what a run shows from
outside, the responses accepted, the bodies handed to the writer and those it has
begun, to the state it has led to. `Contained` bounds what the socket holds for a client
that does not read.
-/

namespace SearchDaemon.Connection

/-! ## Acts and what they show -/

/-- What can be done to a connection. -/
inductive Act where
  | deliver (sequence : Nat) (r : Response)
  /-- One step of the writer. -/
  | write (budget : Nat)
  | finish (expected : Nat)
  | abort
  | startWriter
  | clientWrites (bs : Bytes)
  | clientFinishes
  | clientReads (count : Nat)
  | clientCloses
deriving DecidableEq, Repr

/-- The connection after an act, unless a writer's step has to wait. -/
def act? (c : Connection) : Act → Option Connection
  | .deliver sequence r => some (c.deliver sequence r).2.1
  | .write budget => (c.writerStep? budget).map Prod.fst
  | .finish expected => some (c.finish expected)
  | .abort => some c.abort.1
  | .startWriter => some c.startWriter
  | .clientWrites bs => some (c.clientWrites bs)
  | .clientFinishes => some c.clientFinishes
  | .clientReads count => some (c.clientTakes count).2
  | .clientCloses => some c.clientCloses

/-- The response whose delivery answered true, with its number. -/
def acceptedIn (m : Moment Connection Act) : List (Nat × Response) :=
  match m.act with
  | .deliver sequence r => if (m.before.deliver sequence r).1 then [(sequence, r)] else []
  | _ => []

/-- The bodies a delivery handed to the writer. -/
def handedIn (m : Moment Connection Act) : List Bytes :=
  match m.act with
  | .deliver .. => m.after.outgoing.drop m.before.outgoing.length
  | _ => []

/-- The body whose frame the writer began. -/
def begunIn (m : Moment Connection Act) : List Bytes :=
  match m.before.writer, m.after.writer with
  | .ready, .writing _ => m.before.outgoing.take 1
  | _, _ => []

def accepted (past : List (Moment Connection Act)) : List (Nat × Response) :=
  past.flatMap acceptedIn

def handed (past : List (Moment Connection Act)) : List Bytes := past.flatMap handedIn

def begun (past : List (Moment Connection Act)) : List Bytes := past.flatMap begunIn

/-- The response accepted under a number. -/
def answerIn (past : List (Moment Connection Act)) (sequence : Nat) : Option Response :=
  (accepted past).lookup sequence

variable {past later : List (Moment Connection Act)} {m : Moment Connection Act}
  {c c' : Connection}

theorem accepted_snoc : accepted (past ++ [m]) = accepted past ++ acceptedIn m := by
  simp [accepted]

theorem handed_snoc : handed (past ++ [m]) = handed past ++ handedIn m := by
  simp [handed]

theorem begun_snoc : begun (past ++ [m]) = begun past ++ begunIn m := by
  simp [begun]

theorem begunIn_eq_nil (same : m.after.writer = m.before.writer) : begunIn m = [] := by
  unfold begunIn
  rw [same]
  split
  · rename_i h h'
    rw [h] at h'
    contradiction
  · rfl

/-- Starting a writer begins no frame. -/
theorem begunIn_startWriter : begunIn ⟨c, .startWriter, c.startWriter⟩ = [] := by
  by_cases hrunning : c.writer.isRunning = true
  · apply begunIn_eq_nil
    simp [startWriter, hrunning]
  · have hready : c.startWriter.writer = .ready := by simp [startWriter, hrunning]
    unfold begunIn
    rw [hready]
    split
    · contradiction
    · rfl

theorem mem_of_answerIn {k : Nat} {r : Response} (h : answerIn past k = some r) :
    (k, r) ∈ accepted past := by
  obtain ⟨l₁, l₂, heq, -⟩ := List.lookup_eq_some_iff.mp h
  rw [heq]
  simp

/-! ## The invariant of a run -/

/-- What a run shows fits the state it has led to. -/
structure Recorded (past : List (Moment Connection Act)) (c : Connection) : Prop where
  orderly : Orderly c
  follows : Follows (answerIn past) c
  kept : c.aborted = false → ∀ p ∈ accepted past, c.isAnswered p.1 = true
  gap : c.next ∉ (accepted past).map Prod.fst
  nodup : ((accepted past).map Prod.fst).Nodup
  handed_eq : handed past = bodies (answerIn past) c.next
  begun_append : c.aborted = false → begun past ++ c.outgoing = handed past
  begun_prefix : begun past <+: handed past

theorem recorded_fresh (client : Nat) (capacity : Option Nat) :
    Recorded [] { client, capacity } :=
  ⟨orderly_fresh client capacity, follows_fresh _ client capacity,
    fun _ _ h => absurd h List.not_mem_nil, List.not_mem_nil, List.nodup_nil, rfl, fun _ => rfl,
    List.prefix_refl _⟩

/-- An act that accepts and hands over nothing, and at most begins a frame, keeps it. -/
theorem Recorded.quiet (h : Recorded past m.before) (orderly : Orderly m.after)
    (follows : Follows (answerIn past) m.after) (none_accepted : acceptedIn m = [])
    (none_handed : handedIn m = []) (same_next : m.after.next = m.before.next)
    (live : m.after.aborted = false → m.before.aborted = false ∧
      m.after.pending = m.before.pending ∧ begunIn m ++ m.after.outgoing = m.before.outgoing)
    (begins : begunIn m ≠ [] → m.after.aborted = false) :
    Recorded (past ++ [m]) m.after := by
  have hacc : accepted (past ++ [m]) = accepted past := by
    rw [accepted_snoc, none_accepted, List.append_nil]
  have hhanded : handed (past ++ [m]) = handed past := by
    rw [handed_snoc, none_handed, List.append_nil]
  have hanswer : answerIn (past ++ [m]) = answerIn past := by
    funext k
    rw [answerIn, hacc, answerIn]
  have hbegun : m.after.aborted = false →
      begun (past ++ [m]) ++ m.after.outgoing = handed past := by
    intro hlive
    obtain ⟨hbefore, -, houtgoing⟩ := live hlive
    rw [begun_snoc, List.append_assoc, houtgoing, h.begun_append hbefore]
  refine ⟨orderly, ?_, ?_, ?_, ?_, ?_, ?_, ?_⟩
  · rw [hanswer]
    exact follows
  · intro hlive p hp
    obtain ⟨hbefore, hpending, -⟩ := live hlive
    have hkept := h.kept hbefore p (hacc ▸ hp)
    rw [isAnswered_iff] at hkept ⊢
    rw [same_next, hpending]
    exact hkept
  · rw [hacc, same_next]
    exact h.gap
  · rw [hacc]
    exact h.nodup
  · rw [hhanded, hanswer, same_next]
    exact h.handed_eq
  · rw [hhanded]
    exact hbegun
  · rw [hhanded]
    by_cases hnone : begunIn m = []
    · rw [begun_snoc, hnone, List.append_nil]
      exact h.begun_prefix
    · rw [← hbegun (begins hnone)]
      exact List.prefix_append _ _

/-- An act that leaves responses, bodies and writer alone keeps it. -/
theorem Recorded.idle (h : Recorded past m.before) (none_accepted : acceptedIn m = [])
    (none_handed : handedIn m = []) (next : m.after.next = m.before.next)
    (pending : m.after.pending = m.before.pending)
    (outgoing : m.after.outgoing = m.before.outgoing) (sent : m.after.sent = m.before.sent)
    (aborted : m.after.aborted = m.before.aborted) (writer : m.after.writer = m.before.writer)
    (written : m.after.written = m.before.written) : Recorded (past ++ [m]) m.after := by
  have hbegun := begunIn_eq_nil writer
  refine h.quiet ⟨?_, ?_, ?_, ?_⟩ ⟨?_, ?_, ?_, ?_⟩ none_accepted none_handed next ?_ ?_
  · rw [pending]
    exact h.orderly.sorted
  · rw [pending, next]
    exact h.orderly.early
  · rw [aborted, sent, writer, outgoing, next]
    exact h.orderly.counted
  · rw [aborted, pending, outgoing]
    exact h.orderly.cleared
  · rw [pending]
    exact h.follows.waiting
  · rw [next]
    exact h.follows.passed
  · rw [aborted, written, writer, outgoing, next]
    exact h.follows.stream
  · rw [written, next]
    exact h.follows.written
  · intro hlive
    refine ⟨aborted ▸ hlive, pending, ?_⟩
    rw [hbegun, List.nil_append, outgoing]
  · exact fun hne => absurd hbegun hne

section Accepting

variable {sequence : Nat} {r : Response}

/-- One more response accepted changes no answer that is known. -/
theorem answerIn_more (more : accepted (past ++ [m]) = accepted past ++ [(sequence, r)]) {k : Nat}
    {q : Response} (h : answerIn past k = some q) : answerIn (past ++ [m]) k = some q := by
  rw [answerIn, more]
  exact lookup_snoc_of_some h

theorem answerIn_new (more : accepted (past ++ [m]) = accepted past ++ [(sequence, r)])
    (fresh : sequence ∉ (accepted past).map Prod.fst) :
    answerIn (past ++ [m]) sequence = some r := by
  rw [answerIn, more]
  apply lookup_snoc_new
  rintro p hp rfl
  exact fresh (List.mem_map_of_mem hp)

/-- A number without an answer has not been accepted. -/
theorem Recorded.not_accepted (h : Recorded past c) (live : c.aborted = false)
    (new : c.isAnswered sequence = false) : sequence ∉ (accepted past).map Prod.fst := by
  intro hmem
  obtain ⟨p, hp, rfl⟩ := List.mem_map.mp hmem
  rw [h.kept live p hp] at new
  contradiction

/-- A delivery that is accepted keeps it. -/
theorem Recorded.taking (h : Recorded past c) (live : c.aborted = false)
    (new : c.isAnswered sequence = false)
    (hm : m = ⟨c, .deliver sequence r, c.taking sequence r⟩) :
    Recorded (past ++ [m]) (c.taking sequence r) := by
  have hfresh := h.not_accepted live new
  have hacc : accepted (past ++ [m]) = accepted past ++ [(sequence, r)] := by
    rw [accepted_snoc, hm]
    simp [acceptedIn, deliver_taken live new]
  have hkeys : (accepted (past ++ [m])).map Prod.fst =
      (accepted past).map Prod.fst ++ [sequence] := by
    rw [hacc, List.map_append]
    rfl
  have hhanded : handed (past ++ [m]) =
      handed past ++ (inOrder c.next (insertEarly sequence r c.pending)).2.1 := by
    rw [handed_snoc, hm]
    simp [handedIn, Connection.taking]
  have hbegun : begun (past ++ [m]) = begun past := by
    rw [begun_snoc, begunIn_eq_nil (by rw [hm]; rfl), List.append_nil]
  have hright := answerIn_new hacc hfresh
  have horderly := h.orderly.taking (r := r) live new
  refine ⟨horderly, (h.follows.mono fun _ _ => answerIn_more hacc).taking hright, ?_, ?_, ?_, ?_,
    ?_, ?_⟩
  · intro _ p hp
    rw [hacc] at hp
    rw [isAnswered_taking]
    rcases List.mem_append.mp hp with hp | hp
    · exact Or.inl (h.kept live p hp)
    · exact Or.inr (congrArg Prod.fst (List.mem_singleton.mp hp))
  · -- A number that is accepted is answered, and the next one is not.
    intro hmem
    have hanswered : (c.taking sequence r).isAnswered (c.taking sequence r).next = true := by
      rw [isAnswered_taking]
      rw [hkeys, List.mem_append] at hmem
      rcases hmem with hmem | hmem
      · obtain ⟨p, hp, heq⟩ := List.mem_map.mp hmem
        exact Or.inl (heq ▸ h.kept live p hp)
      · exact Or.inr (List.mem_singleton.mp hmem)
    rw [horderly.next_unanswered] at hanswered
    contradiction
  · rw [hkeys]
    refine List.nodup_append.mpr ⟨h.nodup, List.nodup_singleton _, ?_⟩
    intro k hk j hj heq
    rw [List.mem_singleton] at hj
    exact hfresh (hj ▸ heq ▸ hk)
  · have hprev : handed past = bodies (answerIn (past ++ [m])) c.next := by
      rw [h.handed_eq]
      apply bodies_congr
      intro i hi
      obtain ⟨q, hq⟩ := h.follows.passed i hi
      rw [hq, answerIn_more hacc hq]
    have hfiled : ∀ p ∈ insertEarly sequence r c.pending,
        answerIn (past ++ [m]) p.1 = some p.2 := by
      intro p hp
      rcases mem_insertEarly.mp hp with rfl | hp
      · exact hright
      · exact answerIn_more hacc (h.follows.waiting p hp)
    rw [hhanded, hprev]
    exact (bodies_inOrder c.next hfiled).symm
  · intro _
    rw [hbegun, hhanded, ← h.begun_append live, Connection.taking, List.append_assoc]
  · rw [hbegun, hhanded]
    exact h.begun_prefix.trans (List.prefix_append _ _)

/-- A delivery keeps it, whether it is accepted or not. -/
theorem Recorded.deliver (h : Recorded past c) (sequence : Nat) (r : Response) :
    Recorded (past ++ [⟨c, .deliver sequence r, (c.deliver sequence r).2.1⟩])
      (c.deliver sequence r).2.1 := by
  by_cases hr : c.aborted = true ∨ c.isAnswered sequence = true
  · obtain ⟨hfalse, hsame⟩ := deliver_refused (r := r) hr
    rw [hsame]
    refine Recorded.idle (m := ⟨c, .deliver sequence r, c⟩) h ?_ ?_ rfl rfl rfl rfl rfl rfl rfl
    · simp [acceptedIn, hfalse]
    · simp [handedIn]
  · simp only [not_or, Bool.not_eq_true] at hr
    rw [deliver_taken hr.1 hr.2]
    exact h.taking hr.1 hr.2 rfl

end Accepting

/-- A step of the writer keeps it. -/
theorem Recorded.wrote (h : Recorded past c) {budget : Nat} (step : Wrote c c') :
    Recorded (past ++ [⟨c, .write budget, c'⟩]) c' := by
  refine Recorded.quiet (m := ⟨c, .write budget, c'⟩) h (h.orderly.wrote step)
    (h.follows.wrote step) rfl rfl ?_ ?_ ?_
  · cases step with
    | fails => exact abort_next c
    | _ => rfl
  · intro live
    cases step with
    | cutOff habort _ =>
        rw [show c.aborted = false from live] at habort
        contradiction
    | begins hlive hready houtgoing => exact ⟨hlive, rfl, by simp [begunIn, hready, houtgoing]⟩
    | done hlive hready _ => exact ⟨hlive, rfl, by simp [begunIn, hready]⟩
    | fails _ _ _ =>
        have habort := abort_aborted c
        rw [show c.abort.1.aborted = false from live] at habort
        contradiction
    | completes hlive hwriting => exact ⟨hlive, rfl, by simp [begunIn, hwriting]⟩
    | writes hlive hwriting => exact ⟨hlive, rfl, by simp [begunIn, hwriting]⟩
  · intro hbegun
    cases step with
    | begins hlive _ _ => exact hlive
    | completes hlive _ => exact hlive
    | writes hlive _ => exact hlive
    | done hlive _ _ => exact hlive
    | cutOff _ _ =>
        refine absurd ?_ hbegun
        unfold begunIn
        split
        · contradiction
        · rfl
    | fails _ hwriting _ =>
        refine absurd ?_ hbegun
        simp [begunIn, hwriting]

/-- An abort keeps it. -/
theorem Recorded.abort (h : Recorded past c) :
    Recorded (past ++ [⟨c, .abort, c.abort.1⟩]) c.abort.1 := by
  refine Recorded.quiet (m := ⟨c, .abort, c.abort.1⟩) h h.orderly.abort h.follows.abort rfl rfl
    (abort_next c) ?_ ?_
  · intro live
    rw [show (⟨c, .abort, c.abort.1⟩ : Moment Connection Act).after = c.abort.1 from rfl,
      abort_aborted] at live
    contradiction
  · exact fun hne => absurd (begunIn_eq_nil (abort_writer c)) hne

/-- Every act keeps it. -/
theorem Recorded.act (h : Recorded past c) {act : Act} (step : c.act? act = some c') :
    Recorded (past ++ [⟨c, act, c'⟩]) c' := by
  cases act with
  | deliver sequence r =>
      cases step
      exact h.deliver sequence r
  | write budget =>
      obtain ⟨⟨c'', journal⟩, hstep, rfl⟩ := Option.map_eq_some_iff.mp step
      exact h.wrote (wrote_of_writerStep? hstep)
  | finish expected =>
      cases step
      exact Recorded.idle (m := ⟨c, .finish expected, _⟩) h rfl rfl rfl rfl rfl rfl rfl rfl rfl
  | abort =>
      cases step
      exact h.abort
  | startWriter =>
      cases step
      obtain ⟨hnext, hpending, houtgoing, haborted⟩ := startWriter_same c
      refine Recorded.quiet (m := ⟨c, .startWriter, _⟩) h h.orderly.startWriter
        h.follows.startWriter rfl rfl hnext ?_ ?_
      · intro live
        refine ⟨haborted ▸ live, hpending, ?_⟩
        rw [begunIn_startWriter, List.nil_append, houtgoing]
      · exact fun hne => absurd begunIn_startWriter hne
  | clientWrites bs =>
      cases step
      refine Recorded.idle (m := ⟨c, .clientWrites bs, _⟩) h rfl rfl ?_ ?_ ?_ ?_ ?_ ?_ ?_
      all_goals
        simp only [clientWrites]
        split <;> rfl
  | clientFinishes =>
      cases step
      exact Recorded.idle (m := ⟨c, .clientFinishes, _⟩) h rfl rfl rfl rfl rfl rfl rfl rfl rfl
  | clientReads count =>
      cases step
      exact Recorded.idle (m := ⟨c, .clientReads count, _⟩) h rfl rfl rfl rfl rfl rfl rfl rfl rfl
  | clientCloses =>
      cases step
      refine Recorded.idle (m := ⟨c, .clientCloses, _⟩) h rfl rfl ?_ ?_ ?_ ?_ ?_ ?_ ?_
      all_goals
        simp only [clientCloses]
        split <;> rfl

theorem recorded_run {client : Nat} {capacity : Option Nat}
    (run : Run act? { client, capacity } past c) : Recorded past c := by
  induction run with
  | start => exact recorded_fresh client capacity
  | snoc _ step ih => exact ih.act step

/-- On a live connection the numbers answered are those accepted. -/
theorem Recorded.isAnswered_iff_accepted (h : Recorded past c) (live : c.aborted = false)
    {k : Nat} : c.isAnswered k = true ↔ k ∈ (accepted past).map Prod.fst := by
  constructor
  · intro hk
    rcases isAnswered_iff.mp hk with hlt | ⟨r, hr⟩
    · obtain ⟨r, hr⟩ := h.follows.passed k hlt
      exact List.mem_map_of_mem (mem_of_answerIn hr)
    · exact List.mem_map_of_mem (mem_of_answerIn (h.follows.waiting _ hr))
  · intro hk
    obtain ⟨p, hp, rfl⟩ := List.mem_map.mp hk
    exact h.kept live p hp

/-! ## What the socket holds -/

/-- The socket holds the last of the bytes sent, and no more than there is room for. -/
structure Contained (c : Connection) : Prop where
  last : c.unseen <:+ c.written
  fits : ∀ n, c.capacity = some n → c.unseen.length ≤ n + 1

/-- An act that sends nothing. -/
theorem Contained.kept (h : Contained c) (unseen : c'.unseen <:+ c.unseen)
    (written : c'.written = c.written) (capacity : c'.capacity = c.capacity) :
    Contained c' where
  last := by
    rw [written]
    exact unseen.trans h.last
  fits := by
    rw [capacity]
    exact fun n hn => unseen.length_le.trans (h.fits n hn)

theorem Contained.writePiece (h : Contained c) (offered : Nat) (rest : Bytes) :
    Contained (c.writePiece (c.allowance offered) rest) := by
  have hlast : c.unseen ++ rest.take (c.allowance offered) <:+
      c.written ++ rest.take (c.allowance offered) := by
    obtain ⟨front, hfront⟩ := h.last
    exact ⟨front, by rw [← hfront, List.append_assoc]⟩
  have hfits (n : Nat) (hn : c.capacity = some n) :
      (c.unseen ++ rest.take (c.allowance offered)).length ≤ n + 1 := by
    have hbefore := h.fits n hn
    have hallowed : c.allowance offered ≤ n + 1 - c.unseen.length := by
      rw [allowance, hn]
      exact Nat.min_le_right _ _
    rw [List.length_append, List.length_take]
    omega
  unfold Connection.writePiece
  dsimp only
  split <;> exact ⟨hlast, hfits⟩

theorem Contained.abort (h : Contained c) : Contained c.abort.1 := by
  unfold Connection.abort
  split
  · exact h
  · exact h.kept List.suffix_rfl rfl rfl

theorem Contained.writerStep {budget : Nat} {journal : Log.Journal} (h : Contained c)
    (step : c.writerStep? budget = some (c', journal)) : Contained c' := by
  cases hw : c.writer with
  | writing rest =>
      rw [writerStep?_writing hw] at step
      split_ifs at step <;> cases step
      · exact h.kept List.suffix_rfl rfl rfl
      · exact h.abort.kept List.suffix_rfl rfl rfl
      · exact h.writePiece _ rest
  | ready =>
      simp only [writerStep?, hw] at step
      split at step
      · cases step
        exact h.kept List.suffix_rfl rfl rfl
      · split at step
        · cases step
          exact h.kept List.suffix_rfl rfl rfl
        · split at step <;> cases step
          exact h.kept List.suffix_rfl rfl rfl
  | absent | ended => simp [writerStep?, hw] at step

theorem Contained.act (h : Contained c) {act : Act} (step : c.act? act = some c') :
    Contained c' := by
  cases act with
  | write budget =>
      obtain ⟨⟨c'', journal⟩, hstep, rfl⟩ := Option.map_eq_some_iff.mp step
      exact h.writerStep hstep
  | clientReads count =>
      cases step
      exact h.kept (List.drop_suffix _ _) rfl rfl
  | abort =>
      cases step
      exact h.abort
  | deliver sequence r =>
      cases step
      rcases c.deliver_cases sequence r with hsame | ⟨-, -, htaken⟩
      · rwa [hsame]
      · rw [htaken]
        exact h.kept List.suffix_rfl rfl rfl
  | finish | clientFinishes =>
      cases step
      exact h.kept List.suffix_rfl rfl rfl
  | startWriter =>
      cases step
      unfold Connection.startWriter
      split
      · exact h
      · exact h.kept List.suffix_rfl rfl rfl
  | clientWrites bs =>
      cases step
      unfold Connection.clientWrites
      split
      · exact h
      · exact h.kept List.suffix_rfl rfl rfl
  | clientCloses =>
      cases step
      unfold Connection.clientCloses
      split
      · exact h
      · exact h.kept List.suffix_rfl rfl rfl

/-- Whatever is done to a connection, its socket never holds more than it can, and what it
holds is what its client has not read of the bytes sent. -/
theorem contained_run {client : Nat} {capacity : Option Nat}
    (run : Run act? { client, capacity } past c) : Contained c := by
  refine run.keeps (fun c act c' h step => h.act step) ⟨List.suffix_rfl, ?_⟩
  exact fun n _ => Nat.zero_le _

/-- **A writer is held up by nothing but a full socket**, and goes on as soon as its client
reads a byte. -/
theorem stalled_until_read (h : Contained c) (stalled : c.isStalled = true) :
    (∃ n, c.capacity = some n ∧ c.unseen.length = n + 1) ∧
      ∀ count budget, 0 < count → ((c.clientTakes count).2.writerStep? budget).isSome := by
  obtain ⟨rest, hw, hlive, hthere, hfull⟩ := isStalled_iff.mp stalled
  cases hcapacity : c.capacity with
  | none => simp [hasRoom, hcapacity] at hfull
  | some n =>
      have hfits := h.fits n hcapacity
      simp only [hasRoom, hcapacity, Option.all_some, decide_eq_false_iff_not, not_le] at hfull
      refine ⟨⟨n, rfl, Nat.le_antisymm hfits hfull⟩, ?_⟩
      intro count budget hcount
      have hroom : (c.clientTakes count).2.hasRoom = true := by
        simp only [clientTakes, hasRoom, hcapacity, Option.all_some, decide_eq_true_eq,
          List.length_drop]
        omega
      have hwriting : (c.clientTakes count).2.writer = .writing rest := hw
      rw [writerStep?_writing hwriting, hroom]
      simp [clientTakes, hlive, hthere]

/-! ## After an abort -/

/-- An aborted connection stays aborted; it accepts nothing and begins no frame. -/
theorem act?_aborted {act : Act} (habort : c.aborted = true) (step : c.act? act = some c') :
    c'.aborted = true ∧ acceptedIn ⟨c, act, c'⟩ = [] ∧ begunIn ⟨c, act, c'⟩ = [] := by
  cases act with
  | deliver sequence r =>
      cases step
      have hrefused : c.aborted = true ∨ c.isAnswered sequence = true := Or.inl habort
      obtain ⟨hfalse, hsame⟩ := deliver_refused (r := r) hrefused
      rw [hsame]
      exact ⟨habort, by simp [acceptedIn, hfalse], begunIn_eq_nil rfl⟩
  | write budget =>
      obtain ⟨⟨c'', journal⟩, hstep, rfl⟩ := Option.map_eq_some_iff.mp step
      have hwrote := wrote_of_writerStep? hstep
      cases hwrote with
      | cutOff _ _ =>
          refine ⟨habort, rfl, ?_⟩
          unfold begunIn
          split
          · contradiction
          · rfl
      | begins hlive _ _ => exact absurd hlive (by simp [habort])
      | done hlive _ _ => exact absurd hlive (by simp [habort])
      | fails hlive _ _ => exact absurd hlive (by simp [habort])
      | completes hlive _ => exact absurd hlive (by simp [habort])
      | writes hlive _ => exact absurd hlive (by simp [habort])
  | finish expected =>
      cases step
      exact ⟨habort, rfl, begunIn_eq_nil rfl⟩
  | abort =>
      cases step
      exact ⟨abort_aborted c, rfl, begunIn_eq_nil (abort_writer c)⟩
  | startWriter =>
      cases step
      obtain ⟨-, -, -, haborted⟩ := startWriter_same c
      exact ⟨haborted.trans habort, rfl, begunIn_startWriter⟩
  | clientWrites bs =>
      cases step
      have hsame : c.clientWrites bs = c := by simp [clientWrites, habort]
      rw [hsame]
      exact ⟨habort, rfl, begunIn_eq_nil rfl⟩
  | clientFinishes =>
      cases step
      exact ⟨habort, rfl, begunIn_eq_nil rfl⟩
  | clientReads count =>
      cases step
      exact ⟨habort, rfl, begunIn_eq_nil rfl⟩
  | clientCloses =>
      cases step
      have hsame : c.clientCloses.aborted = c.aborted ∧ c.clientCloses.writer = c.writer := by
        unfold clientCloses
        split <;> exact ⟨rfl, rfl⟩
      exact ⟨hsame.1.trans habort, rfl, begunIn_eq_nil hsame.2⟩

theorem aborted_for_good (habort : c.aborted = true) (run : Run act? c later c') :
    c'.aborted = true ∧ accepted later = [] ∧ begun later = [] := by
  induction run with
  | start => exact ⟨habort, rfl, rfl⟩
  | snoc _ step ih =>
      obtain ⟨hab, hacc, hbegun⟩ := ih
      obtain ⟨hab', hacc', hbegun'⟩ := act?_aborted hab step
      refine ⟨hab', ?_, ?_⟩
      · rw [accepted_snoc, hacc, hacc', List.append_nil]
      · rw [begun_snoc, hbegun, hbegun', List.append_nil]

/-! ## What a run comes to -/

/-- **Each sequence number is answered once, and the answers leave in order.** Along every
run a delivery is accepted exactly when the connection is not aborted and its number was
never accepted before. What has been handed to the writer are the bodies for the numbers
0, 1, ..., `next - 1`, and `next` is the least number never accepted; the writer takes them
in this order. Everything that waits has a later number, and the counters add up until the
connection is aborted. From then on nothing waits, nothing is accepted and no frame is
begun, however the run goes on. Numbers are unbounded here, the 64-bit ones among them. -/
theorem answered_once_and_in_order {client : Nat} {capacity : Option Nat}
    (run : Run act? { client, capacity } past c) :
    (∀ sequence r, (c.deliver sequence r).1 = true ↔
      c.aborted = false ∧ sequence ∉ (accepted past).map Prod.fst) ∧
    ((accepted past).map Prod.fst).Nodup ∧
    IsLeast {k | k ∉ (accepted past).map Prod.fst} c.next ∧
    (handed past).length = c.next ∧
    handed past = bodies (answerIn past) c.next ∧
    begun past <+: handed past ∧
    (∀ p ∈ c.pending, c.next < p.1) ∧
    (c.aborted = false → begun past ++ c.outgoing = handed past ∧
      c.sent + c.writer.underway + c.outgoing.length = c.next) ∧
    (c.aborted = true → c.pending = [] ∧ c.outgoing = [] ∧
      ∀ later c', Run act? c later c' → c'.aborted = true ∧ c'.pending = [] ∧
        c'.outgoing = [] ∧ accepted later = [] ∧ begun later = []) := by
  have h := recorded_run run
  refine ⟨?_, h.nodup, ⟨h.gap, ?_⟩, ?_, h.handed_eq, h.begun_prefix, h.orderly.early, ?_, ?_⟩
  · intro sequence r
    rw [deliver_accepts_iff]
    refine and_congr_right fun live => ?_
    rw [Bool.eq_false_iff, not_iff_not]
    exact h.isAnswered_iff_accepted live
  · intro k hk
    by_contra hlt
    obtain ⟨r, hr⟩ := h.follows.passed k (Nat.lt_of_not_le hlt)
    exact hk (List.mem_map_of_mem (mem_of_answerIn hr))
  · rw [h.handed_eq]
    exact length_bodies h.follows.passed
  · exact fun live => ⟨h.begun_append live, h.orderly.counted live⟩
  · intro habort
    obtain ⟨hpending, houtgoing⟩ := h.orderly.cleared habort
    refine ⟨hpending, houtgoing, ?_⟩
    intro later c' rest
    obtain ⟨habort', hacc, hbegun⟩ := aborted_for_good habort rest
    obtain ⟨hpending', houtgoing'⟩ := (recorded_run (run.append rest)).orderly.cleared habort'
    exact ⟨habort', hpending', houtgoing', hacc, hbegun⟩

/-- Responses 2 and 0 arrive, 0 once more, the writer begins, and the client is cut off. -/
theorem answered_once_and_in_order_early_and_twice :
    ∃ past c, Run act? { client := 7 } past c ∧
      (accepted past).map Prod.fst = [2, 0] ∧ c.next = 1 ∧ c.aborted = true ∧
      IsLeast {k | k ∉ (accepted past).map Prod.fst} c.next ∧
      handed past = bodies (answerIn past) c.next := by
  have hrun : (perform? act? { client := 7 }
      [.deliver 2 (.ok 5), .deliver 0 (.ok 3), .deliver 0 (.ok 4), .startWriter, .write 0,
        .abort]).map (fun p => ((accepted p.1).map Prod.fst, p.2.next, p.2.aborted)) =
      some ([2, 0], 1, true) := by decide +kernel
  obtain ⟨⟨past, c⟩, hperform, hshows⟩ := Option.map_eq_some_iff.mp hrun
  obtain ⟨hacc, hnext, habort⟩ := by simpa using hshows
  have run := Run.of_perform? hperform
  obtain ⟨-, -, hleast, -, hhanded, -⟩ := answered_once_and_in_order run
  exact ⟨past, c, run, hacc, hnext, habort, hleast, hhanded⟩

end SearchDaemon.Connection
