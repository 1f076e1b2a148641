import Mathlib.Data.List.Basic
import Mathlib.Tactic.Tauto
import SearchDaemon.Connection

/-!
# Responses on their way to a client

What every operation on a connection keeps. `Orderly` relates the responses that
arrived early, the bodies that wait for the writer and the counters to each other.
`Follows` says that whatever the connection holds or has written are the answers to
the requests 0, 1, 2, ... of its client, in this order, where `answer` tells the
answer to each request: it may be all responses ever accepted, or what a processor
returns for the requests a client has sent.
-/

namespace SearchDaemon

/-- The frames a writer is in the middle of. -/
def Writer.underway : Writer → Nat
  | .writing _ => 1
  | _ => 0

/-- The body in which a response travels. -/
def Response.body (r : Response) : Bytes := (Message.ofResponse r).encode

/-- A response as it travels. -/
def Response.frame (r : Response) : Bytes := Frame.encode r.body

namespace Connection

/-! ## Taking responses in order -/

/-- The bodies of the answers to the first `n` requests. -/
def bodies (answer : Nat → Option Response) (n : Nat) : List Bytes :=
  (List.range n).filterMap fun i => (answer i).map Response.body

theorem bodies_succ {answer : Nat → Option Response} {n : Nat} {r : Response}
    (h : answer n = some r) : bodies answer (n + 1) = bodies answer n ++ [r.body] := by
  simp [bodies, List.range_succ, List.filterMap_append, h]

theorem bodies_congr {answer answer' : Nat → Option Response} {n : Nat}
    (h : ∀ i < n, answer i = answer' i) : bodies answer n = bodies answer' n := by
  unfold bodies
  apply List.filterMap_congr
  intro i hi
  rw [h i (List.mem_range.mp hi)]

theorem length_bodies {answer : Nat → Option Response} {n : Nat}
    (h : ∀ i < n, ∃ r, answer i = some r) : (bodies answer n).length = n := by
  induction n with
  | zero => rfl
  | succ n ih =>
      obtain ⟨r, hr⟩ := h n (Nat.lt_succ_self n)
      rw [bodies_succ hr, List.length_append, ih fun i hi => h i (Nat.lt_succ_of_lt hi)]
      rfl

theorem bodies_mono (answer : Nat → Option Response) {k n : Nat} (le : k ≤ n) :
    bodies answer k <+: bodies answer n := by
  obtain ⟨d, rfl⟩ := Nat.exists_eq_add_of_le le
  rw [bodies, bodies, List.range_add, List.filterMap_append]
  exact List.prefix_append _ _

/-- The bodies of the first answers are the first bodies. -/
theorem bodies_take {answer : Nat → Option Response} {k n : Nat} (le : k ≤ n)
    (known : ∀ i < n, ∃ r, answer i = some r) :
    (bodies answer n).take k = ((List.range k).filterMap answer).map Response.body := by
  have hfirst : (bodies answer k).length = k :=
    length_bodies fun i hi => known i (Nat.lt_of_lt_of_le hi le)
  have htake := List.prefix_iff_eq_take.mp (bodies_mono answer le)
  rw [hfirst] at htake
  rw [← htake, bodies, List.map_filterMap]

theorem map_some_filterMap {f : Nat → Option Response} {ks : List Nat}
    (known : ∀ k ∈ ks, ∃ r, f k = some r) : (ks.filterMap f).map some = ks.map f := by
  induction ks with
  | nil => rfl
  | cons k ks ih =>
      obtain ⟨r, hr⟩ := known k List.mem_cons_self
      rw [List.filterMap_cons_some hr, List.map_cons, List.map_cons, hr,
        ih fun k' hk' => known k' (List.mem_cons_of_mem _ hk')]

/-- One more response under a number changes no answer that is known. -/
theorem lookup_snoc_of_some {answers : List (Nat × Response)} {p : Nat × Response} {i : Nat}
    {r : Response} (h : answers.lookup i = some r) : (answers ++ [p]).lookup i = some r := by
  rw [List.lookup_append, h]
  rfl

theorem lookup_snoc_new {answers : List (Nat × Response)} {i : Nat} {r : Response}
    (fresh : ∀ p ∈ answers, p.1 ≠ i) : (answers ++ [(i, r)]).lookup i = some r := by
  rw [List.lookup_append, List.lookup_eq_none_iff.mpr]
  · simp
  · intro p hp
    simpa using (fresh p hp).symm

theorem mem_insertEarly {k : Nat} {r : Response} {p : Nat × Response} :
    ∀ {l : List (Nat × Response)}, p ∈ insertEarly k r l ↔ p = (k, r) ∨ p ∈ l
  | [] => by simp [insertEarly]
  | (j, q) :: l => by
      by_cases h : k < j
      · simp [insertEarly, h]
      · rw [insertEarly, if_neg h, List.mem_cons, mem_insertEarly (l := l), List.mem_cons]
        tauto

theorem insertEarly_sorted {k : Nat} {r : Response} : ∀ {l : List (Nat × Response)},
    l.Pairwise (·.1 < ·.1) → (∀ p ∈ l, p.1 ≠ k) →
      (insertEarly k r l).Pairwise (·.1 < ·.1)
  | [], _, _ => List.pairwise_singleton _ _
  | (j, q) :: l, hl, hne => by
      rcases List.pairwise_cons.mp hl with ⟨hj, hl'⟩
      by_cases h : k < j
      · rw [insertEarly, if_pos h]
        refine List.pairwise_cons.mpr ⟨?_, hl⟩
        intro p hp
        rcases List.mem_cons.mp hp with rfl | hp
        · exact h
        · exact Nat.lt_trans h (hj p hp)
      · rw [insertEarly, if_neg h]
        refine List.pairwise_cons.mpr ⟨?_, ?_⟩
        · intro p hp
          rcases mem_insertEarly.mp hp with rfl | hp
          · have := hne (j, q) List.mem_cons_self
            dsimp only at this ⊢
            omega
          · exact hj p hp
        · exact insertEarly_sorted hl' fun p hp => hne p (List.mem_cons_of_mem _ hp)

/-- What is left still waits in the order it had. -/
theorem inOrder_left_sublist (next : Nat) (l : List (Nat × Response)) :
    (inOrder next l).2.2.Sublist l := by
  fun_induction inOrder next l with
  | case1 => exact List.Sublist.slnil
  | case2 _ _ _ _ _ _ h ih =>
      rw [h] at ih
      exact ih.cons _
  | case3 => exact List.Sublist.refl _

/-- The next number moves by one for each body that is taken. -/
theorem inOrder_next (next : Nat) (l : List (Nat × Response)) :
    (inOrder next l).1 = next + (inOrder next l).2.1.length := by
  fun_induction inOrder next l with
  | case1 => rfl
  | case2 _ _ _ _ _ _ h ih =>
      rw [h] at ih
      dsimp only at ih ⊢
      rw [List.length_cons]
      omega
  | case3 => rfl

/-- Nothing that is left could have been taken. -/
theorem inOrder_left_later {next : Nat} {l : List (Nat × Response)}
    (sorted : l.Pairwise (·.1 < ·.1)) (later : ∀ p ∈ l, next ≤ p.1) :
    ∀ p ∈ (inOrder next l).2.2, (inOrder next l).1 < p.1 := by
  fun_induction inOrder next l with
  | case1 => exact fun p hp => absurd hp List.not_mem_nil
  | case2 k r rest _ _ _ h ih =>
      rcases List.pairwise_cons.mp sorted with ⟨hfirst, hrest⟩
      rw [h] at ih
      exact ih hrest fun p hp => hfirst p hp
  | case3 next k r rest hne =>
      rcases List.pairwise_cons.mp sorted with ⟨hfirst, -⟩
      have hk : next < k := Nat.lt_of_le_of_ne (later _ List.mem_cons_self) (Ne.symm hne)
      intro p hp
      rcases List.mem_cons.mp hp with rfl | hp
      · exact hk
      · exact Nat.lt_trans hk (hfirst p hp)

/-- A response is left, or was taken under a number that is now passed. -/
theorem inOrder_left_or_passed (next : Nat) {l : List (Nat × Response)} :
    ∀ p ∈ l, p ∈ (inOrder next l).2.2 ∨ (next ≤ p.1 ∧ p.1 < (inOrder next l).1) := by
  fun_induction inOrder next l with
  | case1 => exact fun p hp => absurd hp List.not_mem_nil
  | case2 k r rest last taken left h ih =>
      have hnext := inOrder_next (k + 1) rest
      rw [h] at ih hnext
      dsimp only at ih hnext
      intro p hp
      rcases List.mem_cons.mp hp with rfl | hp
      · exact Or.inr ⟨Nat.le_refl _, by dsimp only; omega⟩
      · rcases ih p hp with hleft | ⟨hle, hlt⟩
        · exact Or.inl hleft
        · exact Or.inr ⟨by omega, hlt⟩
  | case3 => exact fun p hp => Or.inl hp

/-- Every number passed had its response waiting. -/
theorem inOrder_passed {next : Nat} {l : List (Nat × Response)} {i : Nat} (le : next ≤ i)
    (lt : i < (inOrder next l).1) : ∃ r, (i, r) ∈ l := by
  fun_induction inOrder next l with
  | case1 => exact absurd lt (Nat.not_lt.mpr le)
  | case2 k r rest last taken left h ih =>
      rw [h] at ih
      rcases Nat.eq_or_lt_of_le le with rfl | hlt
      · exact ⟨r, List.mem_cons_self⟩
      · obtain ⟨q, hq⟩ := ih hlt lt
        exact ⟨q, List.mem_cons_of_mem _ hq⟩
  | case3 => exact absurd lt (Nat.not_lt.mpr le)

/-- The bodies taken are those of the numbers passed. -/
theorem bodies_inOrder {answer : Nat → Option Response} (next : Nat)
    {l : List (Nat × Response)} (h : ∀ p ∈ l, answer p.1 = some p.2) :
    bodies answer (inOrder next l).1 = bodies answer next ++ (inOrder next l).2.1 := by
  fun_induction inOrder next l with
  | case1 => simp
  | case2 k r rest last taken left heq ih =>
      have hfirst := h (k, r) List.mem_cons_self
      have hrest := ih fun p hp => h p (List.mem_cons_of_mem _ hp)
      rw [heq, bodies_succ hfirst] at hrest
      dsimp only at hrest ⊢
      rw [hrest, List.append_assoc]
      rfl
  | case3 => simp

/-! ## The invariants -/

/-- The responses that arrived early, the bodies that wait and the counters fit together. -/
structure Orderly (c : Connection) : Prop where
  sorted : c.pending.Pairwise (·.1 < ·.1)
  early : ∀ p ∈ c.pending, c.next < p.1
  counted : c.aborted = false → c.sent + c.writer.underway + c.outgoing.length = c.next
  cleared : c.aborted = true → c.pending = [] ∧ c.outgoing = []

/-- What the connection holds and has written are the answers in their order. -/
structure Follows (answer : Nat → Option Response) (c : Connection) : Prop where
  waiting : ∀ p ∈ c.pending, answer p.1 = some p.2
  passed : ∀ i < c.next, ∃ r, answer i = some r
  stream : c.aborted = false →
    c.written ++ c.writer.left ++ c.outgoing.flatMap Frame.encode =
      (bodies answer c.next).flatMap Frame.encode
  written : c.written <+: (bodies answer c.next).flatMap Frame.encode

variable {c c' : Connection} {answer answer' : Nat → Option Response}

theorem orderly_fresh (client : Nat) (capacity : Option Nat) : Orderly { client, capacity } :=
  ⟨List.Pairwise.nil, fun _ h => absurd h List.not_mem_nil, fun _ => rfl, fun _ => ⟨rfl, rfl⟩⟩

theorem follows_fresh (answer : Nat → Option Response) (client : Nat)
    (capacity : Option Nat) : Follows answer { client, capacity } :=
  ⟨fun _ h => absurd h List.not_mem_nil, fun _ h => absurd h (Nat.not_lt_zero _),
    fun _ => rfl, List.prefix_refl _⟩

/-- More answers may become known. -/
theorem Follows.mono (h : Follows answer c)
    (more : ∀ i r, answer i = some r → answer' i = some r) : Follows answer' c := by
  have hsame : bodies answer c.next = bodies answer' c.next := by
    apply bodies_congr
    intro i hi
    obtain ⟨r, hr⟩ := h.passed i hi
    rw [hr, more i r hr]
  refine ⟨fun p hp => more _ _ (h.waiting p hp), ?_, ?_, ?_⟩
  · intro i hi
    obtain ⟨r, hr⟩ := h.passed i hi
    exact ⟨r, more i r hr⟩
  · rw [← hsame]
    exact h.stream
  · rw [← hsame]
    exact h.written

/-! ## Delivering -/

theorem isAnswered_iff {k : Nat} :
    c.isAnswered k = true ↔ k < c.next ∨ ∃ r, (k, r) ∈ c.pending := by
  simp only [isAnswered, Bool.or_eq_true, decide_eq_true_eq, List.any_eq_true]
  constructor
  · rintro (h | ⟨⟨j, r⟩, hp, rfl⟩)
    · exact Or.inl h
    · exact Or.inr ⟨r, hp⟩
  · rintro (h | ⟨r, hp⟩)
    · exact Or.inl h
    · exact Or.inr ⟨(k, r), hp, rfl⟩

/-- The first number that is not passed has no response yet. -/
theorem Orderly.next_unanswered (h : Orderly c) : c.isAnswered c.next = false := by
  rw [Bool.eq_false_iff, Ne, isAnswered_iff]
  rintro (hlt | ⟨r, hp⟩)
  · exact Nat.lt_irrefl _ hlt
  · exact Nat.lt_irrefl _ (h.early _ hp)

/-- The connection with one more response, when it takes one. -/
def taking (c : Connection) (sequence : Nat) (r : Response) : Connection :=
  let found := inOrder c.next (insertEarly sequence r c.pending)
  { c with next := found.1, pending := found.2.2, outgoing := c.outgoing ++ found.2.1 }

theorem deliver_taken {sequence : Nat} {r : Response} (live : c.aborted = false)
    (new : c.isAnswered sequence = false) :
    c.deliver sequence r = (true, c.taking sequence r, []) := by
  simp [deliver, live, new, taking]

theorem deliver_refused {sequence : Nat} {r : Response}
    (h : c.aborted = true ∨ c.isAnswered sequence = true) :
    (c.deliver sequence r).1 = false ∧ (c.deliver sequence r).2.1 = c := by
  unfold deliver
  split
  · exact ⟨rfl, rfl⟩
  · rename_i hlive
    rcases h with h | h
    · exact absurd h hlive
    · rw [if_pos h]
      exact ⟨rfl, rfl⟩

/-- A delivery changes nothing, or a live connection takes it under a new number. -/
theorem deliver_cases (c : Connection) (sequence : Nat) (r : Response) :
    (c.deliver sequence r).2.1 = c ∨
      c.aborted = false ∧ c.isAnswered sequence = false ∧
        (c.deliver sequence r).2.1 = c.taking sequence r := by
  by_cases hr : c.aborted = true ∨ c.isAnswered sequence = true
  · exact Or.inl (deliver_refused hr).2
  · rw [not_or, Bool.not_eq_true, Bool.not_eq_true] at hr
    exact Or.inr ⟨hr.1, hr.2, by rw [deliver_taken hr.1 hr.2]⟩

/-- A response is accepted exactly once, and never after an abort. -/
theorem deliver_accepts_iff {sequence : Nat} {r : Response} :
    (c.deliver sequence r).1 = true ↔ c.aborted = false ∧ c.isAnswered sequence = false := by
  constructor
  · intro h
    by_contra hno
    rw [not_and_or, Bool.not_eq_false, Bool.not_eq_false] at hno
    rw [(deliver_refused hno).1] at h
    contradiction
  · rintro ⟨live, new⟩
    rw [deliver_taken live new]

theorem isAnswered_taking {sequence k : Nat} {r : Response} :
    (c.taking sequence r).isAnswered k = true ↔ c.isAnswered k = true ∨ k = sequence := by
  simp only [isAnswered_iff, taking]
  -- What is filed is either passed at once or left to wait.
  constructor
  · rintro (hlt | ⟨q, hq⟩)
    · by_cases hk : k < c.next
      · exact Or.inl (Or.inl hk)
      · obtain ⟨q, hq⟩ := inOrder_passed (Nat.le_of_not_lt hk) hlt
        rcases mem_insertEarly.mp hq with h | h
        · exact Or.inr (congrArg Prod.fst h)
        · exact Or.inl (Or.inr ⟨q, h⟩)
    · rcases mem_insertEarly.mp ((inOrder_left_sublist _ _).subset hq) with h | h
      · exact Or.inr (congrArg Prod.fst h)
      · exact Or.inl (Or.inr ⟨q, h⟩)
  · have hnext := inOrder_next c.next (insertEarly sequence r c.pending)
    have found : ∀ q, (k, q) ∈ insertEarly sequence r c.pending →
        k < (inOrder c.next (insertEarly sequence r c.pending)).1 ∨
          ∃ q, (k, q) ∈ (inOrder c.next (insertEarly sequence r c.pending)).2.2 := by
      intro q hq
      rcases inOrder_left_or_passed c.next _ hq with h | h
      · exact Or.inr ⟨q, h⟩
      · exact Or.inl h.2
    rintro ((hlt | ⟨q, hq⟩) | rfl)
    · exact Or.inl (by omega)
    · exact found q (mem_insertEarly.mpr (Or.inr hq))
    · exact found r (mem_insertEarly.mpr (Or.inl rfl))

/-- The numbers in which a new response may be filed. -/
theorem Orderly.new_response (h : Orderly c) {sequence : Nat} {r : Response}
    (new : c.isAnswered sequence = false) :
    (insertEarly sequence r c.pending).Pairwise (·.1 < ·.1) ∧
      ∀ p ∈ insertEarly sequence r c.pending, c.next ≤ p.1 := by
  rw [Bool.eq_false_iff, Ne, isAnswered_iff] at new
  constructor
  · apply insertEarly_sorted h.sorted
    rintro ⟨k, q⟩ hp rfl
    exact new (Or.inr ⟨q, hp⟩)
  · intro p hp
    rcases mem_insertEarly.mp hp with rfl | hp
    · exact Nat.le_of_not_lt fun hlt => new (Or.inl hlt)
    · exact Nat.le_of_lt (h.early p hp)

theorem Orderly.taking (h : Orderly c) {sequence : Nat} {r : Response}
    (live : c.aborted = false) (new : c.isAnswered sequence = false) :
    Orderly (c.taking sequence r) := by
  obtain ⟨hsorted, hle⟩ := h.new_response (r := r) new
  refine ⟨hsorted.sublist (inOrder_left_sublist _ _), inOrder_left_later hsorted hle, ?_, ?_⟩
  · intro _
    have hcount := h.counted live
    have hnext := inOrder_next c.next (insertEarly sequence r c.pending)
    simp only [Connection.taking, List.length_append]
    omega
  · intro habort
    rw [show (c.taking sequence r).aborted = c.aborted from rfl, live] at habort
    contradiction

theorem Follows.taking (h : Follows answer c) {sequence : Nat} {r : Response}
    (right : answer sequence = some r) : Follows answer (c.taking sequence r) := by
  have hright : ∀ p ∈ insertEarly sequence r c.pending, answer p.1 = some p.2 := by
    intro p hp
    rcases mem_insertEarly.mp hp with rfl | hp
    · exact right
    · exact h.waiting p hp
  have hbodies := bodies_inOrder c.next hright
  refine ⟨fun p hp => hright p ((inOrder_left_sublist _ _).subset hp), ?_, ?_, ?_⟩
  · intro i hi
    by_cases hlt : i < c.next
    · exact h.passed i hlt
    · obtain ⟨q, hq⟩ := inOrder_passed (Nat.le_of_not_lt hlt) hi
      exact ⟨q, hright _ hq⟩
  · intro live
    have hstream := h.stream live
    simp only [Connection.taking, hbodies, List.flatMap_append, ← hstream, List.append_assoc]
  · simp only [Connection.taking, hbodies, List.flatMap_append]
    exact h.written.trans (List.prefix_append _ _)

theorem Orderly.deliver (h : Orderly c) (sequence : Nat) (r : Response) :
    Orderly (c.deliver sequence r).2.1 := by
  rcases c.deliver_cases sequence r with hsame | ⟨hlive, hnew, htaken⟩
  · rw [hsame]
    exact h
  · rw [htaken]
    exact h.taking hlive hnew

theorem Follows.deliver (h : Follows answer c) {sequence : Nat} {r : Response}
    (right : answer sequence = some r) : Follows answer (c.deliver sequence r).2.1 := by
  rcases c.deliver_cases sequence r with hsame | ⟨-, -, htaken⟩
  · rw [hsame]
    exact h
  · rw [htaken]
    exact h.taking right

/-- A delivery leaves a live connection with that number answered. -/
theorem isAnswered_deliver {sequence k : Nat} {r : Response} (live : c.aborted = false) :
    (c.deliver sequence r).2.1.isAnswered k = true ↔ c.isAnswered k = true ∨ k = sequence := by
  by_cases hr : c.isAnswered sequence = true
  · rw [(deliver_refused (Or.inr hr)).2]
    constructor
    · exact Or.inl
    · rintro (h | rfl)
      · exact h
      · exact hr
  · rw [deliver_taken live (Bool.eq_false_iff.mpr hr)]
    exact isAnswered_taking

/-! ## Aborting -/

@[simp] theorem abort_aborted (c : Connection) : c.abort.1.aborted = true := by
  unfold abort
  split
  · assumption
  · rfl

@[simp] theorem abort_client (c : Connection) : c.abort.1.client = c.client := by
  unfold abort
  split <;> rfl

@[simp] theorem abort_written (c : Connection) : c.abort.1.written = c.written := by
  unfold abort
  split <;> rfl

@[simp] theorem abort_next (c : Connection) : c.abort.1.next = c.next := by
  unfold abort
  split <;> rfl

@[simp] theorem abort_writer (c : Connection) : c.abort.1.writer = c.writer := by
  unfold abort
  split <;> rfl

@[simp] theorem abort_expected (c : Connection) : c.abort.1.expected = c.expected := by
  unfold abort
  split <;> rfl

@[simp] theorem abort_sent (c : Connection) : c.abort.1.sent = c.sent := by
  unfold abort
  split <;> rfl

@[simp] theorem abort_clientGone (c : Connection) : c.abort.1.clientGone = c.clientGone := by
  unfold abort
  split <;> rfl

@[simp] theorem abort_unread (c : Connection) : c.abort.1.inlet.unread = c.inlet.unread := by
  unfold abort
  split <;> rfl

theorem Orderly.abort_emptied (h : Orderly c) :
    c.abort.1.pending = [] ∧ c.abort.1.outgoing = [] := by
  unfold Connection.abort
  split
  · rename_i habort
    exact h.cleared habort
  · exact ⟨rfl, rfl⟩

theorem Orderly.abort (h : Orderly c) : Orderly c.abort.1 := by
  obtain ⟨hpending, houtgoing⟩ := h.abort_emptied
  refine ⟨?_, ?_, ?_, fun _ => ⟨hpending, houtgoing⟩⟩
  · rw [hpending]
    exact List.Pairwise.nil
  · rw [hpending]
    exact fun p hp => absurd hp List.not_mem_nil
  · intro live
    rw [abort_aborted] at live
    contradiction

theorem Follows.abort (h : Follows answer c) : Follows answer c.abort.1 := by
  refine ⟨?_, ?_, ?_, ?_⟩
  · unfold Connection.abort
    split
    · exact h.waiting
    · exact fun p hp => absurd hp List.not_mem_nil
  · rw [abort_next]
    exact h.passed
  · intro live
    rw [abort_aborted] at live
    contradiction
  · rw [abort_written, abort_next]
    exact h.written

/-! ## Writing -/

/-- Starting a writer leaves everything but the writer alone. -/
theorem startWriter_same (c : Connection) :
    c.startWriter.next = c.next ∧ c.startWriter.pending = c.pending ∧
      c.startWriter.outgoing = c.outgoing ∧ c.startWriter.aborted = c.aborted := by
  unfold startWriter
  split <;> exact ⟨rfl, rfl, rfl, rfl⟩

theorem startWriter_started (c : Connection) : c.startWriter.writer ≠ .absent := by
  unfold startWriter
  split
  · rename_i hrunning
    intro habsent
    rw [habsent] at hrunning
    contradiction
  · exact nofun

theorem Orderly.startWriter (h : Orderly c) : Orderly c.startWriter := by
  unfold Connection.startWriter
  split
  · exact h
  · rename_i hidle
    refine ⟨h.sorted, h.early, ?_, h.cleared⟩
    intro live
    have hcount := h.counted live
    cases hw : c.writer with
    | writing rest => simp [hw, Writer.isRunning] at hidle
    | _ => rwa [hw] at hcount

theorem Follows.startWriter (h : Follows answer c) : Follows answer c.startWriter := by
  unfold Connection.startWriter
  split
  · exact h
  · rename_i hidle
    refine ⟨h.waiting, h.passed, ?_, h.written⟩
    intro live
    have hstream := h.stream live
    cases hw : c.writer with
    | writing rest => simp [hw, Writer.isRunning] at hidle
    | _ => rwa [hw] at hstream

/-- A writer in the middle of a frame finds its connection aborted, or its client gone, or
sends what the socket has room for, and else waits. -/
theorem writerStep?_writing {rest : Bytes} (hwriting : c.writer = .writing rest) (budget : Nat) :
    c.writerStep? budget =
      if c.aborted then some ({ c with writer := .ended }, [])
      else if c.clientGone then
        some ({ c.abort.1 with writer := .ended },
          Log.warning (c.label ++ text ": failed to write response") :: c.abort.2)
      else if c.hasRoom then some (c.writePiece (c.allowance (budget + 1)) rest, [])
      else none := by
  simp only [writerStep?, hwriting, Poll.wait_output]
  cases c.aborted <;> cases c.clientGone <;> cases c.hasRoom <;> rfl

theorem allowance_pos (room : c.hasRoom = true) (budget : Nat) : 0 < c.allowance (budget + 1) := by
  unfold allowance
  cases hcapacity : c.capacity with
  | none => exact Nat.succ_pos budget
  | some capacity =>
      simp only [hasRoom, hcapacity, Option.all_some, decide_eq_true_eq] at room
      dsimp only
      omega

/-- Nobody waits for a client that has read everything. -/
theorem isFull_of_unseen (read : c.unseen = []) : c.isFull = false := by
  unfold isFull hasRoom
  cases c.capacity with
  | none => simp
  | some capacity => simp [read]

theorem isStalled_iff : c.isStalled = true ↔
    ∃ rest, c.writer = .writing rest ∧ c.aborted = false ∧ c.clientGone = false ∧
      c.hasRoom = false := by
  cases hw : c.writer <;> simp [isStalled, isFull, hw, Writer.isWriting]

/-- What one step of a writer can come to. -/
inductive Wrote (c : Connection) : Connection → Prop
  /-- The connection is aborted. -/
  | cutOff : c.aborted = true → c.writer.isRunning = true → Wrote c { c with writer := .ended }
  | begins {body : Bytes} {rest : List Bytes} :
      c.aborted = false → c.writer = .ready → c.outgoing = body :: rest →
      Wrote c { c with outgoing := rest, writer := .writing (Frame.encode body) }
  /-- Nothing is left to write, now or later. -/
  | done : c.aborted = false → c.writer = .ready → c.isFinished = true →
      Wrote c { c with writer := .ended }
  /-- The client has gone away. -/
  | fails {rest : Bytes} : c.aborted = false → c.writer = .writing rest → c.clientGone = true →
      Wrote c { c.abort.1 with writer := .ended }
  | completes {rest : Bytes} : c.aborted = false → c.writer = .writing rest →
      c.clientGone = false → c.hasRoom = true →
      Wrote c
        { c with
          written := c.written ++ rest
          unseen := c.unseen ++ rest
          sent := c.sent + 1
          writer := .ready }
  | writes {now later : Bytes} : c.aborted = false → c.writer = .writing (now ++ later) →
      c.clientGone = false → c.hasRoom = true → now ≠ [] →
      Wrote c
        { c with
          written := c.written ++ now
          unseen := c.unseen ++ now
          writer := .writing later }

/-- A writer that is not running does nothing. -/
theorem Wrote.running (step : Wrote c c') : c.writer.isRunning = true := by
  cases step with
  | cutOff _ hrunning => exact hrunning
  | begins _ hwriter | done _ hwriter | fails _ hwriter | completes _ hwriter
  | writes _ hwriter =>
      rw [hwriter]
      rfl

theorem wrote_of_writePiece {rest : Bytes} {budget : Nat} (live : c.aborted = false)
    (hwriting : c.writer = .writing rest) (there : c.clientGone = false)
    (room : c.hasRoom = true) : Wrote c (c.writePiece (c.allowance (budget + 1)) rest) := by
  have hpos := allowance_pos room budget
  generalize c.allowance (budget + 1) = amount at hpos ⊢
  unfold writePiece
  dsimp only
  split
  · rename_i hall
    have htake : rest.take amount = rest :=
      List.take_of_length_le (List.drop_eq_nil_iff.mp (List.isEmpty_iff.mp hall))
    rw [htake]
    exact .completes live hwriting there room
  · rename_i hsome
    refine .writes live (by rw [hwriting, List.take_append_drop]) there room ?_
    rw [Ne, List.take_eq_nil_iff, not_or]
    refine ⟨Nat.ne_of_gt hpos, ?_⟩
    rintro rfl
    simp at hsome

theorem wrote_of_writerStep? {budget : Nat} {journal : Log.Journal}
    (h : c.writerStep? budget = some (c', journal)) : Wrote c c' := by
  cases hw : c.writer with
  | absent | ended => simp [writerStep?, hw] at h
  | ready =>
      simp only [writerStep?, hw] at h
      split at h
      · rename_i habort
        cases h
        exact .cutOff habort (by rw [hw]; rfl)
      · rename_i hlive
        rw [Bool.not_eq_true] at hlive
        split at h
        · rename_i houtgoing
          cases h
          exact .begins hlive hw houtgoing
        · split at h
          · rename_i hfinished
            cases h
            exact .done hlive hw hfinished
          · contradiction
  | writing rest =>
      rw [writerStep?_writing hw] at h
      split at h
      · rename_i habort
        cases h
        exact .cutOff habort (by rw [hw]; rfl)
      · rename_i hlive
        rw [Bool.not_eq_true] at hlive
        split at h
        · rename_i hgone
          cases h
          exact .fails hlive hw hgone
        · rename_i hthere
          split at h
          · rename_i hroom
            cases h
            exact wrote_of_writePiece hlive hw (Bool.eq_false_iff.mpr hthere) hroom
          · contradiction

/-- A writer that runs waits for responses that are not there yet, or in the middle of a frame
for its client. -/
theorem writer_waits {budget : Nat} (running : c.writer.isRunning = true)
    (stuck : c.writerStep? budget = none) :
    c.aborted = false ∧
      (c.writer = .ready ∧ c.outgoing = [] ∧ c.isFinished = false ∨
        c.isStalled = true) := by
  cases hw : c.writer with
  | absent => simp [hw, Writer.isRunning] at running
  | ended => simp [hw, Writer.isRunning] at running
  | ready =>
      simp only [writerStep?, hw] at stuck
      split at stuck
      · contradiction
      · rename_i hlive
        split at stuck
        · contradiction
        · rename_i hempty
          split at stuck
          · contradiction
          · rename_i hmore
            exact ⟨Bool.eq_false_iff.mpr hlive,
              Or.inl ⟨rfl, hempty, Bool.eq_false_iff.mpr hmore⟩⟩
  | writing rest =>
      rw [writerStep?_writing hw] at stuck
      split at stuck
      · contradiction
      · rename_i hlive
        split at stuck
        · contradiction
        · rename_i hthere
          split at stuck
          · contradiction
          · rename_i hfull
            refine ⟨Bool.eq_false_iff.mpr hlive, Or.inr ?_⟩
            rw [isStalled, isFull, hw, Bool.eq_false_iff.mpr hlive, Bool.eq_false_iff.mpr hthere,
              Bool.eq_false_iff.mpr hfull]
            rfl

/-- A writer that need not wait for its client waits only for responses. -/
theorem writer_waits_with_room {budget : Nat} (running : c.writer.isRunning = true)
    (room : c.isStalled = false) (stuck : c.writerStep? budget = none) :
    c.aborted = false ∧ c.writer = .ready ∧ c.outgoing = [] ∧ c.isFinished = false := by
  obtain ⟨hlive, hready | hstalled⟩ := writer_waits running stuck
  · exact ⟨hlive, hready⟩
  · rw [hstalled] at room
    contradiction

theorem Orderly.wrote (h : Orderly c) (step : Wrote c c') : Orderly c' := by
  cases step with
  | cutOff habort _ =>
      refine ⟨h.sorted, h.early, ?_, h.cleared⟩
      intro live
      rw [show c.aborted = false from live] at habort
      contradiction
  | begins hlive hready houtgoing =>
      refine ⟨h.sorted, h.early, ?_, ?_⟩
      · intro _
        have hcount := h.counted hlive
        rw [hready, houtgoing, List.length_cons] at hcount
        simp only [Writer.underway] at hcount ⊢
        omega
      · intro habort
        rw [show c.aborted = true from habort] at hlive
        contradiction
  | done hlive hready _ =>
      refine ⟨h.sorted, h.early, ?_, h.cleared⟩
      intro _
      have hcount := h.counted hlive
      rw [hready] at hcount
      exact hcount
  | fails _ _ _ =>
      have hc := h.abort
      refine ⟨hc.sorted, hc.early, ?_, hc.cleared⟩
      intro live
      have habort := abort_aborted c
      rw [show c.abort.1.aborted = false from live] at habort
      contradiction
  | completes hlive hwriting _ _ =>
      refine ⟨h.sorted, h.early, ?_, h.cleared⟩
      intro _
      have hcount := h.counted hlive
      rw [hwriting] at hcount
      simp only [Writer.underway] at hcount ⊢
      omega
  | writes hlive hwriting _ _ _ =>
      refine ⟨h.sorted, h.early, ?_, h.cleared⟩
      intro _
      have hcount := h.counted hlive
      rw [hwriting] at hcount
      exact hcount

theorem Follows.wrote (h : Follows answer c) (step : Wrote c c') : Follows answer c' := by
  cases step with
  | cutOff habort _ =>
      refine ⟨h.waiting, h.passed, ?_, h.written⟩
      intro live
      rw [show c.aborted = false from live] at habort
      contradiction
  | begins hlive hready houtgoing =>
      -- The frame moves from the bodies that wait to the bytes still to write.
      refine ⟨h.waiting, h.passed, ?_, h.written⟩
      intro _
      have hstream := h.stream hlive
      rw [hready, houtgoing] at hstream
      simpa [Writer.left] using hstream
  | done hlive hready _ =>
      refine ⟨h.waiting, h.passed, ?_, h.written⟩
      intro _
      have hstream := h.stream hlive
      rw [hready] at hstream
      exact hstream
  | fails _ _ _ =>
      have hc := h.abort
      refine ⟨hc.waiting, hc.passed, ?_, hc.written⟩
      intro live
      have habort := abort_aborted c
      rw [show c.abort.1.aborted = false from live] at habort
      contradiction
  | completes hlive hwriting _ _ =>
      have hstream := h.stream hlive
      rw [hwriting] at hstream
      refine ⟨h.waiting, h.passed, ?_, ?_⟩
      · intro _
        simpa [Writer.left] using hstream
      · exact ⟨_, hstream⟩
  | @writes now later hlive hwriting _ _ _ =>
      have hstream := h.stream hlive
      rw [hwriting] at hstream
      refine ⟨h.waiting, h.passed, ?_, ?_⟩
      · intro _
        simpa [Writer.left] using hstream
      · refine ⟨later ++ c.outgoing.flatMap Frame.encode, ?_⟩
        simpa [Writer.left] using hstream

end Connection

end SearchDaemon
