import SearchDaemon.Proofs.Literals

/-!
# Patterns that differ in their numbers

The numbers of the groups and repeats in a pattern depend on what stands before them in its text.
A search without back-references uses the number of a repeat only to tell it from the others, and
that of a group not at all. So trees of one form, whose repeats correspond one to one, are
matched at the same places, whatever else the patterns around them hold.
-/

namespace SearchDaemon.Pattern

/-! ## Trees of one form -/

/-- Repeat numbers of two trees, those of repeats that correspond. -/
structure Pairing where
  pairs : Nat → Nat → Prop
  unique : ∀ {i i' j j'}, pairs i j → pairs i' j' → (i = i' ↔ j = j')

namespace Pairing

/-- Nothing corresponds. -/
def nowhere : Pairing := ⟨fun _ _ => False, False.elim⟩

/-- All numbers are below the given bounds. -/
def Within (p : Pairing) (loops loops' : Nat) : Prop :=
  ∀ {i j}, p.pairs i j → i < loops ∧ j < loops'

theorem Within.mono {p : Pairing} {loops loops' more : Nat} (h : p.Within loops loops')
    (le : loops' ≤ more) : p.Within loops more :=
  fun hpair => ⟨(h hpair).1, Nat.lt_of_lt_of_le (h hpair).2 le⟩

/-- The repeats entered at a place correspond, so each was entered as often as its partner. -/
theorem count_eq (p : Pairing) {i j : Nat} {visits visits' : List Nat} (h : p.pairs i j)
    (same : List.Forall₂ p.pairs visits visits') : visits.count i = visits'.count j := by
  induction same with
  | nil => rfl
  | cons hpair _ ih =>
      have hboth := p.unique hpair h
      simp only [List.count_cons, ih, beq_iff_eq, hboth]

theorem mayEnter_eq {p : Pairing} {loops loops' i j : Nat} {visits visits' : List Nat}
    (within : p.Within loops loops') (h : p.pairs i j)
    (same : List.Forall₂ p.pairs visits visits') :
    mayEnter loops i visits = mayEnter loops' j visits' := by
  obtain ⟨hi, hj⟩ := within h
  rw [mayEnter, mayEnter, p.count_eq h same, decide_eq_true hi, decide_eq_true hj]

end Pairing

/-- Two trees of the same form without back-references: what differs are the numbers of groups,
and those of repeats, which correspond. -/
inductive Node.Alike (p : Pairing) : Node → Node → Prop
  | empty : Alike p .empty .empty
  | bytes (set : ByteSet) : Alike p (.bytes set) (.bytes set)
  | lineBegin : Alike p .lineBegin .lineBegin
  | lineEnd : Alike p .lineEnd .lineEnd
  | wordBoundary (negated : Bool) : Alike p (.wordBoundary negated) (.wordBoundary negated)
  | lookahead (negated : Bool) {body body' : Node} : Alike p body body' →
      Alike p (.lookahead negated body) (.lookahead negated body')
  | group (number number' : Nat) {body body' : Node} : Alike p body body' →
      Alike p (.group number body) (.group number' body')
  | seq {first first' second second' : Node} : Alike p first first' → Alike p second second' →
      Alike p (.seq first second) (.seq first' second')
  | alt {first first' second second' : Node} : Alike p first first' → Alike p second second' →
      Alike p (.alt first second) (.alt first' second')
  | star (lazy : Bool) {loop loop' : Nat} {body body' : Node} : p.pairs loop loop' →
      Alike p body body' → Alike p (.star loop lazy body) (.star loop' lazy body')
  | plus (lazy : Bool) {loop loop' : Nat} {body body' : Node} : p.pairs loop loop' →
      Alike p body body' → Alike p (.plus loop lazy body) (.plus loop' lazy body')
  | opt (lazy : Bool) {loop loop' : Nat} {body body' : Node} : p.pairs loop loop' →
      Alike p body body' → Alike p (.opt loop lazy body) (.opt loop' lazy body')

namespace Node.Alike

variable {p q : Pairing} {n n' : Node}

theorem mono (h : n.Alike p n') (more : ∀ {i j}, p.pairs i j → q.pairs i j) : n.Alike q n' := by
  induction h with
  | empty => exact .empty
  | bytes set => exact .bytes set
  | lineBegin => exact .lineBegin
  | lineEnd => exact .lineEnd
  | wordBoundary negated => exact .wordBoundary negated
  | lookahead negated _ ih => exact .lookahead negated ih
  | group number number' _ ih => exact .group number number' ih
  | seq _ _ ih ih' => exact .seq ih ih'
  | alt _ _ ih ih' => exact .alt ih ih'
  | star lazy hpair _ ih => exact .star lazy (more hpair) ih
  | plus lazy hpair _ ih => exact .plus lazy (more hpair) ih
  | opt lazy hpair _ ih => exact .opt lazy (more hpair) ih

/-- Copies of two trees are alike if the shifted numbers correspond. -/
theorem shift {offset offset' : Nat} (h : n.Alike p n')
    (shifted : ∀ {i j}, p.pairs i j → q.pairs (i + offset) (j + offset')) :
    (n.shiftLoops offset).Alike q (n'.shiftLoops offset') := by
  induction h with
  | empty => exact .empty
  | bytes set => exact .bytes set
  | lineBegin => exact .lineBegin
  | lineEnd => exact .lineEnd
  | wordBoundary negated => exact .wordBoundary negated
  | lookahead negated _ ih => exact .lookahead negated ih
  | group number number' _ ih => exact .group number number' ih
  | seq _ _ ih ih' => exact .seq ih ih'
  | alt _ _ ih ih' => exact .alt ih ih'
  | star lazy hpair _ ih => exact .star lazy (shifted hpair) ih
  | plus lazy hpair _ ih => exact .plus lazy (shifted hpair) ih
  | opt lazy hpair _ ih => exact .opt lazy (shifted hpair) ih

theorem lookaheadDepth_eq (h : n.Alike p n') : n.lookaheadDepth = n'.lookaheadDepth := by
  induction h with
  | lookahead _ _ ih | group _ _ _ ih | star _ _ _ ih | plus _ _ _ ih | opt _ _ _ ih =>
      simp only [Node.lookaheadDepth, ih]
  | seq _ _ ih ih' | alt _ _ ih ih' => simp only [Node.lookaheadDepth, ih, ih']
  | _ => rfl

end Node.Alike

/-! ## One step of the search -/

namespace Outcome

/-- The second choice is tried, with the captures that are left, if the first one fails. -/
def orElse (first : Outcome) (second : Captures → Outcome) : Outcome :=
  match first with
  | .matched captures => .matched captures
  | .failed captures => second captures

/-- A repeat is left or entered, if it may be; which of them is tried first depends on its being
lazy. -/
def repeated (lazy enter : Bool) (leave once : Captures → Outcome) (captures : Captures) :
    Outcome :=
  if lazy then
    (leave captures).orElse fun captures => if enter then once captures else .failed captures
  else if enter then (once captures).orElse leave else leave captures

/-- The search goes on, from the same place, if looking ahead has the wanted outcome. -/
def asserted (negated : Bool) (look : Outcome) (next : Captures → Outcome) (captures : Captures) :
    Outcome :=
  match look with
  | .matched after => if negated then .failed after else next after
  | .failed _ => if negated then next captures else .failed captures

/-- The captured text is taken back if the search fails. -/
def takingBack (number : Nat) (old : Option Bytes) : Outcome → Outcome
  | .matched captures => .matched captures
  | .failed captures => .failed (captures.setIfInBounds number old)

/-! Searches that agree whatever has been captured stay so when they are put together. -/

section

variable {first first' : Outcome} {second second' leave leave' once once' : Captures → Outcome}

theorem orElse_congr (h : first.isMatch = first'.isMatch)
    (h₂ : ∀ c c', (second c).isMatch = (second' c').isMatch) :
    (first.orElse second).isMatch = (first'.orElse second').isMatch := by
  cases first with
  | matched captures =>
      cases first' with
      | matched => rfl
      | failed => contradiction
  | failed captures =>
      cases first' with
      | matched => contradiction
      | failed captures' => exact h₂ captures captures'

theorem repeated_congr (lazy : Bool) {enter : Bool} (captures captures' : Captures)
    (h : ∀ c c', (leave c).isMatch = (leave' c').isMatch)
    (h₂ : enter = true → ∀ c c', (once c).isMatch = (once' c').isMatch) :
    (repeated lazy enter leave once captures).isMatch =
      (repeated lazy enter leave' once' captures').isMatch := by
  cases lazy with
  | true =>
      refine orElse_congr (h captures captures') ?_
      intro c c'
      cases enter with
      | true => exact h₂ rfl c c'
      | false => rfl
  | false =>
      cases enter with
      | true => exact orElse_congr (h₂ rfl captures captures') h
      | false => exact h captures captures'

theorem asserted_congr (negated : Bool) (captures captures' : Captures)
    (h : first.isMatch = first'.isMatch)
    (h₂ : ∀ c c', (second c).isMatch = (second' c').isMatch) :
    (asserted negated first second captures).isMatch =
      (asserted negated first' second' captures').isMatch := by
  cases first with
  | matched after =>
      cases first' with
      | matched after' =>
          cases negated with
          | true => rfl
          | false => exact h₂ after after'
      | failed => contradiction
  | failed =>
      cases first' with
      | matched => contradiction
      | failed =>
          cases negated with
          | true => exact h₂ captures captures'
          | false => rfl

theorem isMatch_takingBack (number : Nat) (old : Option Bytes) (o : Outcome) :
    (o.takingBack number old).isMatch = o.isMatch := by
  cases o <;> rfl

end

end Outcome

section

variable {loops depth inner : Nat} {scope : Scope} {goals : List Goal} {before : Option UInt8}
  {rest : Bytes} {visits : List Nat} {captures : Captures}

theorem solve_endGroup (number : Nat) (start : Bytes) :
    solve loops depth scope (.endGroup number start :: goals) before rest visits captures =
      (solve loops depth scope goals before rest visits (captures.setIfInBounds number
        (some (start.take (start.length - rest.length))))).takingBack number
          (captures.getD number none) := by
  rw [solve]
  rfl

theorem solve_wordBoundary (negated : Bool) :
    solve loops depth scope (.node (.wordBoundary negated) :: goals) before rest visits captures =
      if atWordBoundary scope before rest != negated then
        solve loops depth scope goals before rest visits captures
      else .failed captures := by
  rw [solve]

theorem solve_lookahead (negated : Bool) (body : Node) :
    solve loops (inner + 1) scope (.node (.lookahead negated body) :: goals) before rest visits
      captures =
        Outcome.asserted negated
          (solve loops inner { scope with start := rest.length } [.node body] before rest []
            captures)
          (solve loops (inner + 1) scope goals before rest visits) captures := by
  rw [solve]
  rfl

theorem solve_group (number : Nat) (body : Node) :
    solve loops depth scope (.node (.group number body) :: goals) before rest visits captures =
      solve loops depth scope (.node body :: .endGroup number rest :: goals) before rest visits
        captures := by
  rw [solve]

theorem solve_alt (first second : Node) :
    solve loops depth scope (.node (.alt first second) :: goals) before rest visits captures =
      (solve loops depth scope (.node first :: goals) before rest visits captures).orElse
        (solve loops depth scope (.node second :: goals) before rest visits) := by
  rw [solve]
  rfl

theorem solve_plus (loop : Nat) (lazy : Bool) (body : Node) :
    solve loops depth scope (.node (.plus loop lazy body) :: goals) before rest visits captures =
      solve loops depth scope (.node body :: .node (.star loop lazy body) :: goals) before rest
        visits captures := by
  rw [solve]

theorem solve_star (loop : Nat) (lazy : Bool) (body : Node) :
    solve loops depth scope (.node (.star loop lazy body) :: goals) before rest visits captures =
      Outcome.repeated lazy (mayEnter loops loop visits)
        (solve loops depth scope goals before rest visits)
        (solve loops depth scope (.node body :: .node (.star loop lazy body) :: goals) before rest
          (loop :: visits)) captures := by
  rw [solve]
  rfl

theorem solve_opt (loop : Nat) (lazy : Bool) (body : Node) :
    solve loops depth scope (.node (.opt loop lazy body) :: goals) before rest visits captures =
      Outcome.repeated lazy (mayEnter loops loop visits)
        (solve loops depth scope goals before rest visits)
        (solve loops depth scope (.node body :: goals) before rest (loop :: visits)) captures := by
  rw [solve]
  rfl

end

/-! ## Searches that take the same course -/

namespace Goal

inductive Alike (p : Pairing) : Goal → Goal → Prop
  | node {n n' : Node} : n.Alike p n' → Alike p (.node n) (.node n')
  | endGroup (number number' : Nat) (start : Bytes) :
      Alike p (.endGroup number start) (.endGroup number' start)

def lookaheadDepth : Goal → Nat
  | .node n => n.lookaheadDepth
  | .endGroup .. => 0

end Goal

/-- Nothing is to be matched any more. -/
def AllEmpty (goals : List Goal) : Prop := ∀ goal ∈ goals, goal = .node .empty

theorem allEmpty_nil : AllEmpty [] := fun _ h => absurd h List.not_mem_nil

/-- Lookaheads in the goals are nested no deeper than this. -/
def Shallow (depth : Nat) (goals : List Goal) : Prop :=
  ∀ goal ∈ goals, goal.lookaheadDepth ≤ depth

theorem shallow_cons {depth : Nat} {goal : Goal} {goals : List Goal} :
    Shallow depth (goal :: goals) ↔ goal.lookaheadDepth ≤ depth ∧ Shallow depth goals :=
  List.forall_mem_cons

theorem Shallow.cons {depth : Nat} {goal : Goal} {goals : List Goal}
    (deep : goal.lookaheadDepth ≤ depth) (h : Shallow depth goals) :
    Shallow depth (goal :: goals) :=
  shallow_cons.mpr ⟨deep, h⟩

theorem shallow_nil (depth : Nat) : Shallow depth [] := fun _ h => absurd h List.not_mem_nil

/-- The same is to be matched, but for empty goals at the end. -/
inductive AlikeGoals (p : Pairing) : List Goal → List Goal → Prop
  | done {goals goals' : List Goal} : AllEmpty goals → AllEmpty goals' → AlikeGoals p goals goals'
  | cons {goal goal' : Goal} {goals goals' : List Goal} : goal.Alike p goal' →
      AlikeGoals p goals goals' → AlikeGoals p (goal :: goals) (goal' :: goals')

theorem isMatch_of_allEmpty {goals : List Goal} (h : AllEmpty goals) (loops depth : Nat)
    (scope : Scope) (before : Option UInt8) (rest : Bytes) (visits : List Nat)
    (captures : Captures) :
    (solve loops depth scope goals before rest visits captures).isMatch = true := by
  induction goals with
  | nil =>
      rw [solve]
      rfl
  | cons goal goals ih =>
      obtain ⟨rfl, hgoals⟩ := List.forall_mem_cons.mp h
      rw [solve_empty]
      exact ih hgoals

/-- A search goes on with lighter goals, or enters a repeat once more, or takes a byte, or goes
into a lookahead, and never comes back to where it was. -/
theorem search_induction (loops : Nat)
    {motive : (depth : Nat) → (goals : List Goal) → (rest : Bytes) → (visits : List Nat) → Prop}
    (step : ∀ depth goals rest visits,
      (∀ goals', goalsWeight goals' < goalsWeight goals → motive depth goals' rest visits) →
      (∀ goals' loop, mayEnter loops loop visits = true →
        motive depth goals' rest (loop :: visits)) →
      (∀ goals' rest' visits', rest'.length < rest.length → motive depth goals' rest' visits') →
      (∀ inner goals' rest' visits', inner < depth → motive inner goals' rest' visits') →
      motive depth goals rest visits)
    (depth : Nat) (goals : List Goal) (rest : Bytes) (visits : List Nat) :
    motive depth goals rest visits := by
  refine step depth goals rest visits ?_ ?_ ?_ ?_
  · exact fun goals' lighter => search_induction loops step depth goals' rest visits
  · exact fun goals' loop enter => search_induction loops step depth goals' rest (loop :: visits)
  · exact fun goals' rest' visits' further => search_induction loops step depth goals' rest' visits'
  · exact fun inner goals' rest' visits' inside =>
      search_induction loops step inner goals' rest' visits'
termination_by (depth, rest.length, allowance loops visits, goalsWeight goals)
decreasing_by
  · exact .right _ (.right _ (.right _ lighter))
  · rw [mayEnter, Bool.and_eq_true, decide_eq_true_eq, decide_eq_true_eq] at enter
    exact .right _ (.right _ (.left _ _ (allowance_cons_lt enter.1 enter.2)))
  · exact .right _ (.left _ _ further)
  · exact .left _ _ inside

theorem goalsWeight_cons (goal : Goal) (goals : List Goal) :
    goalsWeight (goal :: goals) = goal.weight + goalsWeight goals := rfl

theorem goalsWeight_lt_cons (goal : Goal) (goals : List Goal) :
    goalsWeight goals < goalsWeight (goal :: goals) := by
  have hpos : 0 < goal.weight := by
    cases goal with
    | node n => exact n.weight_pos
    | endGroup => exact Nat.one_pos
  rw [goalsWeight_cons]
  exact Nat.lt_add_of_pos_left hpos

/-- The searches for two lists of goals agree from here, whatever has been captured. -/
def AgreeFrom (p : Pairing) (loops loops' depth : Nat) (goals : List Goal) (rest : Bytes)
    (visits : List Nat) : Prop :=
  ∀ {depth' : Nat} {goals' : List Goal} {visits' : List Nat} (scope : Scope)
    (before : Option UInt8) (captures captures' : Captures), AlikeGoals p goals goals' →
    List.Forall₂ p.pairs visits visits' → Shallow depth goals → Shallow depth' goals →
      (solve loops depth scope goals before rest visits captures).isMatch =
        (solve loops' depth' scope goals' before rest visits' captures').isMatch

/-- **Goals of the same form are matched at the same places**, whatever numbers their trees use,
and whatever has been captured. -/
theorem agreeFrom {p : Pairing} {loops loops' : Nat} (within : p.Within loops loops') (depth : Nat)
    (goals : List Goal) (rest : Bytes) (visits : List Nat) :
    AgreeFrom p loops loops' depth goals rest visits := by
  induction depth, goals, rest, visits using search_induction loops with
  | step depth goals rest visits lighter entering further inside =>
  intro depth' goals' visits' scope before captures captures' alike entered shallow shallow'
  cases alike with
  | done hgoals hgoals' => rw [isMatch_of_allEmpty hgoals, isMatch_of_allEmpty hgoals']
  | @cons goal _ goals goals' hgoal hgoals =>
  obtain ⟨hdepth, hshallow⟩ := shallow_cons.mp shallow
  obtain ⟨hdepth', hshallow'⟩ := shallow_cons.mp shallow'
  -- What follows the first goal.
  have hlater (captures captures' : Captures) :=
    lighter goals (goalsWeight_lt_cons _ _) scope before captures captures' hgoals entered hshallow
      hshallow'
  cases hgoal with
  | endGroup number number' start =>
      rw [solve_endGroup, solve_endGroup, Outcome.isMatch_takingBack, Outcome.isMatch_takingBack]
      exact hlater _ _
  | @node n n' hnode =>
  -- A part of the first goal, which is matched in its place.
  have hpart {part part' : Node} (hpart : part.Alike p part') (light : part.weight < n.weight)
      (deep : part.lookaheadDepth ≤ n.lookaheadDepth) (captures captures' : Captures) :=
    lighter (.node part :: goals) (Nat.add_lt_add_right light _) scope before captures captures'
      (.cons (.node hpart) hgoals) entered (.cons (Nat.le_trans deep hdepth) hshallow)
      (.cons (Nat.le_trans deep hdepth') hshallow')
  cases hnode with
  | empty => rw [solve_empty, solve_empty, hlater]
  | bytes set =>
      cases rest with
      | nil => rw [solve_bytes_nil, solve_bytes_nil, Outcome.isMatch, Outcome.isMatch]
      | cons b rest =>
          rw [solve_bytes_cons, solve_bytes_cons]
          split
          · exact further goals rest [] (Nat.lt_succ_self _) scope (some b) captures captures'
              hgoals .nil hshallow hshallow'
          · rfl
  | lineBegin =>
      rw [solve_lineBegin, solve_lineBegin]
      split
      · exact hlater captures captures'
      · rfl
  | lineEnd =>
      rw [solve_lineEnd, solve_lineEnd]
      split
      · exact hlater captures captures'
      · rfl
  | wordBoundary negated =>
      rw [solve_wordBoundary, solve_wordBoundary]
      split
      · exact hlater captures captures'
      · rfl
  | @lookahead negated body body' hbody =>
      obtain ⟨inner, rfl⟩ := Nat.exists_eq_succ_of_ne_zero
        (Nat.ne_of_gt (Nat.lt_of_lt_of_le (Nat.succ_pos _) hdepth))
      obtain ⟨inner', rfl⟩ := Nat.exists_eq_succ_of_ne_zero
        (Nat.ne_of_gt (Nat.lt_of_lt_of_le (Nat.succ_pos _) hdepth'))
      rw [solve_lookahead, solve_lookahead]
      refine Outcome.asserted_congr negated captures captures' ?_ hlater
      exact inside inner [.node body] rest [] (Nat.lt_succ_self inner) _ before captures captures'
        (.cons (.node hbody) (.done allEmpty_nil allEmpty_nil)) .nil
        (.cons (Nat.le_of_succ_le_succ hdepth) (shallow_nil inner))
        (.cons (Nat.le_of_succ_le_succ hdepth') (shallow_nil inner'))
  | @group number number' body body' hbody =>
      rw [solve_group, solve_group]
      refine lighter (.node body :: .endGroup number rest :: goals) ?_ scope before captures
        captures' (.cons (.node hbody) (.cons (.endGroup number number' rest) hgoals)) entered
        (.cons hdepth (.cons (Nat.zero_le _) hshallow))
        (.cons hdepth' (.cons (Nat.zero_le _) hshallow'))
      simp only [goalsWeight_cons, Goal.weight, Node.weight]
      omega
  | @seq first first' second second' hfirst hsecond =>
      rw [solve_seq, solve_seq]
      obtain ⟨hdeep, hdeep₂⟩ := Nat.max_le.mp hdepth
      obtain ⟨hdeep', hdeep₂'⟩ := Nat.max_le.mp hdepth'
      refine lighter (.node first :: .node second :: goals) ?_ scope before captures captures'
        (.cons (.node hfirst) (.cons (.node hsecond) hgoals)) entered
        (.cons hdeep (.cons hdeep₂ hshallow)) (.cons hdeep' (.cons hdeep₂' hshallow'))
      simp only [goalsWeight_cons, Goal.weight, Node.weight]
      omega
  | @alt first first' second second' hfirst hsecond =>
      rw [solve_alt, solve_alt]
      have hweight := first.weight_pos
      have hweight₂ := second.weight_pos
      refine Outcome.orElse_congr (hpart hfirst ?_ (Nat.le_max_left _ _) captures captures')
        (hpart hsecond ?_ (Nat.le_max_right _ _))
      · simp only [Node.weight]
        omega
      · simp only [Node.weight]
        omega
  | @star lazy loop loop' body body' hpair hbody =>
      rw [solve_star, solve_star, Pairing.mayEnter_eq within hpair entered]
      refine Outcome.repeated_congr lazy captures captures' hlater ?_
      intro henter c c'
      rw [← Pairing.mayEnter_eq within hpair entered] at henter
      exact entering (.node body :: .node (.star loop lazy body) :: goals) loop henter scope before
        c c' (.cons (.node hbody) (.cons (.node (.star lazy hpair hbody)) hgoals))
        (.cons hpair entered)
        (.cons hdepth (.cons hdepth hshallow)) (.cons hdepth' (.cons hdepth' hshallow'))
  | @plus lazy loop loop' body body' hpair hbody =>
      rw [solve_plus, solve_plus]
      refine lighter (.node body :: .node (.star loop lazy body) :: goals) ?_ scope before captures
        captures' (.cons (.node hbody) (.cons (.node (.star lazy hpair hbody)) hgoals)) entered
        (.cons hdepth (.cons hdepth hshallow)) (.cons hdepth' (.cons hdepth' hshallow'))
      simp only [goalsWeight_cons, Goal.weight, Node.weight]
      omega
  | @opt lazy loop loop' body body' hpair hbody =>
      rw [solve_opt, solve_opt, Pairing.mayEnter_eq within hpair entered]
      refine Outcome.repeated_congr lazy captures captures' hlater ?_
      intro henter c c'
      rw [← Pairing.mayEnter_eq within hpair entered] at henter
      exact entering (.node body :: goals) loop henter scope before c c'
        (.cons (.node hbody) hgoals) (.cons hpair entered) (.cons hdepth hshallow)
        (.cons hdepth' hshallow')

end SearchDaemon.Pattern
