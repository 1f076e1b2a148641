import SearchDaemon.Pattern.Builder
import SearchDaemon.Total

/-!
# Searching with a pattern

A backtracking search over the pattern tree. What is still to be matched is a
stack of goals; the first choice that lets the whole stack succeed is taken.

A repeat is entered at most twice at one position, which bounds the repeats that
take nothing: `visits` lists the repeats entered since the last byte was taken.
Captured texts survive the iterations of a repeat. They are put back when the
search gives up a group, except those a lookahead has left behind.

A lookahead is a search of its own from where it stands, and takes that place
for the beginning of the text unless the outer search has already moved on from
the true beginning.
-/

namespace SearchDaemon.Pattern

/-- Something still to be matched. -/
inductive Goal where
  | node (n : Node)
  /-- The end of a group that began where `start` was left to match. -/
  | endGroup (number : Nat) (start : Bytes)
deriving DecidableEq, Repr

namespace Goal

def weight : Goal → Nat
  | .node n => n.weight
  | .endGroup .. => 1

end Goal

/-- The text each group captured last. -/
abbrev Captures := Array (Option Bytes)

/-- How a search ends, with the captures as it leaves them. -/
inductive Outcome where
  | matched (captures : Captures)
  | failed (captures : Captures)
deriving DecidableEq, Repr

namespace Outcome

def isMatch : Outcome → Bool
  | .matched _ => true
  | .failed _ => false

end Outcome

/-- What a search knows of its surroundings. -/
structure Scope where
  /-- How many bytes were left where the search began. -/
  start : Nat
  /-- The search began behind the beginning of the text. -/
  moved : Bool
deriving DecidableEq, Repr

/-- How often the repeats below `loops` may still be entered at one position. -/
def allowance (loops : Nat) (visits : List Nat) : Nat :=
  total ((List.range loops).map fun loop => 2 - visits.count loop)

/-- Entering a repeat uses up some of what is allowed at this position. -/
theorem allowance_cons_lt {loops loop : Nat} {visits : List Nat} (hl : loop < loops)
    (hv : visits.count loop < 2) : allowance loops (loop :: visits) < allowance loops visits := by
  refine total_map_lt_total_map (a := loop) ?_ (List.mem_range.mpr hl) ?_
  · intro x _
    simp only [List.count_cons]
    split <;> omega
  · simp only [List.count_cons, beq_self_eq_true, if_true]
    omega

/-- Whether the repeat may be entered once more at this position. -/
def mayEnter (loops loop : Nat) (visits : List Nat) : Bool :=
  loop < loops && visits.count loop < 2

/-- The bytes on both sides of a place differ in being part of a word. -/
def atWordBoundary (scope : Scope) (before : Option UInt8) (rest : Bytes) : Bool :=
  let left := (rest.length != scope.start || scope.moved) &&
    before.any (ByteClass.word.contains ·)
  let right := rest.head?.any (ByteClass.word.contains ·)
  left != right

def atBeginning (scope : Scope) (rest : Bytes) : Bool :=
  rest.length = scope.start && !scope.moved

def goalsWeight (goals : List Goal) : Nat := total (goals.map Goal.weight)

/-- Matches the goals one after the other against a beginning of `rest`.
`depth` bounds the nesting of lookaheads, `loops` the repeat numbers. -/
def solve (loops : Nat) (depth : Nat) (scope : Scope) (goals : List Goal)
    (before : Option UInt8) (rest : Bytes) (visits : List Nat) (captures : Captures) :
    Outcome :=
  match goals with
  | [] => .matched captures
  | .endGroup number start :: goals =>
      let word := start.take (start.length - rest.length)
      let old := captures.getD number none
      match solve loops depth scope goals before rest visits
          (captures.setIfInBounds number (some word)) with
      | .matched captures => .matched captures
      | .failed captures => .failed (captures.setIfInBounds number old)
  | .node .empty :: goals => solve loops depth scope goals before rest visits captures
  | .node (.bytes set) :: goals =>
      match rest with
      | [] => .failed captures
      | b :: rest =>
          if set.contains b then solve loops depth scope goals (some b) rest [] captures
          else .failed captures
  | .node .lineBegin :: goals =>
      if atBeginning scope rest then solve loops depth scope goals before rest visits captures
      else .failed captures
  | .node .lineEnd :: goals =>
      if rest.isEmpty then solve loops depth scope goals before rest visits captures
      else .failed captures
  | .node (.wordBoundary negated) :: goals =>
      if atWordBoundary scope before rest != negated then
        solve loops depth scope goals before rest visits captures
      else .failed captures
  | .node (.lookahead negated body) :: goals =>
      match depth with
      | 0 => .failed captures
      | inner + 1 =>
          match solve loops inner { scope with start := rest.length } [.node body] before
              rest [] captures with
          | .matched captures =>
              if negated then .failed captures
              else solve loops (inner + 1) scope goals before rest visits captures
          | .failed _ =>
              if negated then solve loops (inner + 1) scope goals before rest visits captures
              else .failed captures
  | .node (.backReference number) :: goals =>
      match captures.getD number none with
      | none => .failed captures
      | some word =>
          if word.isPrefixOf rest then
            if 0 < word.length && word.length ≤ rest.length then
              solve loops depth scope goals word.getLast? (rest.drop word.length) [] captures
            else solve loops depth scope goals before rest visits captures
          else .failed captures
  | .node (.group number body) :: goals =>
      solve loops depth scope (.node body :: .endGroup number rest :: goals) before rest
        visits captures
  | .node (.seq first second) :: goals =>
      solve loops depth scope (.node first :: .node second :: goals) before rest visits captures
  | .node (.alt first second) :: goals =>
      match solve loops depth scope (.node first :: goals) before rest visits captures with
      | .matched captures => .matched captures
      | .failed captures =>
          solve loops depth scope (.node second :: goals) before rest visits captures
  | .node (.star loop lazy body) :: goals =>
      if lazy then
        match solve loops depth scope goals before rest visits captures with
        | .matched captures => .matched captures
        | .failed captures =>
            if mayEnter loops loop visits then
              solve loops depth scope (.node body :: .node (.star loop lazy body) :: goals)
                before rest (loop :: visits) captures
            else .failed captures
      else if mayEnter loops loop visits then
        match solve loops depth scope (.node body :: .node (.star loop lazy body) :: goals)
            before rest (loop :: visits) captures with
        | .matched captures => .matched captures
        | .failed captures => solve loops depth scope goals before rest visits captures
      else solve loops depth scope goals before rest visits captures
  | .node (.plus loop lazy body) :: goals =>
      solve loops depth scope (.node body :: .node (.star loop lazy body) :: goals) before rest
        visits captures
  | .node (.opt loop lazy body) :: goals =>
      if lazy then
        match solve loops depth scope goals before rest visits captures with
        | .matched captures => .matched captures
        | .failed captures =>
            if mayEnter loops loop visits then
              solve loops depth scope (.node body :: goals) before rest (loop :: visits) captures
            else .failed captures
      else if mayEnter loops loop visits then
        match solve loops depth scope (.node body :: goals) before rest (loop :: visits)
            captures with
        | .matched captures => .matched captures
        | .failed captures => solve loops depth scope goals before rest visits captures
      else solve loops depth scope goals before rest visits captures
termination_by (depth, rest.length, allowance loops visits, goalsWeight goals)
decreasing_by
  all_goals
    simp only [Prod.lex_def, goalsWeight, List.map_cons, total_cons, Goal.weight, Node.weight,
      List.length_cons, List.length_drop, mayEnter, Bool.and_eq_true, decide_eq_true_eq] at *
    first
    | omega
    | grind [Node.weight_pos]
    | (have entered := allowance_cons_lt (And.left ‹_ ∧ _›) (And.right ‹_ ∧ _›); grind)

/-- Searches from a place on: there, or further right. -/
def searchFrom (p : Pattern) (before : Option UInt8) (rest : Bytes) : Bool :=
  let scope : Scope := { start := rest.length, moved := before.isSome }
  let outcome := solve p.loops p.root.lookaheadDepth scope [.node p.root] before rest []
    (Array.replicate p.groups none)
  outcome.isMatch ||
    match rest with
    | [] => false
    | b :: rest => searchFrom p (some b) rest

/-- Some part of the name is of the form the pattern describes. -/
def occursIn (p : Pattern) (name : Bytes) : Bool := searchFrom p none name

end SearchDaemon.Pattern
