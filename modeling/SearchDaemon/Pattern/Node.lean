import SearchDaemon.Pattern.ByteSet

/-!
# Pattern trees

The tree a pattern stands for. Every place where a term may be repeated carries
a number of its own, by which the search tells how often it has been entered.
Repeat counts are already spelled out: a term that is to occur three times
occurs three times, each copy with its own repeat numbers.
-/

namespace SearchDaemon.Pattern

inductive Node where
  /-- Takes nothing. -/
  | empty
  | bytes (set : ByteSet)
  | lineBegin
  | lineEnd
  | wordBoundary (negated : Bool)
  | lookahead (negated : Bool) (body : Node)
  /-- The text that a group captured last. -/
  | backReference (number : Nat)
  | group (number : Nat) (body : Node)
  | seq (first second : Node)
  /-- Either of two, the first one preferred. -/
  | alt (first second : Node)
  /-- Any number of times. -/
  | star (loop : Nat) (lazy : Bool) (body : Node)
  /-- At least once. -/
  | plus (loop : Nat) (lazy : Bool) (body : Node)
  /-- At most once. -/
  | opt (loop : Nat) (lazy : Bool) (body : Node)
deriving DecidableEq, Repr

namespace Node

/-- A copy whose repeat numbers are all `offset` higher. -/
def shiftLoops (offset : Nat) : Node → Node
  | .empty => .empty
  | .bytes set => .bytes set
  | .lineBegin => .lineBegin
  | .lineEnd => .lineEnd
  | .wordBoundary negated => .wordBoundary negated
  | .lookahead negated body => .lookahead negated (body.shiftLoops offset)
  | .backReference number => .backReference number
  | .group number body => .group number (body.shiftLoops offset)
  | .seq first second => .seq (first.shiftLoops offset) (second.shiftLoops offset)
  | .alt first second => .alt (first.shiftLoops offset) (second.shiftLoops offset)
  | .star loop lazy body => .star (loop + offset) lazy (body.shiftLoops offset)
  | .plus loop lazy body => .plus (loop + offset) lazy (body.shiftLoops offset)
  | .opt loop lazy body => .opt (loop + offset) lazy (body.shiftLoops offset)

/-- How deep lookaheads are nested. -/
def lookaheadDepth : Node → Nat
  | .lookahead _ body => body.lookaheadDepth + 1
  | .group _ body | .star _ _ body | .plus _ _ body | .opt _ _ body => body.lookaheadDepth
  | .seq first second | .alt first second =>
      max first.lookaheadDepth second.lookaheadDepth
  | _ => 0

/-- A measure that falls whenever the search takes a tree apart. -/
def weight : Node → Nat
  | .lookahead _ body => body.weight + 1
  | .group _ body => body.weight + 2
  | .seq first second => first.weight + second.weight + 1
  | .alt first second => first.weight + second.weight + 1
  | .star _ _ body => body.weight + 1
  | .plus _ _ body => body.weight + body.weight + 2
  | .opt _ _ body => body.weight + 1
  | _ => 1

/-- The pattern refers back to no group. -/
def NoBackReference : Node → Prop
  | .backReference _ => False
  | .lookahead _ body | .group _ body | .star _ _ body | .plus _ _ body | .opt _ _ body =>
      body.NoBackReference
  | .seq first second | .alt first second => first.NoBackReference ∧ second.NoBackReference
  | _ => True

theorem weight_pos (n : Node) : 0 < n.weight := by
  cases n <;> simp [weight]

end Node

end SearchDaemon.Pattern
