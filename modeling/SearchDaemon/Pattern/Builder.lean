import SearchDaemon.Pattern.Token
import SearchDaemon.Pattern.Node

/-!
# From tokens to pattern trees

One pass over the tokens with a stack of open groups. A term is finished when
the token after its quantifier is known, because a question mark there makes the
quantifier lazy.

The tree is charged in states of the automaton that the pattern would become;
a pattern that needs more than `stateLimit` of them is refused at the moment the
limit is passed. A token may only be taken once the text behind it has been cut
into the next token, so a fault there comes before what the taken token causes.
-/

namespace SearchDaemon.Pattern

/-- The most states a pattern may take. -/
def stateLimit : Nat := 100000

/-- A tree and the states it takes. -/
structure Piece where
  node : Node
  states : Nat
deriving DecidableEq, Repr

inductive FrameKind where
  /-- The whole pattern. -/
  | whole
  | group (number : Nat)
  | plain
  | lookahead (negated : Bool)
deriving DecidableEq, Repr

/-- An open group: the alternatives it has so far and the terms of the present
one, last term first. -/
structure OpenGroup where
  kind : FrameKind
  choices : Option Piece := none
  terms : List Piece := []
deriving DecidableEq, Repr

/-- What stands last inside a bracket expression. -/
inductive LastTerm where
  | nothing
  /-- A byte that may yet begin a range. -/
  | byte (b : UInt8)
  | cls
deriving DecidableEq, Repr

/-- A bracket expression in the making, its terms last first. -/
structure Bracket where
  negated : Bool
  terms : List SetTerm := []
  last : LastTerm := .nothing
deriving DecidableEq, Repr

inductive Quantifier where
  | star
  | plus
  | opt
  /-- Between `least` and `least + more` times; without `more` there is no upper bound. -/
  | count (least : Int) (more : Option Int)
deriving DecidableEq, Repr

/-- What the next token is read as. -/
inductive Stage where
  | term
  /-- The quantifier has been read, a lazy mark may follow. -/
  | quantified (quantifier : Quantifier)
  | bracketStart (negated : Bool)
  | bracket (b : Bracket)
  | bracketDash (b : Bracket)
  | braceStart
  | braceLeast (least : Int)
  | braceComma (least : Int)
  | braceMost (least most : Int)
deriving DecidableEq, Repr

structure Builder where
  /-- States taken so far, those of discarded originals included. -/
  states : Nat := 1
  /-- The number of the next group; the whole pattern is group 0. -/
  nextGroup : Nat := 1
  /-- Above all repeat numbers in use. -/
  nextLoop : Nat := 0
  top : OpenGroup := { kind := .whole }
  outer : List OpenGroup := []
  /-- The last term may take a quantifier. -/
  quantifiable : Bool := false
  stage : Stage := .term
deriving DecidableEq, Repr

abbrev Build (α : Type) := Except PatternError α

namespace Builder

def charge (b : Builder) (n : Nat) : Build Builder :=
  if stateLimit < b.states + n then .error .tooManyStates
  else .ok { b with states := b.states + n }

/-- Appends a term that takes the given number of new states. -/
def push (b : Builder) (node : Node) (quantifiable : Bool) : Build Builder := do
  let b ← b.charge 1
  .ok { b with
    top := { b.top with terms := ⟨node, 1⟩ :: b.top.terms }, quantifiable, stage := .term }

/-- A sequence of pieces, closed by an empty one. -/
def sequence (terms : List Piece) : Piece :=
  terms.foldl (fun later term => ⟨.seq term.node later.node, term.states + later.states⟩)
    ⟨.empty, 1⟩

/-- Ends the present alternative and joins it to those before it. -/
def endAlternative (b : Builder) : Build Builder := do
  let b ← b.charge 1
  let latest := sequence b.top.terms
  match b.top.choices with
  | none =>
      .ok { b with
        top := { b.top with choices := some latest, terms := [] }, quantifiable := false }
  | some earlier => do
      let b ← b.charge 2
      let joined : Piece :=
        ⟨.seq (.alt earlier.node latest.node) .empty, earlier.states + latest.states + 2⟩
      .ok { b with
        top := { b.top with choices := some joined, terms := [] }, quantifiable := false }

/-- The groups whose end has not been read, the whole pattern among them. -/
def openGroups (b : Builder) : List Nat :=
  (b.top :: b.outer).map fun g =>
    match g.kind with
    | .group number => number
    | _ => 0

def backReference (b : Builder) (index : Int) : Build Builder :=
  match index with
  | .negSucc _ => .error .noSuchGroup
  | .ofNat n =>
      if b.nextGroup ≤ n then .error .noSuchGroup
      else if n ∈ b.openGroups then .error .openGroup
      else b.push (.backReference n) true

/-- Opens a group. -/
def openGroup (b : Builder) (kind : FrameKind) : Builder :=
  { b with top := { kind }, outer := b.top :: b.outer, quantifiable := false, stage := .term }

/-- The contents of a group whose alternatives have all ended. -/
def contents (g : OpenGroup) : Piece := g.choices.getD ⟨.empty, 0⟩

/-- Ends the innermost group, which becomes a term of the one around it. -/
def closeGroup (b : Builder) : Build Builder :=
  match b.outer with
  | [] => .error .unbalanced
  | around :: outer => do
      let body := contents b.top
      let (extra, term, quantifiable) : Nat × Piece × Bool := match b.top.kind with
        | .whole | .plain => (0, ⟨.seq .empty body.node, body.states + 1⟩, true)
        | .group n => (1, ⟨.group n body.node, body.states + 2⟩, true)
        | .lookahead negated => (2, ⟨.lookahead negated body.node, body.states + 2⟩, false)
      let b ← b.charge extra
      .ok { b with
        top := { around with terms := term :: around.terms }, outer, quantifiable,
        stage := .term }

/-- Copies of a piece one after the other in front of a tail, each with repeat
numbers of its own. -/
def copies (r : Piece) (span first : Nat) : (n : Nat) → (tail : Piece) → Piece
  | 0, tail => tail
  | n + 1, tail =>
      copies r span first n
        ⟨.seq (r.node.shiftLoops (span * (first + n))) tail.node, r.states + tail.states⟩

/-- A chain of optional copies of a piece, each inside the one before it. -/
def optionalCopies (r : Piece) (lazy : Bool) (span first loops : Nat) :
    (n : Nat) → (tail : Piece) → Piece
  | 0, tail => tail
  | n + 1, tail =>
      optionalCopies r lazy span first loops n
        ⟨.opt (loops + n) lazy (.seq (r.node.shiftLoops (span * (first + n))) tail.node),
          r.states + tail.states + 1⟩

/-- Applies a quantifier to the last term. The state in front of counted copies
has been charged with the opening brace. -/
def quantify (b : Builder) (q : Quantifier) (lazy : Bool) : Build Builder :=
  match b.top.terms with
  | [] => .error .unbalanced
  | r :: terms => do
      let finish (b : Builder) (p : Piece) (loops : Nat) : Builder :=
        { b with
          top := { b.top with terms := p :: terms }, nextLoop := loops, quantifiable := true,
          stage := .term }
      let fresh := b.nextLoop
      match q with
      | .star => do
          let b ← b.charge 1
          .ok (finish b ⟨.star fresh lazy r.node, r.states + 1⟩ (fresh + 1))
      | .plus => do
          let b ← b.charge 1
          .ok (finish b ⟨.plus fresh lazy r.node, r.states + 1⟩ (fresh + 1))
      | .opt => do
          let b ← b.charge 2
          .ok (finish b ⟨.seq (.opt fresh lazy r.node) .empty, r.states + 2⟩ (fresh + 1))
      | .count least more => do
          let least := least.toNat
          let b ← b.charge (least * r.states)
          match more with
          | none => do
              let b ← b.charge (r.states + 1)
              let loops := fresh * (least + 2)
              let last : Piece :=
                ⟨.star loops lazy (r.node.shiftLoops (fresh * (least + 1))), r.states + 1⟩
              let all := copies r fresh 1 least last
              .ok (finish b ⟨.seq .empty all.node, all.states + 1⟩ (loops + 1))
          | some (.negSucc _) => .error .badBrace
          | some (.ofNat more) => do
              let b ← b.charge (1 + more * (r.states + 1))
              let loops := fresh * (least + more + 1)
              let all := copies r fresh 1 least
                (optionalCopies r lazy fresh (least + 1) loops more ⟨.empty, 0⟩)
              .ok (finish b ⟨.seq .empty (.seq all.node .empty), all.states + 2⟩
                (loops + more))

end Builder

namespace Bracket

/-- Puts a byte that waited for a dash among the terms. -/
def settle (b : Bracket) : Bracket :=
  match b.last with
  | .byte c => { b with terms := .byte c :: b.terms, last := .nothing }
  | _ => b

def pushByte (b : Bracket) (c : UInt8) : Bracket := { b.settle with last := .byte c }

def pushClass (b : Bracket) (term : SetTerm) : Bracket :=
  { b.settle with terms := term :: b.settle.terms, last := .cls }

def pushRange (b : Bracket) (first last : UInt8) : Build Bracket :=
  if signedByte last < signedByte first then .error .emptyRange
  else .ok { b with terms := .range first last :: b.terms, last := .nothing }

/-- Takes a term other than a dash or the end. -/
def pushTerm (b : Bracket) : Token → Build Bracket
  | .byte c => .ok (b.pushByte c)
  | .collating name =>
      match byteNamed? name with
      | none => .error .unknownCollating
      | some c => .ok (b.pushByte c)
  | .equivalence name =>
      match byteNamed? name with
      | none => .error .unknownEquivalence
      | some c => .ok (b.pushClass (.equivalent c))
  | .className name =>
      match ByteClass.ofName? name with
      | none => .error .unknownClass
      | some c => .ok (b.pushClass (.cls c))
  | .classLetter letter =>
      match ByteClass.ofName? [letter] with
      | none => .error .unknownClass
      | some c =>
          .ok (b.pushClass (if ByteClass.isUpper letter then .outside c else .cls c))
  | _ => .error .badBracketTerm

/-- Whether a token can stand inside brackets at all. -/
def admits : Token → Bool
  | .byte _ | .collating _ | .equivalence _ | .className _ | .classLetter _ => true
  | _ => false

def toSet (b : Bracket) : ByteSet :=
  { negated := b.negated, terms := b.settle.terms.reverse }

end Bracket

/-- The set a class letter stands for. -/
def letterSet? (letter : UInt8) : Option ByteSet :=
  (ByteClass.ofName? [letter]).map fun c =>
    { negated := ByteClass.isUpper letter, terms := [.cls c] }

namespace Builder

/-- Reads a token where a term, a bar or a closing parenthesis may stand. -/
def termStep (b : Builder) (t : Token) (ahead : Build Unit) : Build Builder :=
  match t with
  | .byte c => do ahead; b.push (.bytes (ByteSet.single c)) true
  | .anyByte => do ahead; b.push (.bytes ByteSet.notLineEnd) true
  | .classLetter letter => do
      ahead
      match letterSet? letter with
      | none => .error .unknownClass
      | some set => b.push (.bytes set) true
  | .lineBegin => do ahead; b.push .lineBegin false
  | .lineEnd => do ahead; b.push .lineEnd false
  | .wordBoundary negated => do ahead; b.push (.wordBoundary negated) false
  | .backReference index => do ahead; b.backReference index
  | .groupOpen => do
      ahead
      let b ← b.charge 1
      .ok ({ b with nextGroup := b.nextGroup + 1 }.openGroup (.group b.nextGroup))
  | .plainOpen => do
      ahead
      let b ← b.charge 1
      .ok (b.openGroup .plain)
  | .lookaheadOpen negated => do ahead; .ok (b.openGroup (.lookahead negated))
  | .bracketOpen negated => do ahead; .ok { b with stage := .bracketStart negated }
  | .bar => do
      let b ← b.endAlternative
      ahead
      .ok { b with stage := .term }
  | .close => do
      let b ← b.endAlternative
      if b.outer.isEmpty then .error .unbalanced
      else do ahead; b.closeGroup
  | other =>
      let quantifier : Option Stage := match other with
        | .star => some (.quantified .star)
        | .plus => some (.quantified .plus)
        | .question => some (.quantified .opt)
        | .braceOpen => some .braceStart
        | _ => none
      match quantifier, b.quantifiable with
      | some stage, true => do ahead; .ok { b with stage }
      | _, _ => do
          let _ ← b.endAlternative
          .error .unbalanced

/-- Reads a token inside brackets. -/
def bracketStep (b : Builder) (s : Bracket) (t : Token) (ahead : Build Unit) :
    Build Builder :=
  match t with
  | .bracketClose => do ahead; b.push (.bytes s.toSet) true
  | .dash => do ahead; .ok { b with stage := .bracketDash s }
  | t =>
      if Bracket.admits t then do
        ahead
        let s ← s.pushTerm t
        .ok { b with stage := .bracket s }
      else .error .badBracketTerm

/-- Reads the token behind a dash inside brackets. -/
def dashStep (b : Builder) (s : Bracket) (t : Token) (ahead : Build Unit) : Build Builder :=
  match t, s.last with
  | .bracketClose, _ => do ahead; b.push (.bytes (s.pushByte 45).toSet) true
  | _, .cls => .error .classStartsRange
  | .byte last, .byte first => do
      ahead
      let s ← s.pushRange first last
      .ok { b with stage := .bracket s }
  | .dash, .byte first => do
      ahead
      let s ← s.pushRange first 45
      .ok { b with stage := .bracket s }
  | _, .byte _ => .error .classEndsRange
  | t, .nothing => b.bracketStep (s.pushByte 45) t ahead

/-- Reads one token. `ahead` fails with the fault of the text behind the token,
if there is one; it is consulted once the token is known to fit. -/
def step (b : Builder) (t : Token) (ahead : Build Unit) : Build Builder :=
  match b.stage with
  | .term => b.termStep t ahead
  | .quantified q =>
      match t with
      | .question => do ahead; b.quantify q true
      | t => do
          let b ← b.quantify q false
          b.termStep t ahead
  | .bracketStart negated =>
      match t with
      | .dash => do ahead; .ok { b with stage := .bracket { negated, last := .byte 45 } }
      | t => b.bracketStep { negated } t ahead
  | .bracket s => b.bracketStep s t ahead
  | .bracketDash s => b.dashStep s t ahead
  | .braceStart =>
      match t with
      | .count least => do
          ahead
          let b ← b.charge 1
          .ok { b with stage := .braceLeast least }
      | _ => .error .badBrace
  | .braceLeast least =>
      match t with
      | .comma => do ahead; .ok { b with stage := .braceComma least }
      | .braceClose => do ahead; .ok { b with stage := .quantified (.count least (some 0)) }
      | _ => .error .unclosedBrace
  | .braceComma least =>
      match t with
      | .count most => do ahead; .ok { b with stage := .braceMost least most }
      | .braceClose => do ahead; .ok { b with stage := .quantified (.count least none) }
      | _ => .error .unclosedBrace
  | .braceMost least most =>
      match t with
      | .braceClose => do
          ahead
          .ok { b with stage := .quantified (.count least (some (most - least))) }
      | _ => .error .unclosedBrace

/-- The end of the tokens: every group but the whole pattern must be closed. -/
def finish (b : Builder) : Build Builder := do
  let close (b : Builder) : Build Builder := do
    let b ← b.endAlternative
    if b.outer.isEmpty then b.charge 2 else .error .unbalanced
  match b.stage with
  | .term => close b
  | .quantified q => do
      let b ← b.quantify q false
      close b
  | .bracketStart _ | .bracket _ => .error .badBracketTerm
  | .bracketDash s =>
      match s.last with
      | .cls => .error .classStartsRange
      | .byte _ => .error .classEndsRange
      | .nothing => .error .badBracketTerm
  | .braceStart => .error .badBrace
  | .braceLeast _ | .braceComma _ | .braceMost .. => .error .unclosedBrace

/-- Reads all tokens, the last of which may be followed by faulty text. -/
def run (fault : Option PatternError) : (tokens : List Token) → Builder → Build Builder
  | [], b => b.finish
  | t :: rest, b => do
      let ahead : Build Unit := match rest, fault with
        | [], some e => .error e
        | _, _ => .ok ()
      let b ← b.step t ahead
      run fault rest b

end Builder

end SearchDaemon.Pattern

namespace SearchDaemon

/-- A pattern that can be searched for. -/
structure Pattern where
  root : Pattern.Node
  /-- The number of groups, the whole pattern included. -/
  groups : Nat
  /-- Above all repeat numbers of the tree. -/
  loops : Nat
deriving DecidableEq, Repr

namespace Pattern

/-- The pattern a text stands for. -/
def compile (source : Bytes) : Except PatternError Pattern :=
  let lexed := lex source
  match lexed.tokens, lexed.fault with
  | [], some e => .error e
  | tokens, fault => do
      let b ← Builder.run fault tokens {}
      .ok { root := (Builder.contents b.top).node, groups := b.nextGroup, loops := b.nextLoop }

end Pattern

end SearchDaemon
