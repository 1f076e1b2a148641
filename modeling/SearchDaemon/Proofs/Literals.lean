import Mathlib.Data.List.Forall2
import Mathlib.Data.List.Infix
import SearchDaemon.Pattern.Search
import SearchDaemon.Proofs.Fields

/-!
# Patterns for a literal text

A text with a backslash in front of every byte that has a meaning of its own is a pattern for
exactly that text. The proof follows the pattern on its way: it is cut into one token for each
byte of the text, the tokens build a chain of single bytes, and the search takes such a chain
apart byte by byte.
-/

namespace SearchDaemon.Pattern

/-- The bytes that do not stand for themselves in a pattern. -/
def special : Bytes := text "^$\\.*+?()[]\x7b\x7d|"

/-- A text as a pattern for it, with a backslash before each special byte. -/
def literally (s : Bytes) : Bytes :=
  s.flatMap fun b => if b ∈ special then [92, b] else [b]

/-! ## Tokens -/

section

variable {b : UInt8} {rest s : Bytes} {fuel : Nat}

theorem nextToken_ordinary (h : b ∉ special) :
    nextToken .plain b rest = .ok (.byte b, .plain, rest) := by
  unfold nextToken
  dsimp only
  split <;> first | rfl | exact absurd (by decide) h

theorem nextToken_escaped (h : b ∈ special) :
    nextToken .plain 92 (b :: rest) = .ok (.byte b, .plain, rest) := by
  have hspecial : special = [94, 36, 92, 46, 42, 43, 63, 40, 41, 91, 93, 123, 125, 124] := by
    decide
  simp only [hspecial, List.mem_cons, List.not_mem_nil, or_false] at h
  rcases h with rfl | rfl | rfl | rfl | rfl | rfl | rfl | rfl | rfl | rfl | rfl | rfl | rfl |
    rfl <;> rfl

theorem lexFrom_cons {c : UInt8} {token : Token} {region region' : Region} {after : Bytes}
    (h : nextToken region c rest = .ok (token, region', after)) :
    lexFrom (fuel + 1) region (c :: rest) =
      ⟨token :: (lexFrom fuel region' after).tokens, (lexFrom fuel region' after).fault⟩ := by
  rw [lexFrom, h]

/-- A literal text is cut into its bytes. -/
theorem lexFrom_literally (s : Bytes) :
    lexFrom (s.length + fuel) .plain (literally s ++ rest) =
      ⟨s.map .byte ++ (lexFrom fuel .plain rest).tokens, (lexFrom fuel .plain rest).fault⟩ := by
  induction s with
  | nil => simp [literally]
  | cons b s ih =>
      have hlater : literally (b :: s) ++ rest =
          (if b ∈ special then [92, b] else [b]) ++ (literally s ++ rest) := by
        simp only [literally, List.flatMap_cons, List.append_assoc]
      have hone : (b :: s).length + fuel = s.length + fuel + 1 := by
        rw [List.length_cons, Nat.add_right_comm]
      rw [hlater, hone]
      split
      · rename_i hspecial
        rw [List.cons_append, List.singleton_append, lexFrom_cons (nextToken_escaped hspecial), ih]
        rfl
      · rename_i hordinary
        rw [List.singleton_append, lexFrom_cons (nextToken_ordinary hordinary), ih]
        rfl

theorem length_le_literally (s : Bytes) : s.length ≤ (literally s).length := by
  induction s with
  | nil => exact Nat.le_refl 0
  | cons b s ih =>
      rw [literally, List.flatMap_cons, ← literally, List.length_append, List.length_cons]
      split <;> simp only [List.length_cons, List.length_nil] <;> omega

theorem lex_literally (s : Bytes) : lex (literally s) = ⟨s.map .byte, none⟩ := by
  obtain ⟨fuel, hfuel⟩ := Nat.exists_eq_add_of_le (length_le_literally s)
  have h : lexFrom (s.length + fuel) .plain (literally s ++ []) = _ := lexFrom_literally s
  rw [List.append_nil] at h
  rw [lex, hfuel, h]
  cases fuel <;> simp [lexFrom]

/-- Between a caret and a dollar sign, too. -/
theorem lex_anchored (s : Bytes) :
    lex (text "^" ++ literally s ++ text "$") =
      ⟨.lineBegin :: (s.map .byte ++ [.lineEnd]), none⟩ := by
  obtain ⟨fuel, hfuel⟩ := Nat.exists_eq_add_of_le (length_le_literally s)
  have htext : text "^" ++ literally s ++ text "$" = 94 :: (literally s ++ [36]) := rfl
  have hlength : (94 :: (literally s ++ [36])).length = s.length + (fuel + 1) + 1 := by
    simp only [List.length_cons, List.length_append, List.length_nil, hfuel]
    omega
  have hbegin : nextToken .plain 94 (literally s ++ [36]) =
      .ok (.lineBegin, .plain, literally s ++ [36]) := rfl
  have hend : lexFrom (fuel + 1) .plain [36] = ⟨[.lineEnd], none⟩ := by
    cases fuel <;> rfl
  rw [lex, htext, hlength, lexFrom_cons hbegin, lexFrom_literally, hend]

end

/-! ## The tree -/

/-- What a token stands for that needs no other beside it. -/
def Token.leaf? : Token → Option Node
  | .byte b => some (.bytes (.single b))
  | .lineBegin => some .lineBegin
  | .lineEnd => some .lineEnd
  | _ => none

/-- Nodes one after the other. -/
def chain (nodes : List Node) : Node := nodes.foldr .seq .empty

namespace Builder

theorem sequence_node (terms : List Piece) :
    (sequence terms).node = chain (terms.reverse.map Piece.node) := by
  have hfold (acc : Piece) :
      (terms.foldl (fun later term =>
        (⟨.seq term.node later.node, term.states + later.states⟩ : Piece)) acc).node =
        (terms.reverse.map Piece.node).foldr .seq acc.node := by
    induction terms generalizing acc with
    | nil => rfl
    | cons term terms ih =>
        rw [List.foldl_cons, ih, List.reverse_cons, List.map_append, List.foldr_append]
        rfl
  exact hfold ⟨.empty, 1⟩

theorem charge_of_le {b : Builder} {n : Nat} (h : b.states + n ≤ stateLimit) :
    b.charge n = .ok { b with states := b.states + n } :=
  if_neg (Nat.not_lt.mpr h)

theorem charge_of_lt {b : Builder} {n : Nat} (h : stateLimit < b.states + n) :
    b.charge n = .error .tooManyStates :=
  if_pos h

theorem run_cons (b : Builder) (token : Token) (rest : List Token) :
    run none (token :: rest) b = (b.step token (.ok ()) >>= run none rest) := by
  cases rest <;> rfl

/-- A leaf is pushed. -/
theorem step_leaf {b : Builder} {token : Token} {node : Node} (leaf : token.leaf? = some node)
    (stage : b.stage = .term) :
    ∃ quantifiable, b.step token (.ok ()) = b.push node quantifiable := by
  unfold step
  rw [stage]
  cases token with
  | byte | lineBegin | lineEnd =>
      cases leaf
      exact ⟨_, rfl⟩
  | _ => contradiction

/-- The end of a pattern without groups takes three more states. -/
theorem finish_eq {b : Builder} (stage : b.stage = .term) (alone : b.outer = [])
    (single : b.top.choices = none) :
    b.finish =
      if b.states + 3 ≤ stateLimit then
        .ok { b with
          states := b.states + 3
          top := { b.top with choices := some (sequence b.top.terms), terms := [] }
          quantifiable := false }
      else .error .tooManyStates := by
  unfold finish
  rw [stage]
  dsimp only
  unfold endAlternative
  by_cases hone : b.states + 1 ≤ stateLimit
  · rw [charge_of_le hone, ok_bind]
    dsimp only
    rw [single]
    dsimp only
    rw [ok_bind, alone, List.isEmpty_nil, if_pos rfl]
    by_cases hall : b.states + 1 + 2 ≤ stateLimit
    · rw [charge_of_le hall, if_pos hall, stage]
    · rw [charge_of_lt (Nat.not_le.mp hall), if_neg hall]
  · rw [charge_of_lt (Nat.not_le.mp hone), if_neg (by omega)]
    rfl

/-- Leaves become a chain, if there are states enough. -/
theorem run_leaves {tokens : List Token} {nodes : List Node}
    (leaves : List.Forall₂ (fun token node => token.leaf? = some node) tokens nodes)
    {b : Builder} (stage : b.stage = .term) (alone : b.outer = [])
    (single : b.top.choices = none) :
    if b.states + tokens.length + 3 ≤ stateLimit then
      ∃ b', run none tokens b = .ok b' ∧
        (contents b'.top).node = chain (b.top.terms.reverse.map Piece.node ++ nodes) ∧
        b'.nextGroup = b.nextGroup ∧ b'.nextLoop = b.nextLoop
    else run none tokens b = .error .tooManyStates := by
  induction leaves generalizing b with
  | nil =>
      rw [run, finish_eq stage alone single, List.length_nil, Nat.add_zero]
      split
      · refine ⟨_, rfl, ?_, rfl, rfl⟩
        rw [List.append_nil]
        exact sequence_node _
      · rfl
  | @cons token node tokens nodes leaf _ ih =>
      obtain ⟨quantifiable, hstep⟩ := step_leaf leaf stage
      rw [run_cons, hstep, push, List.length_cons]
      by_cases hone : b.states + 1 ≤ stateLimit
      · rw [charge_of_le hone, ok_bind, ok_bind]
        have hlater := ih (b := { b with
            states := b.states + 1
            top := { b.top with terms := ⟨node, 1⟩ :: b.top.terms }
            quantifiable, stage := .term }) rfl alone single
        have hcount : b.states + (tokens.length + 1) + 3 = b.states + 1 + tokens.length + 3 := by
          omega
        rw [hcount]
        simpa only [List.reverse_cons, List.map_append, List.map_cons, List.map_nil,
          List.append_assoc, List.singleton_append] using hlater
      · rw [charge_of_lt (Nat.not_le.mp hone), if_neg (by omega)]
        rfl

end Builder

/-- A pattern made of leaves alone is a chain of them, and takes a state for each and four
more. -/
theorem compile_leaves {source : Bytes} {tokens : List Token} {nodes : List Node}
    (lexed : lex source = ⟨tokens, none⟩)
    (leaves : List.Forall₂ (fun token node => token.leaf? = some node) tokens nodes) :
    compile source =
      if tokens.length + 4 ≤ stateLimit then .ok { root := chain nodes, groups := 1, loops := 0 }
      else .error .tooManyStates := by
  have hrun := Builder.run_leaves leaves (b := {}) rfl rfl rfl
  have hstates : ({} : Builder).states + tokens.length + 3 = tokens.length + 4 := by
    show 1 + tokens.length + 3 = _
    omega
  rw [hstates] at hrun
  have hcompile : compile source = (Builder.run none tokens {} >>= fun b =>
      .ok
        { root := (Builder.contents b.top).node
          groups := b.nextGroup
          loops := b.nextLoop }) := by
    rw [compile, lexed]
    cases tokens <;> rfl
  rw [hcompile]
  split at hrun
  · rename_i henough
    obtain ⟨b', hok, hnode, hgroups, hloops⟩ := hrun
    rw [if_pos henough, hok, ok_bind, hnode, hgroups, hloops]
    rfl
  · rename_i htoo
    rw [if_neg htoo, hrun]
    rfl

/-! ## The search -/

section

variable {loops depth : Nat} {scope : Scope} {goals : List Goal} {before : Option UInt8}
  {rest : Bytes} {visits : List Nat} {captures : Captures}

theorem solve_seq (first second : Node) :
    solve loops depth scope (.node (.seq first second) :: goals) before rest visits captures =
      solve loops depth scope (.node first :: .node second :: goals) before rest visits
        captures := by
  rw [solve]

theorem solve_empty :
    solve loops depth scope (.node .empty :: goals) before rest visits captures =
      solve loops depth scope goals before rest visits captures := by
  rw [solve]

theorem solve_bytes_cons (set : ByteSet) (b : UInt8) :
    solve loops depth scope (.node (.bytes set) :: goals) before (b :: rest) visits captures =
      if set.contains b then solve loops depth scope goals (some b) rest [] captures
      else .failed captures := by
  rw [solve]

theorem solve_bytes_nil (set : ByteSet) :
    solve loops depth scope (.node (.bytes set) :: goals) before [] visits captures =
      .failed captures := by
  rw [solve]

theorem solve_lineBegin :
    solve loops depth scope (.node .lineBegin :: goals) before rest visits captures =
      if atBeginning scope rest then solve loops depth scope goals before rest visits captures
      else .failed captures := by
  rw [solve]

theorem solve_lineEnd :
    solve loops depth scope (.node .lineEnd :: goals) before rest visits captures =
      if rest.isEmpty then solve loops depth scope goals before rest visits captures
      else .failed captures := by
  rw [solve]

end

/-- A chain can be matched at a place exactly if the predicate holds of what is left there,
whatever has been read before. -/
def Accepts (nodes : List Node) (accepted : Scope → Bytes → Prop) : Prop :=
  ∀ loops depth scope before rest visits captures,
    (solve loops depth scope [.node (chain nodes)] before rest visits captures).isMatch = true ↔
      accepted scope rest

section

variable {nodes : List Node} {accepted : Scope → Bytes → Prop}

theorem accepts_nil : Accepts [] fun _ _ => True := by
  intro loops depth scope before rest visits captures
  rw [chain, List.foldr_nil, solve_empty, solve]
  exact iff_of_true rfl trivial

/-- The beginning of the text is where the search has not moved. -/
theorem Accepts.lineBegin (h : Accepts nodes accepted) :
    Accepts (.lineBegin :: nodes) fun scope rest =>
      atBeginning scope rest = true ∧ accepted scope rest := by
  intro loops depth scope before rest visits captures
  rw [chain, List.foldr_cons, ← chain, solve_seq, solve_lineBegin]
  split
  · rename_i hbegin
    rw [h]
    exact (and_iff_right hbegin).symm
  · rename_i hmoved
    exact iff_of_false nofun fun hboth => hmoved hboth.1

theorem Accepts.lineEnd (h : Accepts nodes accepted) :
    Accepts (.lineEnd :: nodes) fun scope rest => rest = [] ∧ accepted scope rest := by
  intro loops depth scope before rest visits captures
  rw [chain, List.foldr_cons, ← chain, solve_seq, solve_lineEnd]
  split
  · rename_i hend
    rw [h]
    exact (and_iff_right (List.isEmpty_iff.mp hend)).symm
  · rename_i hmore
    exact iff_of_false nofun fun hboth => hmore (List.isEmpty_iff.mpr hboth.1)

/-- The bytes of a text take that text off. -/
theorem Accepts.bytes (h : Accepts nodes accepted) (s : Bytes) :
    Accepts (s.map (fun b => .bytes (.single b)) ++ nodes) fun scope rest =>
      ∃ rest', rest = s ++ rest' ∧ accepted scope rest' := by
  induction s with
  | nil =>
      intro loops depth scope before rest visits captures
      simpa using h loops depth scope before rest visits captures
  | cons b s ih =>
      intro loops depth scope before rest visits captures
      rw [List.map_cons, List.cons_append, chain, List.foldr_cons, ← chain, solve_seq]
      cases rest with
      | nil =>
          rw [solve_bytes_nil]
          exact iff_of_false nofun (by simp)
      | cons c rest =>
          rw [solve_bytes_cons, ByteSet.contains_single]
          by_cases hbyte : b = c
          · subst hbyte
            simpa using ih loops depth scope (some b) rest [] captures
          · rw [decide_eq_false hbyte]
            exact iff_of_false nofun (by simp [Ne.symm hbyte])

end

/-- The pattern matches a beginning of what is left at a place. -/
def matchesAt (p : Pattern) (before : Option UInt8) (rest : Bytes) : Bool :=
  (solve p.loops p.root.lookaheadDepth { start := rest.length, moved := before.isSome }
    [.node p.root] before rest [] (Array.replicate p.groups none)).isMatch

section

variable {p : Pattern} {s : Bytes}

theorem searchFrom_nil (before : Option UInt8) :
    searchFrom p before [] = matchesAt p before [] := by
  rw [searchFrom]
  exact Bool.or_false _

theorem searchFrom_cons (before : Option UInt8) (b : UInt8) (rest : Bytes) :
    searchFrom p before (b :: rest) =
      (matchesAt p before (b :: rest) || searchFrom p (some b) rest) := by
  rw [searchFrom]
  rfl

/-- A text that can be matched anywhere is found wherever it occurs. -/
theorem occursIn_of_anywhere (h : ∀ before rest, matchesAt p before rest = true ↔ s <+: rest)
    (name : Bytes) : p.occursIn name = true ↔ s <:+: name := by
  have hsearch (before : Option UInt8) : searchFrom p before name = true ↔ s <:+: name := by
    induction name generalizing before with
    | nil => rw [searchFrom_nil, h, List.prefix_nil, List.infix_nil]
    | cons b rest ih => rw [searchFrom_cons, Bool.or_eq_true, h, ih, List.infix_cons_iff]
  exact hsearch none

/-- A text that can be matched only as the whole is found in itself alone. -/
theorem occursIn_of_whole
    (h : ∀ before rest, matchesAt p before rest = true ↔ before = none ∧ rest = s)
    (name : Bytes) : p.occursIn name = true ↔ name = s := by
  have hmoved (b : UInt8) (rest : Bytes) : searchFrom p (some b) rest = false := by
    have hnot (b : UInt8) (rest : Bytes) : matchesAt p (some b) rest = false := by
      rw [← Bool.not_eq_true, h]
      exact fun hboth => nomatch hboth.1
    induction rest generalizing b with
    | nil => rw [searchFrom_nil, hnot]
    | cons c rest ih => rw [searchFrom_cons, hnot, ih, Bool.or_false]
  have hhere : p.occursIn name = matchesAt p none name := by
    unfold occursIn
    cases name with
    | nil => rw [searchFrom_nil]
    | cons b rest => rw [searchFrom_cons, hmoved, Bool.or_false]
  rw [hhere, h]
  exact and_iff_right rfl

end

/-! ## Literal patterns -/

/-- A pattern takes so many states and, if they are not too many, finds exactly the given
names. -/
def Finds (source : Bytes) (states : Nat) (names : Bytes → Prop) : Prop :=
  if states ≤ stateLimit then
    ∃ p, compile source = .ok p ∧ ∀ name, p.occursIn name = true ↔ names name
  else compile source = .error .tooManyStates

theorem leaves_bytes (s : Bytes) :
    List.Forall₂ (fun token node => Token.leaf? token = some node)
      (s.map .byte) (s.map fun b => .bytes (.single b)) := by
  rw [List.forall₂_map_left_iff, List.forall₂_map_right_iff, List.forall₂_same]
  exact fun _ _ => rfl

/-- A pattern of leaves finds what the search for their chain finds. -/
theorem finds_leaves {source : Bytes} {tokens : List Token} {nodes : List Node}
    {names : Bytes → Prop} (lexed : lex source = ⟨tokens, none⟩)
    (leaves : List.Forall₂ (fun token node => token.leaf? = some node) tokens nodes)
    (found : ∀ name, occursIn { root := chain nodes, groups := 1, loops := 0 } name = true ↔
      names name) : Finds source (tokens.length + 4) names := by
  unfold Finds
  rw [compile_leaves lexed leaves]
  split
  · exact ⟨_, rfl, found⟩
  · rfl

/-- **A literal text finds the names that it occurs in, and between anchors the name that it
is.** Every byte that has a meaning of its own is written behind a backslash; the text and the
names may hold any bytes. The pattern can be used unless it takes more than `stateLimit` states,
one for each byte of the text and a few more, which is then the reason why it is refused. -/
theorem literal_text_finds_itself (s : Bytes) :
    Finds (literally s) (s.length + 4) (s <:+: ·) ∧
    Finds (text "^" ++ literally s ++ text "$") (s.length + 6) (· = s) := by
  have hbytes := leaves_bytes s
  constructor
  · have hfinds : Finds (literally s) _ (s <:+: ·) :=
      finds_leaves (lex_literally s) hbytes <| occursIn_of_anywhere fun before rest => by
        have haccepts := accepts_nil.bytes s
        rw [List.append_nil] at haccepts
        refine (haccepts ..).trans ?_
        simp [List.IsPrefix, eq_comm]
    rwa [List.length_map] at hfinds
  · have hleaves : List.Forall₂ (fun token node => Token.leaf? token = some node)
        (.lineBegin :: (s.map .byte ++ [.lineEnd]))
        (.lineBegin :: (s.map (fun b => .bytes (.single b)) ++ [.lineEnd])) :=
      .cons rfl (List.rel_append hbytes (.cons rfl .nil))
    have hfinds : Finds (text "^" ++ literally s ++ text "$") _ (· = s) :=
      finds_leaves (lex_anchored s) hleaves <| occursIn_of_whole fun before rest => by
        refine ((accepts_nil.lineEnd.bytes s).lineBegin ..).trans ?_
        simp [atBeginning]
    have hlength : (Token.lineBegin :: (s.map .byte ++ [.lineEnd])).length + 4 = s.length + 6 := by
      simp
    rwa [hlength] at hfinds

end SearchDaemon.Pattern
