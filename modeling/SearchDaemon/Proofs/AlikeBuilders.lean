import SearchDaemon.Proofs.AlikePatterns
import SearchDaemon.Proofs.PatternTexts

/-!
# One text read from two places

The same tokens are read by two builders, one that begins with nothing and one that has read
other alternatives before. After every token the groups that are open hold trees of one form; only
the outermost group of the second builder has the earlier alternatives in front of its own. The
second builder counts more states, so it may run out of them where the first one does not, but
nothing else can stop it alone.
-/

namespace SearchDaemon.Pattern

def Token.refersBack : Token → Bool
  | .backReference _ => true
  | _ => false

/-! ## Repeat numbers in copies -/

section

variable {n k l i j : Nat}

theorem block_eq_iff (hi : i < n) (hj : j < n) : n * k + i = n * l + j ↔ k = l ∧ i = j := by
  constructor
  · intro h
    have hpos : 0 < n := Nat.lt_of_le_of_lt (Nat.zero_le i) hi
    have hdiv := congrArg (· / n) h
    simp only [Nat.mul_add_div hpos, Nat.div_eq_of_lt hi, Nat.div_eq_of_lt hj, Nat.add_zero] at hdiv
    subst hdiv
    exact ⟨rfl, Nat.add_left_cancel h⟩
  · rintro ⟨rfl, rfl⟩
    rfl

theorem block_lt (hi : i < n) (hk : k < l) : n * k + i < n * l :=
  calc n * k + i < n * k + n := Nat.add_lt_add_left hi _
    _ = n * (k + 1) := (Nat.mul_succ n k).symm
    _ ≤ n * l := Nat.mul_le_mul_left n hk

end

namespace Pairing

variable {p : Pairing} {loops loops' : Nat}

/-- The pairs in so many blocks of copies, and some more behind them. -/
def spread (p : Pairing) (within : p.Within loops loops') (blocks extra : Nat) : Pairing where
  pairs x y :=
    (∃ k < blocks, ∃ i j, p.pairs i j ∧ loops * k + i = x ∧ loops' * k + j = y) ∨
      ∃ k < extra, loops * blocks + k = x ∧ loops' * blocks + k = y
  unique := by
    rintro x x' y y' (⟨k, hk, i, j, hpair, rfl, rfl⟩ | ⟨k, hk, rfl, rfl⟩)
      (⟨k', hk', i', j', hpair', rfl, rfl⟩ | ⟨k', hk', rfl, rfl⟩)
    · rw [block_eq_iff (within hpair).1 (within hpair').1,
        block_eq_iff (within hpair).2 (within hpair').2, p.unique hpair hpair']
    · have hlt := block_lt (within hpair).1 hk
      have hlt' := block_lt (within hpair).2 hk
      omega
    · have hlt := block_lt (within hpair').1 hk'
      have hlt' := block_lt (within hpair').2 hk'
      omega
    · omega

theorem spread_within (within : p.Within loops loops') (blocks extra : Nat) :
    (p.spread within blocks extra).Within (loops * blocks + extra) (loops' * blocks + extra) := by
  rintro x y (⟨k, hk, i, j, hpair, rfl, rfl⟩ | ⟨k, hk, rfl, rfl⟩)
  · have hlt := block_lt (within hpair).1 hk
    have hlt' := block_lt (within hpair).2 hk
    omega
  · omega

theorem spread_copy {within : p.Within loops loops'} {blocks extra k i j : Nat} (hk : k < blocks)
    (h : p.pairs i j) : (p.spread within blocks extra).pairs (i + loops * k) (j + loops' * k) :=
  .inl ⟨k, hk, i, j, h, Nat.add_comm _ _, Nat.add_comm _ _⟩

theorem spread_extra {within : p.Within loops loops'} {blocks extra k : Nat} (hk : k < extra) :
    (p.spread within blocks extra).pairs (loops * blocks + k) (loops' * blocks + k) :=
  .inr ⟨k, hk, rfl, rfl⟩

theorem spread_self {within : p.Within loops loops'} {blocks extra i j : Nat} (hblocks : 0 < blocks)
    (h : p.pairs i j) : (p.spread within blocks extra).pairs i j :=
  .inl ⟨0, hblocks, i, j, h, by rw [Nat.mul_zero, Nat.zero_add], by rw [Nat.mul_zero, Nat.zero_add]⟩

end Pairing

/-! ## What the builders hold -/

/-- Trees of one form, but for an earlier alternative that stands in front of all that the second
one has. -/
inductive Node.Joined (p : Pairing) : Option Node → Node → Node → Prop
  | alone {c c' : Node} : c.Alike p c' → Joined p none c c'
  | first (e : Node) {c c' : Node} : c.Alike p c' → Joined p (some e) c (.seq (.alt e c') .empty)
  | later {earlier : Option Node} {c d l l' : Node} : Joined p earlier c d → l.Alike p l' →
      Joined p earlier (.seq (.alt c l) .empty) (.seq (.alt d l') .empty)

/-- The alternatives that have ended. -/
inductive ChoicesAlike (p : Pairing) : Option Node → Option Piece → Option Piece → Prop
  | untouched : ChoicesAlike p none none none
  | earlier (e : Piece) : ChoicesAlike p (some e.node) none (some e)
  | joined {earlier : Option Node} {c d : Piece} : Node.Joined p earlier c.node d.node →
      ChoicesAlike p earlier (some c) (some d)

inductive FrameKind.Alike : FrameKind → FrameKind → Prop
  | whole : Alike .whole .whole
  | plain : Alike .plain .plain
  | group (number number' : Nat) : Alike (.group number) (.group number')
  | lookahead (negated : Bool) : Alike (.lookahead negated) (.lookahead negated)

def Piece.Alike (p : Pairing) (r r' : Piece) : Prop := r.node.Alike p r'.node

structure OpenGroup.Alike (p : Pairing) (earlier : Option Node) (g g' : OpenGroup) : Prop where
  choices : ChoicesAlike p earlier g.choices g'.choices
  terms : List.Forall₂ (Piece.Alike p) g.terms g'.terms

/-- The groups around two groups of the given kinds. Only the outermost of all groups has something
earlier; `here` is what the two groups themselves have. -/
inductive Around (p : Pairing) (earlier : Option Node) : (here : Option Node) →
    FrameKind → FrameKind → List OpenGroup → List OpenGroup → Prop
  | outermost (kind kind' : FrameKind) : Around p earlier earlier kind kind' [] []
  | inside {here : Option Node} {kind kind' : FrameKind} {g g' : OpenGroup}
      {outer outer' : List OpenGroup} : kind.Alike kind' → g.Alike p here g' →
        Around p earlier here g.kind g'.kind outer outer' →
          Around p earlier none kind kind' (g :: outer) (g' :: outer')

section

variable {p q : Pairing} {earlier here : Option Node}

theorem Node.Joined.alike {c d : Node} (h : Node.Joined p earlier c d) (alone : earlier = none) :
    c.Alike p d := by
  induction h with
  | alone halike => exact halike
  | first => contradiction
  | later _ hlater ih => exact .seq (.alt (ih alone) hlater) .empty

theorem Node.Joined.mono {c d : Node} (h : Node.Joined p earlier c d)
    (more : ∀ {i j}, p.pairs i j → q.pairs i j) : Node.Joined q earlier c d := by
  induction h with
  | alone halike => exact .alone (halike.mono more)
  | first e halike => exact .first e (halike.mono more)
  | later _ hlater ih => exact .later ih (hlater.mono more)

theorem ChoicesAlike.mono {choices choices' : Option Piece}
    (h : ChoicesAlike p here choices choices') (more : ∀ {i j}, p.pairs i j → q.pairs i j) :
    ChoicesAlike q here choices choices' := by
  cases h with
  | untouched => exact .untouched
  | earlier e => exact .earlier e
  | joined hjoined => exact .joined (hjoined.mono more)

theorem OpenGroup.Alike.mono {g g' : OpenGroup} (h : g.Alike p here g')
    (more : ∀ {i j}, p.pairs i j → q.pairs i j) : g.Alike q here g' :=
  ⟨h.choices.mono more, h.terms.imp fun _ _ halike => halike.mono more⟩

theorem Around.mono {kind kind' : FrameKind} {outer outer' : List OpenGroup}
    (h : Around p earlier here kind kind' outer outer')
    (more : ∀ {i j}, p.pairs i j → q.pairs i j) :
    Around q earlier here kind kind' outer outer' := by
  induction h with
  | outermost kind kind' => exact .outermost kind kind'
  | inside hkind hgroup _ ih => exact .inside hkind (hgroup.mono more) ih

theorem Around.isEmpty_eq {kind kind' : FrameKind} {outer outer' : List OpenGroup}
    (h : Around p earlier here kind kind' outer outer') : outer.isEmpty = outer'.isEmpty := by
  cases h <;> rfl

end

namespace Builder

/-! ## Builders side by side -/

/-- Two builders that read the same, the second one with an alternative from before. The floor is
the number of repeats in that alternative. -/
structure Tracks (earlier : Option Node) (floor : Nat) (b b' : Builder) : Prop where
  groups : ∃ (p : Pairing) (here : Option Node), p.Within b.nextLoop b'.nextLoop ∧
    b.top.Alike p here b'.top ∧ Around p earlier here b.top.kind b'.top.kind b.outer b'.outer
  floor_le : floor ≤ b'.nextLoop
  quantifiable : b.quantifiable = b'.quantifiable
  stage : b.stage = b'.stage

/-- If the first one gives a result, the second one gives a related one or needs too many
states. -/
def Keeps (R : Builder → Builder → Prop) (x y : Build Builder) : Prop :=
  ∀ b, x = .ok b → y = .error .tooManyStates ∨ ∃ b', y = .ok b' ∧ R b b'

namespace Keeps

variable {R S : Builder → Builder → Prop} {x y : Build Builder} {b b' : Builder}

theorem ok (h : R b b') : Keeps R (.ok b) (.ok b') := by
  rintro _ ⟨⟩
  exact .inr ⟨b', rfl, h⟩

theorem error (e : PatternError) : Keeps R (.error e) y := nofun

theorem bind {next next' : Builder → Build Builder} (h : Keeps R x y)
    (later : ∀ b b', R b b' → Keeps S (next b) (next' b')) :
    Keeps S (x >>= next) (y >>= next') := by
  intro b₂ hok
  obtain ⟨b₁, hx, hnext⟩ := bind_eq_ok.mp hok
  rcases h b₁ hx with hfull | ⟨b₁', hy, hrelated⟩
  · rw [hfull]
    exact .inl rfl
  · rw [hy]
    exact later b₁ b₁' hrelated b₂ hnext

/-- The same is done first on both sides. -/
theorem same {α : Type} (first : Build α) {next next' : α → Build Builder}
    (later : ∀ a, Keeps R (next a) (next' a)) : Keeps R (first >>= next) (first >>= next') := by
  cases first with
  | error e => exact error e
  | ok a => exact later a

theorem charge_left {n : Nat} {next : Builder → Build Builder}
    (later : ∀ s, Keeps R (next { b with states := s }) y) : Keeps R (b.charge n >>= next) y := by
  rw [charge]
  split
  · exact error _
  · exact later _

theorem charge_right {n : Nat} {next : Builder → Build Builder}
    (later : ∀ s, Keeps R x (next { b' with states := s })) :
    Keeps R x (b'.charge n >>= next) := by
  rw [charge]
  split
  · exact fun _ _ => .inl rfl
  · exact later _

/-- Both take states. -/
theorem charge {n n' : Nat} {next next' : Builder → Build Builder}
    (later : ∀ s s', Keeps R (next { b with states := s }) (next' { b' with states := s' })) :
    Keeps R (b.charge n >>= next) (b'.charge n' >>= next') :=
  charge_left fun s => charge_right fun s' => later s s'

theorem charged {n n' : Nat} (h : ∀ s s', R { b with states := s } { b' with states := s' }) :
    Keeps R (b.charge n) (b'.charge n') := by
  have hlast (b : Builder) (n : Nat) : b.charge n = (b.charge n >>= .ok) := by
    cases b.charge n <;> rfl
  rw [hlast b, hlast b']
  exact charge fun s s' => .ok (h s s')

end Keeps

/-! ## Terms -/

section

variable {p : Pairing}

theorem alike_chain {nodes nodes' : List Node} (h : List.Forall₂ (Node.Alike p) nodes nodes') :
    (chain nodes).Alike p (chain nodes') := by
  induction h with
  | nil => exact .empty
  | cons hnode _ ih => exact .seq hnode ih

theorem alike_sequence {terms terms' : List Piece} (h : List.Forall₂ (Piece.Alike p) terms terms') :
    (sequence terms).Alike p (sequence terms') := by
  rw [Piece.Alike, sequence_node, sequence_node]
  apply alike_chain
  rw [List.forall₂_map_left_iff, List.forall₂_map_right_iff]
  exact List.rel_reverse h

theorem alike_contents {g g' : OpenGroup} (h : g.Alike p none g') :
    (contents g).Alike p (contents g') := by
  have hchoices := h.choices
  unfold contents
  generalize g.choices = choices at hchoices
  generalize g'.choices = choices' at hchoices
  generalize hearlier : (none : Option Node) = earlier at hchoices
  cases hchoices with
  | untouched => exact .empty
  | earlier => contradiction
  | joined hjoined => exact hjoined.alike hearlier.symm

variable {r r' : Piece} {span span' first : Nat} {q : Pairing}

theorem alike_copies (alike : r.Alike p r') (n : Nat) {tail tail' : Piece}
    (shifted : ∀ k < first + n, ∀ {i j}, p.pairs i j → q.pairs (i + span * k) (j + span' * k))
    (htail : tail.Alike q tail') :
    (copies r span first n tail).Alike q (copies r' span' first n tail') := by
  induction n generalizing tail tail' with
  | zero => exact htail
  | succ n ih =>
      refine ih (fun k hk => shifted k (Nat.lt_succ_of_lt hk)) ?_
      exact .seq (alike.shift (shifted (first + n) (Nat.lt_succ_self _))) htail

theorem alike_optionalCopies (alike : r.Alike p r') (lazy : Bool) {loops loops' : Nat} (n : Nat)
    {tail tail' : Piece}
    (shifted : ∀ k < first + n, ∀ {i j}, p.pairs i j → q.pairs (i + span * k) (j + span' * k))
    (fresh : ∀ k < n, q.pairs (loops + k) (loops' + k)) (htail : tail.Alike q tail') :
    (optionalCopies r lazy span first loops n tail).Alike q
      (optionalCopies r' lazy span' first loops' n tail') := by
  induction n generalizing tail tail' with
  | zero => exact htail
  | succ n ih =>
      refine ih (fun k hk => shifted k (Nat.lt_succ_of_lt hk))
        (fun k hk => fresh k (Nat.lt_succ_of_lt hk)) ?_
      exact .opt lazy (fresh n (Nat.lt_succ_self n))
        (.seq (alike.shift (shifted (first + n) (Nat.lt_succ_self _))) htail)

end

/-! ## One token -/

section

variable {earlier : Option Node} {floor : Nat} {b b' : Builder}

namespace Tracks

/-- The states and the groups may be counted differently. -/
theorem counted (h : Tracks earlier floor b b') (s s' n n' : Nat) : Tracks earlier floor
    { b with states := s, nextGroup := n } { b' with states := s', nextGroup := n' } :=
  ⟨h.groups, h.floor_le, h.quantifiable, h.stage⟩

theorem withStage (h : Tracks earlier floor b b') (stage : Stage) :
    Tracks earlier floor { b with stage } { b' with stage } :=
  ⟨h.groups, h.floor_le, h.quantifiable, rfl⟩

theorem push (h : Tracks earlier floor b b') {node : Node} (leaf : ∀ p, node.Alike p node)
    (quantifiable : Bool) :
    Keeps (Tracks earlier floor) (b.push node quantifiable) (b'.push node quantifiable) := by
  refine .charge fun s s' => .ok ⟨?_, h.floor_le, rfl, rfl⟩
  obtain ⟨p, here, within, hgroup, haround⟩ := h.groups
  exact ⟨p, here, within, ⟨hgroup.choices, .cons (leaf p) hgroup.terms⟩, haround⟩

theorem endAlternative (h : Tracks earlier floor b b') :
    Keeps (fun b₁ b₁' => Tracks earlier floor b₁ b₁' ∧ b₁.top.choices ≠ none)
      b.endAlternative b'.endAlternative := by
  obtain ⟨p, here, within, ⟨hchoices, hterms⟩, haround⟩ := h.groups
  have hlatest := alike_sequence hterms
  -- Each case is the group with the alternatives that it then has.
  have hended {choices choices' : Piece} (hjoined : Node.Joined p here choices.node choices'.node)
      (s s' : Nat) : Tracks earlier floor
        { b with
          states := s, top := { b.top with choices := some choices, terms := [] }
          quantifiable := false }
        { b' with
          states := s', top := { b'.top with choices := some choices', terms := [] }
          quantifiable := false } :=
    ⟨⟨p, here, within, ⟨.joined hjoined, .nil⟩, haround⟩, h.floor_le, rfl, h.stage⟩
  unfold Builder.endAlternative
  refine .charge fun s s' => ?_
  dsimp only
  generalize b.top.choices = choices at hchoices
  generalize b'.top.choices = choices' at hchoices
  cases hchoices with
  | untouched => exact .ok ⟨hended (.alone hlatest) s s', nofun⟩
  | earlier e => exact .charge_right fun s' => .ok ⟨hended (.first e.node hlatest) s s', nofun⟩
  | joined hjoined =>
      exact .charge fun s s' => .ok ⟨hended (.later hjoined hlatest) s s', nofun⟩

theorem openGroup (h : Tracks earlier floor b b') {kind kind' : FrameKind}
    (alike : kind.Alike kind') : Tracks earlier floor (b.openGroup kind) (b'.openGroup kind') := by
  obtain ⟨p, here, within, hgroup, haround⟩ := h.groups
  exact ⟨⟨p, none, within, ⟨.untouched, .nil⟩, .inside alike hgroup haround⟩, h.floor_le, rfl, rfl⟩

theorem isEmpty_outer (h : Tracks earlier floor b b') : b.outer.isEmpty = b'.outer.isEmpty := by
  obtain ⟨p, here, -, -, haround⟩ := h.groups
  exact haround.isEmpty_eq

theorem closeGroup (h : Tracks earlier floor b b') :
    Keeps (Tracks earlier floor) b.closeGroup b'.closeGroup := by
  obtain ⟨p, here, within, hgroup, haround⟩ := h.groups
  unfold Builder.closeGroup
  generalize b.top.kind = kind at haround
  generalize b'.top.kind = kind' at haround
  generalize b.outer = outer at haround
  generalize b'.outer = outer' at haround
  cases haround with
  | outermost => exact .error _
  | @inside here _ _ g g' outer outer' hkind hg haround =>
      have hbody := alike_contents hgroup
      -- Each case is the group as a term of the one around it.
      have hclosed {node node' : Node} (hnode : node.Alike p node') (states states' : Nat)
          (quantifiable : Bool) (s s' : Nat) : Tracks earlier floor
            { b with
              states := s, top := { g with terms := ⟨node, states⟩ :: g.terms }, outer
              quantifiable, stage := .term }
            { b' with
              states := s', top := { g' with terms := ⟨node', states'⟩ :: g'.terms }
              outer := outer', quantifiable, stage := .term } :=
        ⟨⟨p, here, within, ⟨hg.choices, .cons hnode hg.terms⟩, haround⟩, h.floor_le, rfl, rfl⟩
      cases hkind with
      | whole | plain => exact .charge fun s s' => .ok (hclosed (.seq .empty hbody) _ _ true s s')
      | group n n' => exact .charge fun s s' => .ok (hclosed (.group n n' hbody) _ _ true s s')
      | lookahead negated =>
          exact .charge fun s s' => .ok (hclosed (.lookahead negated hbody) _ _ false s s')

/-- The last term gives way to one made from copies of it. -/
theorem replaceLast {p : Pairing} {here : Option Node} (h : Tracks earlier floor b b')
    (within : p.Within b.nextLoop b'.nextLoop) {terms terms' : List Piece}
    (hgroup : ({ b.top with terms } : OpenGroup).Alike p here { b'.top with terms := terms' })
    (haround : Around p earlier here b.top.kind b'.top.kind b.outer b'.outer) {blocks extra : Nat}
    (hblocks : 0 < blocks) {node node' : Node}
    (alike : node.Alike (p.spread within blocks extra) node') (states states' : Nat)
    {loops loops' : Nat} (hloops : b.nextLoop * blocks + extra = loops)
    (hloops' : b'.nextLoop * blocks + extra = loops') (s s' : Nat) : Tracks earlier floor
      { b with
        states := s, top := { b.top with terms := ⟨node, states⟩ :: terms }, nextLoop := loops
        quantifiable := true, stage := .term }
      { b' with
        states := s', top := { b'.top with terms := ⟨node', states'⟩ :: terms' }
        nextLoop := loops', quantifiable := true, stage := .term } := by
  subst hloops hloops'
  have more {i j : Nat} : p.pairs i j → (p.spread within blocks extra).pairs i j :=
    Pairing.spread_self hblocks
  have hspread := hgroup.mono more
  refine ⟨⟨_, here, Pairing.spread_within within blocks extra,
    ⟨hspread.choices, .cons alike hspread.terms⟩, haround.mono more⟩, ?_, rfl, rfl⟩
  calc floor ≤ b'.nextLoop := h.floor_le
    _ ≤ b'.nextLoop * blocks := Nat.le_mul_of_pos_right _ hblocks
    _ ≤ b'.nextLoop * blocks + extra := Nat.le_add_right _ _

theorem quantify (h : Tracks earlier floor b b') (q : Quantifier) (lazy : Bool) :
    Keeps (Tracks earlier floor) (b.quantify q lazy) (b'.quantify q lazy) := by
  obtain ⟨p, here, within, hgroup, haround⟩ := h.groups
  unfold Builder.quantify
  have hterms := hgroup.terms
  generalize b.top.terms = terms at hterms
  generalize b'.top.terms = terms' at hterms
  cases hterms with
  | nil => exact .error _
  | @cons r r' terms terms' hr hterms =>
  have hreplace {blocks extra : Nat} :=
    @replaceLast _ _ _ _ p here h within terms terms' ⟨hgroup.choices, hterms⟩ haround blocks extra
  -- A single copy, and one new repeat.
  have hbody : r.Alike (p.spread within 1 1) r' := hr.mono (Pairing.spread_self Nat.one_pos)
  have hfresh : (p.spread within 1 1).pairs b.nextLoop b'.nextLoop := by
    simpa using @Pairing.spread_extra p _ _ within 1 1 0 Nat.one_pos
  have hnext (n : Nat) : n * 1 + 1 = n + 1 := by rw [Nat.mul_one]
  -- Copies in the first blocks.
  have hshifted {blocks extra n : Nat} (hn : n ≤ blocks) (k : Nat) (hk : k < n) {i j : Nat} :
      p.pairs i j →
        (p.spread within blocks extra).pairs (i + b.nextLoop * k) (j + b'.nextLoop * k) :=
    Pairing.spread_copy (Nat.lt_of_lt_of_le hk hn)
  cases q with
  | star =>
      exact .charge fun s s' => .ok <|
        hreplace Nat.one_pos (.star lazy hfresh hbody) _ _ (hnext _) (hnext _) s s'
  | plus =>
      exact .charge fun s s' => .ok <|
        hreplace Nat.one_pos (.plus lazy hfresh hbody) _ _ (hnext _) (hnext _) s s'
  | opt =>
      exact .charge fun s s' => .ok <|
        hreplace Nat.one_pos (.seq (.opt lazy hfresh hbody) .empty) _ _ (hnext _) (hnext _) s s'
  | count least more =>
      refine .charge fun s s' => ?_
      cases more with
      | none =>
          refine .charge fun s s' => .ok ?_
          refine hreplace (Nat.succ_pos (least.toNat + 1)) (.seq .empty ?_) _ _ rfl rfl s s'
          refine alike_copies hr _ (hshifted (by omega)) (.star lazy ?_ (hr.shift ?_))
          · exact Pairing.spread_extra Nat.one_pos
          · exact Pairing.spread_copy (Nat.lt_succ_self _)
      | some more =>
          cases more with
          | negSucc => exact .error _
          | ofNat more =>
              refine .charge fun s s' => .ok ?_
              refine hreplace (Nat.succ_pos (least.toNat + more)) (.seq .empty (.seq ?_ .empty)) _ _
                rfl rfl s s'
              exact alike_copies hr _ (hshifted (by omega)) <|
                alike_optionalCopies hr lazy more (hshifted (by omega))
                  (fun k hk => Pairing.spread_extra hk) .empty

theorem termStep (h : Tracks earlier floor b b') {t : Token} (plain : t.refersBack = false) :
    Keeps (Tracks earlier floor) (b.termStep t (.ok ())) (b'.termStep t (.ok ())) := by
  cases t with
  | byte | anyByte => exact h.push (fun _ => .bytes _) true
  | lineBegin => exact h.push (fun _ => .lineBegin) false
  | lineEnd => exact h.push (fun _ => .lineEnd) false
  | wordBoundary negated => exact h.push (fun _ => .wordBoundary negated) false
  | backReference => contradiction
  | classLetter letter =>
      rw [termStep_classLetter, termStep_classLetter]
      cases letterSet? letter with
      | none => exact .error _
      | some set => exact h.push (fun _ => .bytes set) true
  | groupOpen =>
      exact .charge fun s s' => .ok ((h.counted s s' _ _).openGroup (.group _ _))
  | plainOpen => exact .charge fun s s' => .ok ((h.counted s s' _ _).openGroup .plain)
  | lookaheadOpen negated => exact .ok (h.openGroup (.lookahead negated))
  | bracketOpen negated => exact .ok (h.withStage _)
  | bar => exact h.endAlternative.bind fun b₁ b₁' h₁ => .ok (h₁.1.withStage .term)
  | close =>
      refine h.endAlternative.bind fun b₁ b₁' h₁ => ?_
      rw [h₁.1.isEmpty_outer]
      split
      · exact .error _
      · exact h₁.1.closeGroup
  | star | plus | question | braceOpen =>
      rw [termStep_repeats rfl, termStep_repeats rfl, ← h.quantifiable]
      split
      · exact .ok ⟨h.groups, h.floor_le, rfl, rfl⟩
      · exact h.endAlternative.bind fun _ _ _ => .error _
  | bracketClose | dash | collating | equivalence | className | count | comma | braceClose =>
      exact h.endAlternative.bind fun _ _ _ => .error _

theorem bracketStep (h : Tracks earlier floor b b') (s : Bracket) (t : Token) :
    Keeps (Tracks earlier floor) (b.bracketStep s t (.ok ())) (b'.bracketStep s t (.ok ())) := by
  unfold Builder.bracketStep
  split
  · exact h.push (fun _ => .bytes _) true
  · exact .ok (h.withStage _)
  · split
    · exact .same (s.pushTerm t) fun _ => .ok (h.withStage _)
    · exact .error _

theorem dashStep (h : Tracks earlier floor b b') (s : Bracket) (t : Token) :
    Keeps (Tracks earlier floor) (b.dashStep s t (.ok ())) (b'.dashStep s t (.ok ())) := by
  rcases dashStep_cases s t with ⟨rfl, hcase⟩ | ⟨-, first, last, hcase⟩ | ⟨_, hcase⟩ | hcase
  all_goals rw [hcase, hcase]
  · exact h.push (fun _ => .bytes _) true
  · exact .same (s.pushRange first last) fun _ => .ok (h.withStage _)
  · exact .error _
  · exact h.bracketStep _ _

/-- **Builders that hold trees of one form do so after every token**, but for a back-reference. -/
theorem step (h : Tracks earlier floor b b') {t : Token} (plain : t.refersBack = false) :
    Keeps (Tracks earlier floor) (b.step t (.ok ())) (b'.step t (.ok ())) := by
  unfold Builder.step
  rw [← h.stage]
  split
  · exact h.termStep plain
  · split
    · exact h.quantify _ true
    · exact (h.quantify _ false).bind fun _ _ h₁ => h₁.termStep plain
  · split
    · exact .ok (h.withStage _)
    · exact h.bracketStep _ _
  · exact h.bracketStep _ _
  · exact h.dashStep _ _
  · split
    · exact .charge fun s s' => .ok ((h.counted s s' _ _).withStage _)
    · exact .error _
  all_goals
    split
    all_goals first | exact .error _ | exact .ok (h.withStage _)

end Tracks

/-! ## All tokens -/

/-- What two builders have in the end. -/
structure Ends (earlier : Option Node) (floor : Nat) (b b' : Builder) : Prop where
  trees : ∃ p : Pairing, p.Within b.nextLoop b'.nextLoop ∧
    Node.Joined p earlier (contents b.top).node (contents b'.top).node
  floor_le : floor ≤ b'.nextLoop

/-- Ends the whole pattern, inside which no group may be open. -/
def endWhole (b : Builder) : Build Builder := do
  let b ← b.endAlternative
  if b.outer.isEmpty then b.charge 2 else .error .unbalanced

theorem Tracks.endWhole (h : Tracks earlier floor b b') :
    Keeps (Ends earlier floor) b.endWhole b'.endWhole := by
  refine h.endAlternative.bind fun b b' ⟨h, hended⟩ => ?_
  obtain ⟨p, here, within, hgroup, haround⟩ := h.groups
  have hchoices := hgroup.choices
  generalize b.outer = outer at haround
  generalize b'.outer = outer' at haround
  cases haround with
  | inside => exact .error _
  | outermost =>
      have hends (s s' : Nat) :
          Ends earlier floor { b with states := s } { b' with states := s' } := by
        refine ⟨⟨p, within, ?_⟩, h.floor_le⟩
        unfold contents
        generalize b.top.choices = choices at hchoices hended
        generalize b'.top.choices = choices' at hchoices
        cases hchoices with
        | untouched | earlier => contradiction
        | joined hjoined => exact hjoined
      exact .charged hends

theorem Tracks.finish (h : Tracks earlier floor b b') :
    Keeps (Ends earlier floor) b.finish b'.finish := by
  unfold Builder.finish
  rw [← h.stage]
  split
  · exact h.endWhole
  · exact (h.quantify _ false).bind fun _ _ h₁ => h₁.endWhole
  all_goals first | exact .error _ | skip
  split <;> exact .error _

/-- **The same tokens build trees of one form.** -/
theorem Tracks.run (h : Tracks earlier floor b b') {tokens : List Token}
    (plain : ∀ t ∈ tokens, t.refersBack = false) :
    Keeps (Ends earlier floor) (run none tokens b) (run none tokens b') := by
  induction tokens generalizing b b' with
  | nil => exact h.finish
  | cons t rest ih =>
      obtain ⟨ht, hrest⟩ := List.forall_mem_cons.mp plain
      rw [run_cons, run_cons]
      exact (h.step ht).bind fun b₁ b₁' h₁ => ih h₁ hrest

end

end Builder

end SearchDaemon.Pattern
