import SearchDaemon.Proofs.Literals

/-!
# The text of a pattern with a bar behind it

Most tokens are over where they are because of the bytes they begin with. Those that take as many
bytes as they can, such as a repeat count or the name of a class, end at a bar at the latest. What
a bar itself means depends on where it stands: inside brackets it is a byte like any other. A
pattern that can be built has all its brackets and braces closed, since the builder asks for them
in the same places in which the cutting does, so a bar behind its text is one between
alternatives.
-/

namespace SearchDaemon.Pattern

/-- The byte between two alternatives. -/
def bar : UInt8 := 124

/-- Where the cutting stands after a token. -/
def Token.regionAfter (region : Region) (t : Token) : Region :=
  match region, t with
  | .plain, .bracketOpen _ => .bracket
  | .plain, .braceOpen => .brace
  | .bracket, .bracketClose => .plain
  | .brace, .braceClose => .plain
  | region, _ => region

/-- The token opens and closes neither brackets nor braces. -/
def Token.isLevel : Token → Bool
  | .bracketOpen _ | .bracketClose | .braceOpen | .braceClose => false
  | _ => true

theorem Token.regionAfter_of_isLevel {t : Token} (h : t.isLevel = true) (region : Region) :
    t.regionAfter region = region := by
  cases t <;> cases region <;> first | rfl | contradiction

/-! ## One token -/

section

variable {region region' : Region} {c mark : UInt8} {bs rest after digits name more : Bytes}
  {t : Token} {n : Nat}

theorem takeWhile_bar {p : UInt8 → Bool} (hbar : p bar = false) (bs more : Bytes) :
    (bs ++ bar :: more).takeWhile p = bs.takeWhile p := by
  rw [List.takeWhile_append, List.takeWhile_cons_of_neg (by simp [hbar]), List.append_nil]
  split
  · rename_i hall
    exact ((List.takeWhile_prefix p).eq_of_length hall).symm
  · rfl

theorem drop_takeWhile_append (p : UInt8 → Bool) (bs more : Bytes) :
    (bs ++ more).drop (bs.takeWhile p).length = bs.drop (bs.takeWhile p).length ++ more :=
  List.drop_append_of_le_length (List.takeWhile_prefix p).length_le

theorem takeHex?_append (h : takeHex? n bs = some (digits, rest)) (more : Bytes) :
    takeHex? n (bs ++ more) = some (digits, rest ++ more) := by
  unfold takeHex? at h ⊢
  dsimp only at h ⊢
  split_ifs at h with hdigits
  cases h
  have hlength : n ≤ bs.length := by
    rw [Bool.and_eq_true, decide_eq_true_eq, List.length_take] at hdigits
    omega
  rw [List.take_append_of_le_length hlength, List.drop_append_of_le_length hlength, if_pos hdigits]

theorem length_takeHex? (h : takeHex? n bs = some (digits, rest)) : rest.length ≤ bs.length := by
  unfold takeHex? at h
  dsimp only at h
  split_ifs at h
  cases h
  rw [List.length_drop]
  exact Nat.sub_le _ _

theorem enclosedName?_eq_some (h : enclosedName? mark bs = some (name, rest)) :
    name = bs.takeWhile (· != mark) ∧ ∃ b, bs.drop name.length = b :: 93 :: rest := by
  unfold enclosedName? at h
  dsimp only at h
  split at h
  · rename_i hdrop
    cases h
    exact ⟨rfl, _, hdrop⟩
  · contradiction

theorem enclosedName?_append (h : enclosedName? mark bs = some (name, rest)) (more : Bytes) :
    enclosedName? mark (bs ++ more) = some (name, rest ++ more) := by
  obtain ⟨rfl, b, hdrop⟩ := enclosedName?_eq_some h
  have hshort : (bs.takeWhile (· != mark)).length ≠ bs.length := by
    intro hall
    rw [hall, List.drop_length] at hdrop
    contradiction
  unfold enclosedName?
  dsimp only
  rw [List.takeWhile_append, if_neg hshort, drop_takeWhile_append, hdrop]
  rfl

theorem length_enclosedName? (h : enclosedName? mark bs = some (name, rest)) :
    rest.length ≤ bs.length := by
  obtain ⟨-, b, hdrop⟩ := enclosedName?_eq_some h
  have hlength := congrArg List.length hdrop
  rw [List.length_drop, List.length_cons, List.length_cons] at hlength
  omega

/-- An escape is over where its token is, whatever follows. -/
theorem escape_bar (h : escape region bs = .ok (t, rest)) :
    t.isLevel = true ∧ rest.length ≤ bs.length ∧
      ∀ more, escape region (bs ++ bar :: more) = .ok (t, rest ++ bar :: more) := by
  cases bs with
  | nil => contradiction
  | cons c bs =>
      have hone : bs.length ≤ (c :: bs).length := Nat.le_succ _
      unfold escape at h ⊢
      dsimp only [List.cons_append] at h ⊢
      cases hb : escaped? c with
      | some b =>
          rw [hb] at h
          dsimp only at h ⊢
          split_ifs at h ⊢
          · cases h
            exact ⟨rfl, hone, fun _ => rfl⟩
          · cases h
            exact ⟨rfl, hone, fun _ => rfl⟩
      | none =>
          rw [hb] at h
          dsimp only at h ⊢
          split_ifs at h ⊢
          · cases h
            exact ⟨rfl, hone, fun _ => rfl⟩
          · cases h
            exact ⟨rfl, hone, fun _ => rfl⟩
          · cases bs with
            | nil => contradiction
            | cons b bs =>
                cases h
                exact ⟨rfl, Nat.le_succ_of_le (Nat.le_succ _), fun _ => rfl⟩
          · split at h
            · contradiction
            · rename_i hhex
              cases h
              refine ⟨rfl, Nat.le_trans (length_takeHex? hhex) hone, fun more => ?_⟩
              rw [takeHex?_append hhex]
          · split at h
            · contradiction
            · rename_i hhex
              cases h
              refine ⟨rfl, Nat.le_trans (length_takeHex? hhex) hone, fun more => ?_⟩
              rw [takeHex?_append hhex]
          · cases h
            refine ⟨rfl, ?_, fun more => ?_⟩
            · rw [List.length_drop]
              exact Nat.le_trans (Nat.sub_le _ _) hone
            · rw [takeWhile_bar rfl, drop_takeWhile_append]
          · cases h
            exact ⟨rfl, hone, fun _ => rfl⟩

/-- The token is all of what the byte begins, also with a bar behind the text. -/
def EndsThere (region : Region) (c : UInt8) (rest : Bytes) (t : Token) (region' : Region)
    (after : Bytes) : Prop :=
  region' = t.regionAfter region ∧ after.length ≤ rest.length ∧
    ∀ more, nextToken region c (rest ++ bar :: more) = .ok (t, region', after ++ bar :: more)

theorem EndsThere.of_escape (h : escape region rest = .ok (t, after))
    (begins : ∀ later, later ≠ [] → nextToken region c later =
      (escape region later >>= fun (t, later) => .ok (t, region, later))) :
    EndsThere region c rest t region after := by
  obtain ⟨hlevel, hlength, happend⟩ := escape_bar h
  refine ⟨(Token.regionAfter_of_isLevel hlevel region).symm, hlength, fun more => ?_⟩
  rw [begins _ (by simp), happend, ok_bind]

theorem append_bar_ne {b : UInt8} (hb : b ≠ bar) (h : ∀ later, rest ≠ b :: later) (later : Bytes) :
    rest ++ bar :: more ≠ b :: later := by
  cases rest with
  | nil => exact fun heq => hb (List.cons.inj heq).1.symm
  | cons c rest => exact fun heq => h rest (congrArg (· :: rest) (List.cons.inj heq).1)

theorem nextToken_groupOpen (h : ∀ later, rest ≠ 63 :: later) :
    nextToken .plain 40 rest = .ok (.groupOpen, .plain, rest) := by
  simp only [nextToken]
  split <;> first | rfl | exact absurd rfl (h _)

theorem nextToken_bracketOpen (h : ∀ later, rest ≠ 94 :: later) :
    nextToken .plain 91 rest = .ok (.bracketOpen false, .bracket, rest) := by
  simp only [nextToken]

/-- A bracket inside brackets that opens nothing. -/
theorem nextToken_bracket_plain (more : rest ≠ []) (hdot : ∀ later, rest ≠ 46 :: later)
    (hcolon : ∀ later, rest ≠ 58 :: later) (hequal : ∀ later, rest ≠ 61 :: later) :
    nextToken .bracket 91 rest = .ok (.byte 91, .bracket, rest) := by
  simp only [nextToken]

theorem nextToken_plain_bar (h : nextToken .plain c rest = .ok (t, region', after)) :
    EndsThere .plain c rest t region' after := by
  unfold nextToken at h
  dsimp only at h
  split at h
  · -- A backslash. Behind it there is something, which the bar does not change.
    split_ifs at h
    obtain ⟨⟨t, after⟩, hescape, h⟩ := bind_eq_ok.mp h
    cases h
    refine .of_escape hescape ?_
    intro later hsome
    rw [nextToken]
    simp only [List.isEmpty_iff, hsome, if_false]
  · -- An opening parenthesis. What it opens is told by a question mark and the byte behind it.
    split at h
    · contradiction
    iterate 3
      · cases h
        exact ⟨rfl, by simp only [List.length_cons]; omega, fun _ => rfl⟩
    · contradiction
    · cases h
      exact ⟨rfl, Nat.le_refl _, fun _ => nextToken_groupOpen (append_bar_ne (by decide) ‹_›)⟩
  · cases h
    exact ⟨rfl, Nat.le_refl _, fun _ => rfl⟩
  · split at h
    · cases h
      exact ⟨rfl, Nat.le_succ _, fun _ => rfl⟩
    · cases h
      exact ⟨rfl, Nat.le_refl _, fun _ => nextToken_bracketOpen (append_bar_ne (by decide) ‹_›)⟩
  -- The bytes that are tokens alone, then those that stand for themselves.
  iterate 8
    · cases h
      exact ⟨rfl, Nat.le_refl _, fun _ => rfl⟩
  · cases h
    refine ⟨rfl, Nat.le_refl _, fun _ => ?_⟩
    unfold nextToken
    dsimp only
    split <;> first | rfl | contradiction

theorem nextToken_bracket_bar (h : nextToken .bracket c rest = .ok (t, region', after)) :
    EndsThere .bracket c rest t region' after := by
  unfold nextToken at h
  dsimp only at h
  split at h
  · cases h
    exact ⟨rfl, Nat.le_refl _, fun _ => rfl⟩
  · -- A second bracket. The name it opens has its end in the text already.
    split at h
    · contradiction
    iterate 3
      · split at h
        · rename_i hname
          cases h
          refine ⟨rfl, Nat.le_succ_of_le (length_enclosedName? hname), fun more => ?_⟩
          simp only [nextToken, List.cons_append, enclosedName?_append hname]
        · contradiction
    · rename_i hsome hdot hcolon hequal
      cases h
      refine ⟨rfl, Nat.le_refl _, fun _ => nextToken_bracket_plain (by simp) ?_ ?_ ?_⟩
      · exact append_bar_ne (by decide) hdot
      · exact append_bar_ne (by decide) hcolon
      · exact append_bar_ne (by decide) hequal
  · cases h
    exact ⟨rfl, Nat.le_refl _, fun _ => rfl⟩
  · obtain ⟨⟨t, after⟩, hescape, h⟩ := bind_eq_ok.mp h
    cases h
    refine .of_escape hescape ?_
    intro later _
    rfl
  · cases h
    refine ⟨rfl, Nat.le_refl _, fun _ => ?_⟩
    unfold nextToken
    dsimp only
    split <;> first | rfl | contradiction

theorem nextToken_brace_bar (h : nextToken .brace c rest = .ok (t, region', after)) :
    EndsThere .brace c rest t region' after := by
  unfold nextToken at h
  dsimp only at h
  split_ifs at h with hdigit hcomma hclose
  · -- The digits of a count end at the bar at the latest.
    cases h
    refine ⟨rfl, ?_, fun more => ?_⟩
    · rw [List.length_drop]
      exact Nat.sub_le _ _
    · rw [nextToken, if_pos hdigit, takeWhile_bar rfl]
      dsimp only
      rw [drop_takeWhile_append]
  · cases h
    refine ⟨rfl, Nat.le_refl _, fun more => ?_⟩
    rw [nextToken, if_neg hdigit, if_pos hcomma]
  · cases h
    refine ⟨rfl, Nat.le_refl _, fun more => ?_⟩
    rw [nextToken, if_neg hdigit, if_neg hcomma, if_pos hclose]

/-- A token is over where it is, also with a bar behind the text. -/
theorem nextToken_bar (h : nextToken region c rest = .ok (t, region', after)) :
    EndsThere region c rest t region' after := by
  cases region with
  | plain => exact nextToken_plain_bar h
  | bracket => exact nextToken_bracket_bar h
  | brace => exact nextToken_brace_bar h

end

/-! ## All tokens -/

section

variable {n m : Nat} {region region' : Region} {c : UInt8} {bs rest after : Bytes} {t : Token}
  {e : PatternError}

/-- As many tokens as there are bytes are always enough. -/
theorem lexFrom_of_le (hn : bs.length ≤ n) (hm : bs.length ≤ m) :
    lexFrom n region bs = lexFrom m region bs := by
  induction n generalizing m region bs with
  | zero =>
      cases List.eq_nil_of_length_eq_zero (Nat.le_zero.mp hn)
      cases m <;> rfl
  | succ n ih =>
      cases bs with
      | nil => cases m <;> rfl
      | cons c rest =>
          obtain ⟨m, rfl⟩ := Nat.exists_eq_succ_of_ne_zero (Nat.ne_of_gt (Nat.lt_of_lt_of_le
            (Nat.succ_pos _) hm))
          rw [lexFrom, lexFrom]
          split
          · rfl
          · rename_i hnext
            have hshort := (nextToken_bar hnext).2.1
            rw [ih (Nat.le_trans hshort (Nat.le_of_succ_le_succ hn))
              (Nat.le_trans hshort (Nat.le_of_succ_le_succ hm))]

/-- The tokens of a text that begins in the given region. -/
def lexIn (region : Region) (bs : Bytes) : Lexed := lexFrom bs.length region bs

theorem lexIn_cons (h : nextToken region c rest = .ok (t, region', after)) :
    lexIn region (c :: rest) =
      ⟨t :: (lexIn region' after).tokens, (lexIn region' after).fault⟩ := by
  rw [lexIn, List.length_cons, lexFrom_cons h, lexIn,
    lexFrom_of_le (nextToken_bar h).2.1 (Nat.le_refl _)]

theorem lexIn_cons_of_error (h : nextToken region c rest = .error e) :
    lexIn region (c :: rest) = ⟨[], some e⟩ := by
  rw [lexIn, List.length_cons, lexFrom, h]

end

/-! ## The region in which the next token is cut -/

/-- Where the cutting stands when the next token is read in this way. -/
def Stage.region : Stage → Region
  | .term | .quantified _ => .plain
  | .bracketStart _ | .bracket _ | .bracketDash _ => .bracket
  | .braceStart | .braceLeast _ | .braceComma _ | .braceMost .. => .brace

/-- What the next token is read as behind a token that repeats a term. -/
def Token.repeats? : Token → Option Stage
  | .star => some (.quantified .star)
  | .plus => some (.quantified .plus)
  | .question => some (.quantified .opt)
  | .braceOpen => some .braceStart
  | _ => none

namespace Builder

variable {b b' : Builder} {t : Token} {ahead : Build Unit} {n : Nat}

/-! What the steps with many cases do, by these cases. -/

theorem termStep_classLetter (letter : UInt8) : b.termStep (.classLetter letter) ahead =
    (ahead >>= fun _ => match letterSet? letter with
      | none => .error .unknownClass
      | some set => b.push (.bytes set) true) := rfl

theorem termStep_repeats {stage : Stage} (h : t.repeats? = some stage) :
    b.termStep t ahead =
      if b.quantifiable then ahead >>= fun _ => .ok { b with stage }
      else b.endAlternative >>= fun _ => .error .unbalanced := by
  unfold termStep
  cases t with
  | star | plus | question | braceOpen =>
      cases h
      dsimp only
      cases b.quantifiable <;> rfl
  | _ => contradiction

/-- Behind a dash a token ends the brackets, ends a range, does not fit, or is taken as it is behind
a byte. -/
theorem dashStep_cases (s : Bracket) (t : Token) :
    (t = .bracketClose ∧ ∀ b ahead, dashStep b s t ahead =
      (ahead >>= fun _ => b.push (.bytes (s.pushByte 45).toSet) true)) ∨
    (t.regionAfter .bracket = .bracket ∧ ∃ first last, ∀ b ahead, dashStep b s t ahead =
      (ahead >>= fun _ => s.pushRange first last >>= fun s => .ok { b with stage := .bracket s })) ∨
    (∃ e, ∀ b ahead, dashStep b s t ahead = .error e) ∨
    ∀ b ahead, dashStep b s t ahead = b.bracketStep (s.pushByte 45) t ahead := by
  by_cases hclose : t = .bracketClose
  · exact .inl ⟨hclose, fun b ahead => by subst hclose; rfl⟩
  unfold dashStep
  cases s.last with
  | nothing =>
      refine .inr (.inr (.inr fun b ahead => ?_))
      cases t <;> rfl
  | cls =>
      refine .inr (.inr (.inl ⟨.classStartsRange, fun b ahead => ?_⟩))
      cases t <;> first | rfl | contradiction
  | byte first =>
      cases t with
      | byte last => exact .inr (.inl ⟨rfl, first, last, fun _ _ => rfl⟩)
      | dash => exact .inr (.inl ⟨rfl, first, 45, fun _ _ => rfl⟩)
      | bracketClose => contradiction
      | _ => exact .inr (.inr (.inl ⟨.classEndsRange, fun _ _ => rfl⟩))

theorem charge_eq_ok :
    b.charge n = .ok b' ↔ b.states + n ≤ stateLimit ∧ { b with states := b.states + n } = b' := by
  rw [charge]
  split
  · rename_i hfull
    simpa using fun henough => absurd hfull (Nat.not_lt.mpr henough)
  · rename_i henough
    simpa using fun _ => Nat.not_lt.mp henough

theorem stage_of_push {node : Node} {quantifiable : Bool} (h : b.push node quantifiable = .ok b') :
    b'.stage = .term := by
  obtain ⟨_, -, h⟩ := bind_eq_ok.mp h
  cases h
  rfl

theorem stage_of_backReference {index : Int} (h : b.backReference index = .ok b') :
    b'.stage = .term := by
  unfold backReference at h
  split at h
  · contradiction
  · split_ifs at h
    exact stage_of_push h

theorem stage_of_closeGroup (h : b.closeGroup = .ok b') : b'.stage = .term := by
  unfold closeGroup at h
  split at h
  · contradiction
  · obtain ⟨_, -, h⟩ := bind_eq_ok.mp h
    cases h
    rfl

theorem stage_of_quantify {q : Quantifier} {lazy : Bool} (h : b.quantify q lazy = .ok b') :
    b'.stage = .term := by
  unfold quantify at h
  split at h
  · contradiction
  · cases q with
    | star | plus | opt =>
        obtain ⟨_, -, h⟩ := bind_eq_ok.mp h
        cases h
        rfl
    | count least more =>
        obtain ⟨_, -, h⟩ := bind_eq_ok.mp h
        split at h
        · obtain ⟨_, -, h⟩ := bind_eq_ok.mp h
          cases h
          rfl
        · contradiction
        · obtain ⟨_, -, h⟩ := bind_eq_ok.mp h
          cases h
          rfl

/-- What every token does that is taken: the text behind it has no fault, and the cutting goes on
where the token leaves it. -/
def Takes (region : Region) (t : Token) (ahead : Build Unit) (b' : Builder) : Prop :=
  ahead = .ok () ∧ b'.stage.region = t.regionAfter region

theorem Takes.of_stage {region : Region} {stage : Stage} (h : b'.stage = stage)
    (same : stage.region = t.regionAfter region) : Takes region t (.ok ()) b' :=
  ⟨rfl, by rw [h, same]⟩

theorem takes_of_termStep (h : b.termStep t ahead = .ok b') : Takes .plain t ahead b' := by
  cases t with
  | byte | anyByte | lineBegin | lineEnd | wordBoundary =>
      obtain ⟨⟨⟩, rfl, hnext⟩ := bind_eq_ok.mp h
      exact .of_stage (stage_of_push hnext) rfl
  | classLetter letter =>
      rw [termStep_classLetter] at h
      obtain ⟨⟨⟩, rfl, hnext⟩ := bind_eq_ok.mp h
      split at hnext
      · contradiction
      · exact .of_stage (stage_of_push hnext) rfl
  | backReference index =>
      obtain ⟨⟨⟩, rfl, hnext⟩ := bind_eq_ok.mp h
      exact .of_stage (stage_of_backReference hnext) rfl
  | groupOpen | plainOpen =>
      obtain ⟨⟨⟩, rfl, hnext⟩ := bind_eq_ok.mp h
      obtain ⟨_, -, hnext⟩ := bind_eq_ok.mp hnext
      cases hnext
      exact .of_stage rfl rfl
  | lookaheadOpen | bracketOpen =>
      obtain ⟨⟨⟩, rfl, hnext⟩ := bind_eq_ok.mp h
      cases hnext
      exact .of_stage rfl rfl
  | bar =>
      obtain ⟨_, -, h⟩ := bind_eq_ok.mp h
      obtain ⟨⟨⟩, rfl, hnext⟩ := bind_eq_ok.mp h
      cases hnext
      exact .of_stage rfl rfl
  | close =>
      obtain ⟨_, -, h⟩ := bind_eq_ok.mp h
      split at h
      · contradiction
      · obtain ⟨⟨⟩, rfl, hnext⟩ := bind_eq_ok.mp h
        exact .of_stage (stage_of_closeGroup hnext) rfl
  | star | plus | question | braceOpen =>
      rw [termStep_repeats rfl] at h
      split at h
      · obtain ⟨⟨⟩, rfl, hnext⟩ := bind_eq_ok.mp h
        cases hnext
        exact .of_stage rfl rfl
      · obtain ⟨_, -, h⟩ := bind_eq_ok.mp h
        contradiction
  | bracketClose | dash | collating | equivalence | className | count | comma | braceClose =>
      obtain ⟨_, -, h⟩ := bind_eq_ok.mp h
      contradiction

theorem takes_of_bracketStep {s : Bracket} (h : b.bracketStep s t ahead = .ok b') :
    Takes .bracket t ahead b' := by
  unfold bracketStep at h
  split at h
  · obtain ⟨⟨⟩, rfl, hnext⟩ := bind_eq_ok.mp h
    exact .of_stage (stage_of_push hnext) rfl
  · obtain ⟨⟨⟩, rfl, hnext⟩ := bind_eq_ok.mp h
    cases hnext
    exact .of_stage rfl rfl
  · rename_i hclose _
    split_ifs at h
    obtain ⟨⟨⟩, rfl, hnext⟩ := bind_eq_ok.mp h
    obtain ⟨_, -, hnext⟩ := bind_eq_ok.mp hnext
    cases hnext
    refine .of_stage rfl ?_
    cases t <;> first | rfl | exact absurd rfl hclose

theorem takes_of_dashStep {s : Bracket} (h : b.dashStep s t ahead = .ok b') :
    Takes .bracket t ahead b' := by
  rcases dashStep_cases s t with ⟨rfl, hcase⟩ | ⟨hregion, _, _, hcase⟩ | ⟨_, hcase⟩ | hcase
  all_goals rw [hcase] at h
  · obtain ⟨⟨⟩, rfl, hnext⟩ := bind_eq_ok.mp h
    exact .of_stage (stage_of_push hnext) rfl
  · obtain ⟨⟨⟩, rfl, hnext⟩ := bind_eq_ok.mp h
    obtain ⟨_, -, hnext⟩ := bind_eq_ok.mp hnext
    cases hnext
    exact .of_stage rfl hregion.symm
  · contradiction
  · exact takes_of_bracketStep h

theorem takes_of_step (h : b.step t ahead = .ok b') : Takes b.stage.region t ahead b' := by
  unfold step at h
  split at h
  all_goals rename_i hstage; rw [hstage]
  · exact takes_of_termStep h
  · split at h
    · obtain ⟨⟨⟩, rfl, hnext⟩ := bind_eq_ok.mp h
      exact .of_stage (stage_of_quantify hnext) rfl
    · obtain ⟨_, -, h⟩ := bind_eq_ok.mp h
      exact takes_of_termStep h
  · split at h
    · obtain ⟨⟨⟩, rfl, hnext⟩ := bind_eq_ok.mp h
      cases hnext
      exact .of_stage rfl rfl
    · exact takes_of_bracketStep h
  · exact takes_of_bracketStep h
  · exact takes_of_dashStep h
  · split at h
    · obtain ⟨⟨⟩, rfl, hnext⟩ := bind_eq_ok.mp h
      obtain ⟨_, -, hnext⟩ := bind_eq_ok.mp hnext
      cases hnext
      exact .of_stage rfl rfl
    · contradiction
  all_goals
    split at h
    all_goals first | contradiction | skip
    all_goals
      obtain ⟨⟨⟩, rfl, hnext⟩ := bind_eq_ok.mp h
      cases hnext
      exact .of_stage rfl rfl

/-- A pattern whose text has a fault is refused. -/
theorem run_of_fault {e : PatternError} {tokens : List Token} (hsome : tokens ≠ []) :
    run (some e) tokens b ≠ .ok b' := by
  induction tokens generalizing b with
  | nil => exact absurd rfl hsome
  | cons t rest ih =>
      intro h
      obtain ⟨b₁, hstep, hrest⟩ := bind_eq_ok.mp h
      cases rest with
      | nil => exact nomatch (takes_of_step hstep).1
      | cons u rest => exact ih (List.cons_ne_nil _ _) hrest

/-- A pattern ends outside brackets and braces. -/
theorem region_of_finish (h : b.finish = .ok b') : b.stage.region = .plain := by
  unfold finish at h
  split at h
  · rename_i hstage
    rw [hstage, Stage.region]
  · rename_i hstage
    rw [hstage, Stage.region]
  all_goals first | contradiction | skip
  split at h <;> contradiction

end Builder

/-! ## A text with a bar behind it -/

/-- What a builder has come to in the end. -/
def Builder.pattern (b : Builder) : Pattern :=
  { root := (contents b.top).node, groups := b.nextGroup, loops := b.nextLoop }

theorem compile_of_sound {source : Bytes} (sound : (lex source).fault = none) :
    compile source = (Builder.run none (lex source).tokens {} >>= fun b => .ok b.pattern) := by
  unfold compile
  dsimp only
  rw [sound]
  cases (lex source).tokens <;> rfl

theorem compile_eq_ok {source : Bytes} {p : Pattern} :
    compile source = .ok p ↔ (lex source).fault = none ∧
      ∃ b, Builder.run none (lex source).tokens {} = .ok b ∧ b.pattern = p := by
  cases hfault : (lex source).fault with
  | none =>
      rw [compile_of_sound hfault, bind_eq_ok]
      simp
  | some e =>
      refine iff_of_false (fun h => ?_) nofun
      unfold compile at h
      dsimp only at h
      rw [hfault] at h
      split at h
      · contradiction
      · rename_i hsome
        obtain ⟨b, hrun, -⟩ := bind_eq_ok.mp h
        exact Builder.run_of_fault (fun hnil => hsome e hnil rfl) hrun

/-- A text that makes a pattern is cut into the same tokens with a bar and more text behind it,
which begin anew. -/
theorem lexIn_bar {region : Region} {bs : Bytes} {b b' : Builder} (start : b.stage.region = region)
    (sound : (lexIn region bs).fault = none)
    (reads : Builder.run none (lexIn region bs).tokens b = .ok b') (more : Bytes) :
    lexIn region (bs ++ bar :: more) =
      ⟨(lexIn region bs).tokens ++ .bar :: (lex more).tokens, (lex more).fault⟩ := by
  induction hlength : bs.length using Nat.strongRecOn generalizing region bs b with
  | ind length ih =>
  subst hlength
  cases bs with
  | nil =>
      -- The builder must be able to end here, so the bar stands outside brackets and braces.
      have hplain : region = .plain := start.symm.trans (Builder.region_of_finish reads)
      subst hplain
      exact lexIn_cons rfl
  | cons c rest =>
      cases hnext : nextToken region c rest with
      | error e =>
          rw [lexIn_cons_of_error hnext] at sound
          contradiction
      | ok next =>
          obtain ⟨t, region', after⟩ := next
          obtain ⟨hregion, hshort, hbar⟩ := nextToken_bar hnext
          rw [lexIn_cons hnext] at sound reads ⊢
          obtain ⟨b₁, hstep, hrest⟩ := bind_eq_ok.mp (Builder.run_cons .. ▸ reads)
          have hstart : b₁.stage.region = region' := by
            rw [(Builder.takes_of_step hstep).2, start, hregion]
          rw [List.cons_append, lexIn_cons (hbar more),
            ih after.length (Nat.lt_succ_of_le hshort) hstart sound hrest rfl]
          rfl

theorem lex_bar {source : Bytes} {p : Pattern} (h : compile source = .ok p) (more : Bytes) :
    lex (source ++ bar :: more) =
      ⟨(lex source).tokens ++ .bar :: (lex more).tokens, (lex more).fault⟩ := by
  obtain ⟨hfault, b, hrun, -⟩ := compile_eq_ok.mp h
  exact @lexIn_bar .plain source {} b rfl hfault hrun more

end SearchDaemon.Pattern
