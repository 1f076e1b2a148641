import SearchDaemon.Proofs.AlikeBuilders
import SearchDaemon.Proofs.Finding

/-!
# Two patterns with a bar between them

The tokens of the first pattern come out as they do without the rest, the bar ends what they
build, and the tokens of the second pattern are read by a builder that holds the first one as an
earlier alternative. So the joined pattern tries the first pattern at every place and then the
second one, which are matched there as each of them is alone.
-/

namespace SearchDaemon.Pattern

/-! ## Reading on behind a bar -/

namespace Builder

variable {b b₁ b₂ : Builder}

/-- A builder that has read a bar holds one alternative, which is all that another one has come to
in the end. -/
structure Resumes (b₁ b₂ : Builder) : Prop where
  choices : b₂.top.choices = some (contents b₁.top)
  terms : b₂.top.terms = []
  outer : b₂.outer = []
  quantifiable : b₂.quantifiable = false
  stage : b₂.stage = .term
  nextLoop : b₂.nextLoop = b₁.nextLoop

theorem endAlternative_ends (h : b.endAlternative = .ok b₁) :
    b₁.top.choices ≠ none ∧ b₁.top.terms = [] ∧ b₁.quantifiable = false := by
  obtain ⟨_, -, h⟩ := bind_eq_ok.mp h
  dsimp only at h
  split at h
  · cases h
    exact ⟨nofun, rfl, rfl⟩
  · obtain ⟨_, -, h⟩ := bind_eq_ok.mp h
    cases h
    exact ⟨nofun, rfl, rfl⟩

/-- Where the whole pattern can end, a bar may stand. -/
theorem termStep_bar (h : b.endWhole = .ok b₁) :
    ∃ b₂, b.termStep .bar (.ok ()) = .ok b₂ ∧ Resumes b₁ b₂ := by
  obtain ⟨ended, hend, h⟩ := bind_eq_ok.mp h
  split_ifs at h with houter
  obtain ⟨-, rfl⟩ := charge_eq_ok.mp h
  obtain ⟨hsome, hterms, hquantifiable⟩ := endAlternative_ends hend
  obtain ⟨choices, hchoices⟩ := Option.ne_none_iff_exists'.mp hsome
  refine ⟨{ ended with stage := .term }, ?_, ⟨?_, hterms, List.isEmpty_iff.mp houter, hquantifiable,
    rfl, rfl⟩⟩
  · show (b.endAlternative >>= fun b => .ok { b with stage := .term }) = _
    rw [hend, ok_bind]
  · rw [contents, hchoices]
    rfl

theorem step_bar (h : b.finish = .ok b₁) :
    ∃ b₂, b.step .bar (.ok ()) = .ok b₂ ∧ Resumes b₁ b₂ := by
  unfold finish at h
  unfold step
  split at h
  · exact termStep_bar h
  · obtain ⟨quantified, hquantify, h⟩ := bind_eq_ok.mp h
    obtain ⟨b₂, hstep, hresumes⟩ := termStep_bar h
    exact ⟨b₂, by rw [hquantify]; exact hstep, hresumes⟩
  all_goals first | contradiction | skip
  split at h <;> contradiction

theorem run_bar {tokens : List Token} (h : run none tokens b = .ok b₁) :
    ∃ b₂, Resumes b₁ b₂ ∧ ∀ later, run none (tokens ++ .bar :: later) b = run none later b₂ := by
  induction tokens generalizing b with
  | nil =>
      obtain ⟨b₂, hstep, hresumes⟩ := step_bar h
      exact ⟨b₂, hresumes, fun later => by rw [List.nil_append, run_cons, hstep, ok_bind]⟩
  | cons t rest ih =>
      obtain ⟨next, hstep, hrest⟩ := bind_eq_ok.mp (run_cons .. ▸ h)
      obtain ⟨b₂, hresumes, hlater⟩ := ih hrest
      refine ⟨b₂, hresumes, fun later => ?_⟩
      rw [List.cons_append, run_cons, hstep, ok_bind, hlater]

/-- A builder that has just begun is tracked by one that holds nothing but an earlier
alternative. -/
theorem tracks_start {earlier : Option Node}
    (choices : ChoicesAlike Pairing.nowhere earlier none b.top.choices) (terms : b.top.terms = [])
    (outer : b.outer = []) (quantifiable : b.quantifiable = false) (stage : b.stage = .term) :
    Tracks earlier b.nextLoop {} b := by
  refine ⟨⟨Pairing.nowhere, earlier, False.elim, ⟨choices, ?_⟩, ?_⟩, Nat.le_refl _,
    quantifiable.symm, stage.symm⟩
  · rw [terms]
    exact .nil
  · rw [outer]
    exact .outermost _ _

theorem Resumes.tracks (h : Resumes b₁ b₂) :
    Tracks (some (contents b₁.top).node) b₁.nextLoop {} b₂ := by
  rw [← h.nextLoop]
  exact tracks_start (h.choices ▸ .earlier _) h.terms h.outer h.quantifiable h.stage

end Builder

/-- No token of the text refers back to a group. -/
def NoBackReferences (source : Bytes) : Prop := ∀ t ∈ (lex source).tokens, t.refersBack = false

instance (source : Bytes) : Decidable (NoBackReferences source) :=
  inferInstanceAs (Decidable (∀ t ∈ (lex source).tokens, t.refersBack = false))

section

variable {source source' : Bytes} {p q : Pattern}

/-- A pattern without back-references is of the same form as itself. -/
theorem alike_self (h : compile source = .ok p) (plain : NoBackReferences source) :
    ∃ same : Pairing, same.Within p.loops p.loops ∧ p.root.Alike same p.root := by
  obtain ⟨-, b, hrun, rfl⟩ := compile_eq_ok.mp h
  have hstart := Builder.tracks_start (b := {}) .untouched rfl rfl rfl rfl
  rcases hstart.run plain b hrun with hfull | ⟨b', hrun', ⟨same, within, hjoined⟩, -⟩
  · rw [hrun] at hfull
    contradiction
  · rw [hrun] at hrun'
    cases hrun'
    exact ⟨same, within, hjoined.alike rfl⟩

/-- The joined pattern is the second one with the first one as an earlier alternative, unless it
takes too many states. -/
theorem compile_bar (hp : compile source = .ok p) (hq : compile source' = .ok q)
    (plain : NoBackReferences source') :
    compile (source ++ bar :: source') = .error .tooManyStates ∨
      ∃ r, compile (source ++ bar :: source') = .ok r ∧ p.loops ≤ r.loops ∧
        ∃ same : Pairing, same.Within q.loops r.loops ∧
          Node.Joined same (some p.root) q.root r.root := by
  have hlex := lex_bar hp source'
  obtain ⟨-, b₁, hrun₁, rfl⟩ := compile_eq_ok.mp hp
  obtain ⟨hfault, b, hrun, rfl⟩ := compile_eq_ok.mp hq
  obtain ⟨b₂, hresumes, hlater⟩ := Builder.run_bar hrun₁
  have hsound : (lex (source ++ bar :: source')).fault = none := by rw [hlex, hfault]
  rw [compile_of_sound hsound, hlex, hlater]
  rcases hresumes.tracks.run plain b hrun with hfull | ⟨b', hrun', ⟨same, within, hjoined⟩, hfloor⟩
  · rw [hfull]
    exact .inl rfl
  · rw [hrun']
    exact .inr ⟨_, rfl, hfloor, same, within, hjoined⟩

end

/-! ## Matching either of two -/

section

variable {loops loops' depth depth' : Nat} {scope : Scope} {before : Option UInt8} {rest : Bytes}

/-- Whether a tree is matched here, with nothing but empty goals behind it; what has been captured
makes no difference. -/
def Decided (loops depth : Nat) (scope : Scope) (before : Option UInt8) (rest : Bytes) (n : Node)
    (matched : Bool) : Prop :=
  ∀ goals captures, AllEmpty goals →
    (solve loops depth scope (.node n :: goals) before rest [] captures).isMatch = matched

theorem Outcome.isMatch_orElse (first : Outcome) {second : Captures → Outcome} {matched : Bool}
    (h : ∀ c, (second c).isMatch = matched) :
    (first.orElse second).isMatch = (first.isMatch || matched) := by
  cases first with
  | matched => rfl
  | failed captures => exact h captures

theorem Decided.alt {n n' : Node} {matched matched' : Bool}
    (h : Decided loops depth scope before rest n matched)
    (h' : Decided loops depth scope before rest n' matched') :
    Decided loops depth scope before rest (.seq (.alt n n') .empty) (matched || matched') := by
  intro goals captures hgoals
  have hmore : AllEmpty (.node .empty :: goals) := List.forall_mem_cons.mpr ⟨rfl, hgoals⟩
  rw [solve_seq, solve_alt, Outcome.isMatch_orElse _ fun c => h' _ c hmore, h _ _ hmore]

theorem shallow_of_allEmpty {goals : List Goal} (h : AllEmpty goals) : Shallow depth goals := by
  intro goal hgoal
  rw [h goal hgoal]
  exact Nat.zero_le depth

/-- Trees of one form are matched at the same places. -/
theorem Node.Alike.decided {same : Pairing} {n n' : Node} (h : n.Alike same n')
    (within : same.Within loops loops') (deep : n.lookaheadDepth ≤ depth)
    (deep' : n.lookaheadDepth ≤ depth') :
    ∃ matched, Decided loops depth scope before rest n matched ∧
      Decided loops' depth' scope before rest n' matched := by
  have hagree {goals goals' : List Goal} (captures captures' : Captures) (hgoals : AllEmpty goals)
      (hgoals' : AllEmpty goals') :=
    agreeFrom within depth (.node n :: goals) rest [] scope before captures captures'
      (.cons (.node h) (.done hgoals hgoals')) .nil
      (.cons deep (shallow_of_allEmpty hgoals))
      (.cons deep' (shallow_of_allEmpty hgoals))
  refine ⟨(solve loops depth scope [.node n] before rest [] #[]).isMatch, ?_, ?_⟩
  · intro goals captures hgoals
    rw [hagree captures #[] hgoals allEmpty_nil, hagree #[] #[] allEmpty_nil allEmpty_nil]
  · intro goals captures hgoals
    exact (hagree #[] captures allEmpty_nil hgoals).symm

theorem Node.Joined.depth_le {same : Pairing} {earlier : Option Node} {c d : Node}
    (h : Node.Joined same earlier c d) : c.lookaheadDepth ≤ d.lookaheadDepth ∧
      ∀ e ∈ earlier, e.lookaheadDepth ≤ d.lookaheadDepth := by
  induction h with
  | alone halike => exact ⟨Nat.le_of_eq halike.lookaheadDepth_eq, nofun⟩
  | first e halike =>
      have heq := halike.lookaheadDepth_eq
      simp only [Node.lookaheadDepth, Option.mem_some_iff, forall_eq']
      omega
  | later _ hlater ih =>
      have heq := hlater.lookaheadDepth_eq
      obtain ⟨hle, hearlier⟩ := ih
      simp only [Node.lookaheadDepth]
      refine ⟨by omega, fun e he => ?_⟩
      have := hearlier e he
      omega

/-- With an earlier alternative in front, a tree is matched where that alternative is, too. -/
theorem Node.Joined.decided {same : Pairing} {e c d : Node} (h : Node.Joined same (some e) c d)
    (within : same.Within loops loops') (deep : c.lookaheadDepth ≤ depth)
    (deep' : c.lookaheadDepth ≤ depth') {earlier : Bool}
    (hearlier : Decided loops' depth' scope before rest e earlier) :
    ∃ matched, Decided loops depth scope before rest c matched ∧
      Decided loops' depth' scope before rest d (earlier || matched) := by
  generalize hsome : some e = choice at h
  induction h with
  | alone => contradiction
  | first e halike =>
      cases hsome
      obtain ⟨matched, hc, hc'⟩ := halike.decided within deep deep'
      exact ⟨matched, hc, hearlier.alt hc'⟩
  | later _ hlater ih =>
      simp only [Node.lookaheadDepth, Nat.max_le] at deep deep'
      obtain ⟨matched, hc, hd⟩ := ih deep.1.1 deep'.1.1 hsome
      obtain ⟨matched', hl, hl'⟩ := hlater.decided within deep.1.2 deep'.1.2
      refine ⟨matched || matched', hc.alt hl, ?_⟩
      rw [← Bool.or_assoc]
      exact hd.alt hl'

end

section

variable {p q r : Pattern} {same same' : Pairing}

/-- The joined pattern is matched where either pattern is. -/
theorem matchesAt_joined (within : same.Within p.loops p.loops) (alike : p.root.Alike same p.root)
    (hloops : p.loops ≤ r.loops) (within' : same'.Within q.loops r.loops)
    (joined : Node.Joined same' (some p.root) q.root r.root) (before : Option UInt8)
    (rest : Bytes) :
    matchesAt r before rest = (matchesAt p before rest || matchesAt q before rest) := by
  obtain ⟨hdepth', hdepth⟩ := joined.depth_le
  obtain ⟨matched, hp, hearlier⟩ :=
    alike.decided (within.mono hloops) (Nat.le_refl _) (hdepth _ rfl)
  obtain ⟨matched', hq, hr⟩ := joined.decided within' (Nat.le_refl _) hdepth' hearlier
  rw [matchesAt, matchesAt, matchesAt, hp _ _ allEmpty_nil, hq _ _ allEmpty_nil,
    hr _ _ allEmpty_nil]

theorem occursIn_of_matchesAt
    (h : ∀ before rest,
      matchesAt r before rest = (matchesAt p before rest || matchesAt q before rest))
    (name : Bytes) : r.occursIn name = (p.occursIn name || q.occursIn name) := by
  have hsearch (before : Option UInt8) :
      searchFrom r before name = (searchFrom p before name || searchFrom q before name) := by
    induction name generalizing before with
    | nil => rw [searchFrom_nil, searchFrom_nil, searchFrom_nil, h]
    | cons b rest ih =>
        rw [searchFrom_cons, searchFrom_cons, searchFrom_cons, h, ih]
        ac_rfl
  exact hsearch none

end

end SearchDaemon.Pattern

namespace SearchDaemon.Finder

variable {tree : FileTree} {cwd : Place} {p q r : Pattern} {dir : Bytes}

/-- What two searches of one directory report between them, in order. -/
def merged (found found' : Option (List Bytes)) : Option (List Bytes) :=
  found.bind fun files => found'.map fun files' => Bytes.sorted (files ∪ files')

theorem Reported.or_iff {wanted wanted' : Bytes → Bool} {place : Place} {shown path : Bytes}
    {names : List Bytes} :
    Reported tree cwd (fun name => wanted name || wanted' name) place shown path names ↔
      Reported tree cwd wanted place shown path names ∨
        Reported tree cwd wanted' place shown path names := by
  simp only [Reported, Bool.or_eq_true, and_or_left, exists_or]

theorem find_or (sound : tree.WellFormed) (named : tree.Named)
    (h : ∀ name, r.occursIn name = (p.occursIn name || q.occursIn name)) :
    find tree cwd r dir = merged (find tree cwd p dir) (find tree cwd q dir) := by
  by_cases hdir : ∃ place mode, tree.stat cwd dir = .ok (place, .directory mode)
  · obtain ⟨place, mode, hstat⟩ := hdir
    obtain ⟨files, hfind, hrising, hmem⟩ := find_of_stat p sound named hstat
    obtain ⟨files', hfind', hrising', hmem'⟩ := find_of_stat q sound named hstat
    obtain ⟨both, hboth, hrising₂, hmem₂⟩ := find_of_stat r sound named hstat
    have hdistinct : (files ∪ files').Nodup := List.Nodup.union files hrising'.nodup
    have hmembers : ∀ path, path ∈ both ↔ path ∈ Bytes.sorted (files ∪ files') := by
      intro path
      rw [Bytes.mem_sorted, List.mem_union_iff, hmem, hmem', hmem₂, ← exists_or, funext h]
      exact exists_congr fun names => Reported.or_iff
    rw [hfind, hfind', hboth, hrising₂.eq_of_mem_iff (Bytes.sorted_increasing hdistinct) hmembers]
    rfl
  · rw [find_eq_none_iff.mpr hdir, find_eq_none_iff.mpr hdir]
    rfl

end SearchDaemon.Finder

namespace SearchDaemon.Pattern

/-- **A bar between two patterns finds what either of them finds.** -/
theorem bar_finds_either {source source' : Bytes} {p q : Pattern} (hp : compile source = .ok p)
    (hq : compile source' = .ok q) (plain : NoBackReferences source)
    (plain' : NoBackReferences source')
    (fits : compile (source ++ text "|" ++ source') ≠ .error .tooManyStates) :
    ∃ r, compile (source ++ text "|" ++ source') = .ok r ∧
      (∀ name, r.occursIn name = (p.occursIn name || q.occursIn name)) ∧
      ∀ (tree : FileTree) (cwd : Place) (dir : Bytes), tree.WellFormed → tree.Named →
        Finder.find tree cwd r dir =
          Finder.merged (Finder.find tree cwd p dir) (Finder.find tree cwd q dir) := by
  have htext : source ++ text "|" ++ source' = source ++ bar :: source' := by
    rw [List.append_assoc]
    rfl
  rw [htext] at fits ⊢
  obtain ⟨same, within, alike⟩ := alike_self hp plain
  rcases compile_bar hp hq plain' with hfull | ⟨r, hr, hloops, same', within', joined⟩
  · exact absurd hfull fits
  · have hoccurs := occursIn_of_matchesAt (matchesAt_joined within alike hloops within' joined)
    exact ⟨r, hr, hoccurs, fun tree cwd dir sound named => Finder.find_or sound named hoccurs⟩

/-- A directory with three files in it. -/
private def threeFiles : FileTree :=
  ⟨[([text "d"], .directory 0o755), ([text "d", text "xcc"], .file 0o644 []),
    ([text "d", text "ab"], .file 0o644 []), ([text "d", text "ac"], .file 0o644 [])]⟩

/-- Repeats inside repeats on one side, copies and a bar of its own on the other. -/
theorem bar_finds_either_stars_and_copies :
    ∃ p q, compile (text "(a*)*b") = .ok p ∧ compile (text "c{2}|d") = .ok q ∧
      NoBackReferences (text "(a*)*b") ∧ NoBackReferences (text "c{2}|d") ∧
      compile (text "(a*)*b" ++ text "|" ++ text "c{2}|d") ≠ .error .tooManyStates ∧
      threeFiles.WellFormed ∧ threeFiles.Named ∧
      ∃ r, compile (text "(a*)*b" ++ text "|" ++ text "c{2}|d") = .ok r ∧
        r.occursIn (text "xcc") = true ∧ r.occursIn (text "ac") = false ∧
        Finder.find threeFiles [] r (text "d") = some [text "d/ab", text "d/xcc"] := by
  have hsound : threeFiles.WellFormed := ⟨by decide, by decide, by decide⟩
  have hnamed : threeFiles.Named := FileTree.named_of_entries (by decide)
  refine ⟨_, _, rfl, rfl, by decide, by decide, nofun, hsound, hnamed, ?_⟩
  obtain ⟨r, hr, hoccurs, hfind⟩ :=
    @bar_finds_either (text "(a*)*b") (text "c{2}|d") _ _ rfl rfl (by decide) (by decide) nofun
  refine ⟨r, hr, ?_, ?_, ?_⟩
  · rw [hoccurs]
    cbv
  · rw [hoccurs]
    cbv
  · rw [hfind threeFiles [] (text "d") hsound hnamed]
    cbv

end SearchDaemon.Pattern
