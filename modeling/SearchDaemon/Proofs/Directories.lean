import SearchDaemon.Proofs.FileCalls

/-!
# Directories that are made

`ensureDirectory` adds directories and sets permission bits. What it may change besides is
decided by the path alone: it sets the bits of whatever stands under a name that it finds
taken, and only a path that climbs, by a name of two dots, can come back from a directory
just made to something that was there before. `Bare` is what carries the induction: along a
path that does not climb, every part leads nowhere or to an empty directory. With it comes
`NewTo`, that this directory is a new one, so that such a path changes nothing that was there.
-/

namespace SearchDaemon

/-! ## The path of a directory and of what is in it -/

theorem splitNames_append (front last : Bytes) :
    PathText.splitNames (front ++ 47 :: last) =
      PathText.splitNames front ++ PathText.splitNames last := by
  rw [PathText.splitNames, List.splitOnP_append_cons front last (by decide), List.filter_append]
  rfl

theorem splitNames_single {name : Bytes} (noSlash : (47 : UInt8) ∉ name) :
    PathText.splitNames name = if name.isEmpty then [] else [name] := by
  have hsingle : name.splitOnP (· = 47) = [name] := by
    apply List.splitOnP_eq_singleton
    intro b hb
    exact decide_eq_false fun heq => noSlash (heq ▸ hb)
  rw [PathText.splitNames, hsingle]
  cases name <;> rfl

/-- A path is cut at its last slash. -/
theorem parentDirectory_of_slash {path : Bytes} (slash : (47 : UInt8) ∈ path) :
    ∃ front last, path = front ++ 47 :: last ∧ (47 : UInt8) ∉ last ∧
      parentDirectory path = if front.isEmpty then [47] else front := by
  have hsplit := List.takeWhile_append_dropWhile (p := fun b : UInt8 => decide (b ≠ 47))
    (l := path.reverse)
  have hbehind : (47 : UInt8) ∉ path.reverse.takeWhile fun b => decide (b ≠ 47) := by
    intro hmem
    have hall := List.all_eq_true.mp (List.all_takeWhile (l := path.reverse)) 47 hmem
    exact of_decide_eq_true hall rfl
  cases hfront : path.reverse.dropWhile fun b => decide (b ≠ 47) with
  | nil =>
      rw [hfront, List.append_nil] at hsplit
      rw [hsplit] at hbehind
      exact absurd (List.mem_reverse.mpr slash) hbehind
  | cons b front =>
      have hb : b = 47 := by
        have hfails := List.head?_dropWhile_not (fun b : UInt8 => decide (b ≠ 47)) path.reverse
        rw [hfront] at hfails
        simpa using hfails
      subst hb
      refine ⟨front.reverse, (path.reverse.takeWhile fun b => decide (b ≠ 47)).reverse, ?_, ?_, ?_⟩
      · rw [hfront] at hsplit
        have hwhole := congrArg List.reverse hsplit
        rw [List.reverse_reverse] at hwhole
        exact hwhole.symm.trans (by simp)
      · simpa using hbehind
      · rw [parentDirectory, if_pos slash, hfront]
        rfl

theorem untilZero_append (front last : Bytes) :
    Bytes.untilZero (front ++ 47 :: last) =
      if (0 : UInt8) ∈ front then Bytes.untilZero front
      else front ++ 47 :: Bytes.untilZero last := by
  unfold Bytes.untilZero
  induction front with
  | nil => simp
  | cons b front ih =>
      by_cases hb : b = 0
      · simp [hb]
      · rw [List.cons_append, List.takeWhile_cons_of_pos (by simpa using hb), ih,
          List.takeWhile_cons_of_pos (by simpa using hb)]
        by_cases hfront : (0 : UInt8) ∈ front
        · simp [hfront]
        · simp [hfront, Ne.symm hb]

theorem untilZero_of_not_mem {path : Bytes} (h : (0 : UInt8) ∉ path) :
    Bytes.untilZero path = path := by
  unfold Bytes.untilZero
  induction path with
  | nil => rfl
  | cons b path ih =>
      rw [List.mem_cons, not_or] at h
      obtain ⟨hb, hpath⟩ := h
      rw [List.takeWhile_cons_of_pos (by simpa using Ne.symm hb), ih hpath]

theorem not_mem_untilZero {path : Bytes} {b : UInt8} (h : b ∉ path) : b ∉ Bytes.untilZero path :=
  fun hmem => h ((List.takeWhile_sublist _).subset hmem)

/-- The text of a path and that of its parent directory: the same, if a zero byte ends both,
or the path's goes on with a slash and a last name. -/
theorem parent_text {path : Bytes} (hdot : parentDirectory path ≠ [46])
    (hroot : parentDirectory path ≠ [47]) :
    (parentDirectory path).untilZero = path.untilZero ∨
      ∃ last, (47 : UInt8) ∉ last ∧ parentDirectory path ≠ [] ∧
        (parentDirectory path).untilZero = parentDirectory path ∧
        path.untilZero = parentDirectory path ++ 47 :: last := by
  have hslash : (47 : UInt8) ∈ path := by
    by_contra hnone
    exact hdot (if_neg hnone)
  obtain ⟨front, last, rfl, hlast, hparent⟩ := parentDirectory_of_slash hslash
  have hfront : front.isEmpty = false := by
    by_contra hempty
    exact hroot (hparent.trans (if_pos (by simpa using hempty)))
  rw [hfront, if_neg Bool.false_ne_true] at hparent
  rw [hparent, untilZero_append]
  by_cases hzero : (0 : UInt8) ∈ front
  · exact Or.inl (if_pos hzero).symm
  · rw [if_neg hzero]
    exact Or.inr ⟨Bytes.untilZero last, not_mem_untilZero hlast, by simpa using hfront,
      untilZero_of_not_mem hzero, rfl⟩

namespace PathText

/-- What the paths of a directory and of something in it have in common: the names of the
second are those of the first, perhaps with one more. -/
structure Above (parent path : Bytes) : Prop where
  absolute : (parse parent).absolute = (parse path).absolute
  check : check path = .ok () → check parent = .ok ()
  names : (∃ name, (parse path).names = (parse parent).names ++ [name]) ∨
    (parse path).names = (parse parent).names ∧
      ((parse path).trailingSlash = true ∨
        (parse parent).trailingSlash = (parse path).trailingSlash)

theorem check_eq_ok {path : Bytes} :
    check path = .ok () ↔
      0 < (Bytes.untilZero path).length ∧ (Bytes.untilZero path).length < pathLimit := by
  unfold check
  dsimp only
  constructor
  · intro h
    split at h
    · contradiction
    · split at h
      · contradiction
      · omega
  · rintro ⟨hsome, hshort⟩
    rw [if_neg (by omega), if_neg (by omega)]

theorem above_parentDirectory {path : Bytes} (hdot : parentDirectory path ≠ [46])
    (hroot : parentDirectory path ≠ [47]) : Above (parentDirectory path) path := by
  rcases parent_text hdot hroot with hsame | ⟨last, hlast, hne, hparent, hpath⟩
  · have hparse : parse (parentDirectory path) = parse path := by simp only [parse, hsame]
    refine ⟨by rw [hparse], ?_, Or.inr ⟨by rw [hparse], Or.inr (by rw [hparse])⟩⟩
    intro hcheck
    rw [PathText.check, hsame]
    exact hcheck
  · refine ⟨?_, ?_, ?_⟩
    · simp only [parse, hparent, hpath, List.head?_append_of_ne_nil _ hne]
    · rw [check_eq_ok, check_eq_ok, hparent, hpath, List.length_append]
      have hpos := List.length_pos_of_ne_nil hne
      omega
    · have hnames : (parse path).names =
          (parse (parentDirectory path)).names ++ splitNames last := by
        simp only [parse, hparent, hpath, splitNames_append]
      rw [splitNames_single hlast] at hnames
      by_cases hempty : last.isEmpty = true
      · rw [if_pos hempty, List.append_nil] at hnames
        refine Or.inr ⟨hnames, Or.inl ?_⟩
        rw [List.isEmpty_iff] at hempty
        simp only [parse, hpath, hempty, List.getLast?_concat]
        rfl
      · rw [if_neg hempty] at hnames
        exact Or.inl ⟨last, hnames⟩

/-- A path on which two dots lead back up. -/
def Climbs (path : Bytes) : Prop := dotDot ∈ (parse path).names

theorem Above.climbs {parent path : Bytes} (above : Above parent path) (h : Climbs parent) :
    Climbs path := by
  rcases above.names with ⟨name, hnames⟩ | ⟨hnames, -⟩
  · rw [Climbs, hnames]
    exact List.mem_append_left _ h
  · rw [Climbs, hnames]
    exact h

end PathText

namespace FileTree

variable {tree tree' : FileTree} {v : Vantage} {cwd place : Place} {parent path : Bytes}
  {entry : Entry} {mode : Nat} {ok follow slash : Bool} {journal : Log.Journal}

/-! ## Parts of a path -/

theorem origin_above (above : PathText.Above parent path) :
    origin cwd parent = origin cwd path := by
  rw [origin, origin, above.absolute]

/-- A path that leads anywhere leads through the directory that the part before its last name
leads to. -/
theorem Reaches.passed {target : Target} {name : Bytes}
    (h : tree.Reaches cwd follow path slash target)
    (above : PathText.Above parent path)
    (names : (PathText.parse path).names = (PathText.parse parent).names ++ [name])
    (rooted : tree.Rooted) (start : tree.isDirectory cwd = true) :
    ∃ links last bits, tree.isDirectory last = true ∧
      (∀ slash', tree.Reaches cwd true parent slash' (.found last (.directory bits))) ∧
      tree.Leads follow links last [name] slash target := by
  obtain ⟨hcheck, hleads⟩ := h
  rw [names] at hleads
  obtain ⟨links, last, bits, hlast, hpart, hrest⟩ :=
    hleads.passed (List.cons_ne_nil name []) rooted (isDirectory_cwd start)
  rw [← origin_above above] at hpart
  exact ⟨links, last, bits, hlast, fun slash' => ⟨above.check hcheck, hpart slash'⟩, hrest⟩

/-- A path leads to a file, a pipe or a socket at a place. -/
def Blocked (tree : FileTree) (cwd : Place) (path : Bytes) (place : Place) : Prop :=
  ∃ entry : Entry, entry.isPlain = true ∧ tree.Reaches cwd true path false (.found place entry)

theorem blocked_of_stat (h : tree.stat cwd path = .ok (place, entry)) (plain : entry.isPlain = true)
    (rooted : tree.Rooted) (start : tree.isDirectory cwd = true) : tree.Blocked cwd path place := by
  have hreaches := stat_eq_ok.mp h
  rw [hreaches.2.plain_unasked plain rooted (isDirectory_cwd start)] at hreaches
  exact ⟨entry, plain, hreaches⟩

/-- Below a file there are no names: what a longer path leads to, it leads to by the same
names. -/
theorem Blocked.reaches {target : Target} (h : tree.Blocked cwd parent place)
    (above : PathText.Above parent path) (rooted : tree.Rooted)
    (start : tree.isDirectory cwd = true)
    (reaches : tree.Reaches cwd true path false target) : target.place = place := by
  obtain ⟨entry, hplain, hblocked⟩ := h
  rcases above.names with ⟨name, hnames⟩ | ⟨hnames, -⟩
  · obtain ⟨links, last, bits, -, hpart, -⟩ := reaches.passed above hnames rooted start
    cases hblocked.2.unique (hpart false).2
    contradiction
  · obtain ⟨-, hleads⟩ := reaches
    rw [hnames, ← origin_above above] at hleads
    rw [hleads.unique hblocked.2]
    rfl

/-- What a longer path names is what blocks the shorter one. -/
theorem Blocked.names {other : Place} (h : tree.Blocked cwd parent place)
    (above : PathText.Above parent path) (rooted : tree.Rooted)
    (start : tree.isDirectory cwd = true)
    (names : tree.Names cwd path other)
    (plain : ∀ entry, tree.get? other = some entry → entry.isPlain = true) : place = other := by
  obtain ⟨-, -, target, ⟨hcheck, hleads⟩, rfl⟩ := names
  refine (h.reaches above rooted start ⟨hcheck, hleads.following ?_⟩).symm
  rintro spot goal rfl
  exact absurd (plain _ hleads.get?_found) Bool.false_ne_true

/-- A path that leads nowhere, or to a directory with nothing in it. -/
def Bare (tree : FileTree) (cwd : Place) (path : Bytes) : Prop :=
  ∀ place entry, tree.stat cwd path = .ok (place, entry) →
    entry.isDirectory = true ∧ ∀ name, tree.get? (place ++ [name]) = none

theorem bare_of_error {e : FileError} (h : tree.stat cwd path = .error e) : tree.Bare cwd path := by
  intro place entry hstat
  rw [h] at hstat
  contradiction

theorem bare_of_empty {bits : Nat} (h : tree.stat cwd path = .ok (place, .directory bits))
    (empty : ∀ name, tree.get? (place ++ [name]) = none) : tree.Bare cwd path := by
  intro place' entry hstat
  rw [h] at hstat
  cases hstat
  exact ⟨rfl, empty⟩

/-- In an empty directory a path that does not climb leads nowhere on: only to where its parent
leads. -/
theorem Bare.shorter (h : tree.Bare cwd parent) (above : PathText.Above parent path)
    (level : ¬PathText.Climbs path) (rooted : tree.Rooted) (start : tree.isDirectory cwd = true)
    (leads : tree.stat cwd path = .ok (place, entry)) :
    tree.stat cwd parent = .ok (place, entry) := by
  have hreaches := stat_eq_ok.mp leads
  rcases above.names with ⟨name, hnames⟩ | ⟨hnames, hslash⟩
  · obtain ⟨links, last, bits, hlast, hpart, hrest⟩ := hreaches.passed above hnames rooted start
    have hparent := stat_eq_ok.mpr (hpart _)
    obtain ⟨-, hempty⟩ := h _ _ hparent
    generalize (PathText.parse path).trailingSlash = asked at hrest
    cases hrest with
    | stay hrest =>
        cases hrest.unique (.here (hpart true).2.get?_found)
        exact hparent
    | up => exact absurd (by rw [PathText.Climbs, hnames]; simp) level
    | plain _ hentry | into _ hentry | link _ hentry | through _ hentry =>
        rw [hempty] at hentry
        contradiction
  · have hleads := hreaches.2
    rw [hnames, ← origin_above above] at hleads
    refine stat_eq_ok.mpr ⟨above.check hreaches.1, ?_⟩
    rcases hslash with hasked | hsame
    · exact hleads.unasked hasked _
    · rw [hsame]
      exact hleads

/-- In an empty directory a path that does not climb leads nowhere, or not on. -/
theorem Bare.longer (h : tree.Bare cwd parent) (above : PathText.Above parent path)
    (level : ¬PathText.Climbs path) (rooted : tree.Rooted) (start : tree.isDirectory cwd = true) :
    tree.Bare cwd path :=
  fun _ _ leads => h _ _ (h.shorter above level rooted start leads)

/-! ## What the making of directories leaves -/

/-- The second tree is the first with directories added and permission bits set, those of
files only at certain places. -/
structure Furnished (bits : Nat) (touched : Place → Prop) (tree tree' : FileTree) : Prop where
  kept : ∀ {place : Place} {entry : Entry}, tree.get? place = some entry →
    tree'.get? place = some entry ∨ tree'.get? place = some (entry.withMode bits) ∧
      (entry.isPlain = true → touched place)
  made : ∀ {place : Place} {entry : Entry}, tree.get? place = none → tree'.get? place = some entry →
    entry.isDirectory = true ∧ tree'.isDirectory place.dropLast = true

@[simp] theorem isPlain_withMode (entry : Entry) (bits : Nat) :
    (entry.withMode bits).isPlain = entry.isPlain := by cases entry <;> rfl

@[simp] theorem isDirectory_withMode (entry : Entry) (bits : Nat) :
    (entry.withMode bits).isDirectory = entry.isDirectory := by cases entry <;> rfl

@[simp] theorem withMode_withMode (entry : Entry) (bits : Nat) :
    (entry.withMode bits).withMode bits = entry.withMode bits := by cases entry <;> rfl

variable {bits : Nat} {touched touched' : Place → Prop}

namespace Furnished

theorem refl (tree : FileTree) : Furnished bits touched tree tree := by
  refine ⟨fun h => Or.inl h, ?_⟩
  intro place entry hnone hsome
  rw [hnone] at hsome
  contradiction

theorem weaken (h : Furnished bits touched tree tree')
    (more : ∀ place, touched place → touched' place) : Furnished bits touched' tree tree' := by
  refine ⟨?_, h.made⟩
  intro place entry hentry
  rcases h.kept hentry with hsame | ⟨hset, htouched⟩
  · exact Or.inl hsame
  · exact Or.inr ⟨hset, fun hplain => more _ (htouched hplain)⟩

theorem passes (h : Furnished bits touched tree tree') : Passes tree tree' := by
  constructor
  · intro place mode hentry
    rcases h.kept hentry with hsame | ⟨hset, -⟩
    · exact ⟨_, hsame⟩
    · exact ⟨_, hset⟩
  · intro place goal hentry
    rcases h.kept hentry with hsame | ⟨hset, -⟩
    · exact hsame
    · exact hset

theorem rooted (h : Furnished bits touched tree tree') (rooted : tree.Rooted) : tree'.Rooted := by
  intro place entry hentry
  cases hbefore : tree.get? place with
  | some before => exact h.passes.isDirectory (rooted _ _ hbefore)
  | none => exact (h.made hbefore hentry).2

/-- A walk finds what it found, but perhaps for the bits. -/
theorem found_again {links : Nat} {dir : Place} {names : List Bytes}
    (h : Furnished bits touched tree tree')
    (leads : Leads tree follow links dir names slash (.found place entry)) :
    ∃ now, Leads tree' follow links dir names slash (.found place now) ∧
      (now = entry ∨ now = entry.withMode bits) := by
  obtain ⟨now, hnow, hplain⟩ : ∃ now, tree'.get? place = some now ∧
      (now = entry ∨ now = entry.withMode bits) := by
    rcases h.kept leads.get?_found with hsame | ⟨hset, -⟩
    · exact ⟨entry, hsame, Or.inl rfl⟩
    · exact ⟨_, hset, Or.inr rfl⟩
  obtain ⟨again, hagain⟩ := leads.found_again h.passes fun plain => by
    refine ⟨now, hnow, ?_⟩
    rcases hplain with rfl | rfl
    · exact plain
    · rw [isPlain_withMode, plain]
  cases hnow.symm.trans hagain.get?_found
  exact ⟨now, hagain, hplain⟩

/-- What is plain was there before. -/
theorem plain_before (h : Furnished bits touched tree tree') (now : tree'.get? place = some entry)
    (notDirectory : entry.isDirectory = false) :
    ∃ before, tree.get? place = some before ∧
      (entry = before ∨
        entry = before.withMode bits ∧ (before.isPlain = true → touched place)) := by
  cases hbefore : tree.get? place with
  | none => exact absurd ((h.made hbefore now).1.symm.trans notDirectory) Bool.noConfusion
  | some before =>
      refine ⟨before, rfl, ?_⟩
      rcases h.kept hbefore with hsame | ⟨hset, htouched⟩
      · rw [now] at hsame
        exact Or.inl (Option.some.inj hsame)
      · rw [now] at hset
        exact Or.inr ⟨Option.some.inj hset, htouched⟩

theorem trans {tree'' : FileTree} (h : Furnished bits touched tree tree')
    (h' : Furnished bits touched tree' tree'') : Furnished bits touched tree tree'' := by
  constructor
  · intro place entry hentry
    rcases h.kept hentry with hsame | ⟨hset, htouched⟩
    · exact h'.kept hsame
    · rcases h'.kept hset with hsame | ⟨hset', -⟩
      · exact Or.inr ⟨hsame, htouched⟩
      · rw [withMode_withMode] at hset'
        exact Or.inr ⟨hset', htouched⟩
  · intro place entry hnone hsome
    cases hbetween : tree'.get? place with
    | none => exact h'.made hbetween hsome
    | some between =>
        obtain ⟨hdirectory, hparent⟩ := h.made hnone hbetween
        refine ⟨?_, h'.passes.isDirectory hparent⟩
        rcases h'.kept hbetween with hsame | ⟨hset, -⟩
        · rw [hsome] at hsame
          cases hsame
          exact hdirectory
        · rw [hsome] at hset
          cases hset
          rw [isDirectory_withMode]
          exact hdirectory

end Furnished

theorem furnished_setMode (h : tree.setMode v path mode = .ok tree') :
    Furnished (mode &&& 0o7777)
      (fun place => ∃ entry : Entry, entry.isPlain = true ∧
        tree.stat v.cwd path = .ok (place, entry)) tree tree' := by
  obtain ⟨place, entry, hreaches, rfl⟩ := setMode_eq_ok.mp h
  by_cases hroot : place = []
  · rw [if_pos (by simpa using hroot)]
    exact .refl tree
  · rw [if_neg (by simpa using hroot)]
    have hentry := hreaches.2.get?_found
    have hsame := sameBut_put tree (entry.withMode (mode &&& 0o7777)) hroot
    constructor
    · intro other before hbefore
      by_cases hother : other = place
      · subst hother
        rw [hentry] at hbefore
        cases hbefore
        exact Or.inr ⟨get?_put_here _ _ hroot, fun hplain => ⟨_, hplain, stat_eq_ok.mpr hreaches⟩⟩
      · exact Or.inl ((hsame _ hother).trans hbefore)
    · intro other before hnone hsome
      have hother : other ≠ place := by
        rintro rfl
        rw [hentry] at hnone
        contradiction
      rw [hsame _ hother, hnone] at hsome
      contradiction

/-- A path at which the bits are set is as bare as before. -/
theorem bare_setMode (h : tree.setMode v path mode = .ok tree') (bare : tree.Bare v.cwd path) :
    tree'.Bare v.cwd path := by
  obtain ⟨place, entry, hreaches, htree'⟩ := setMode_eq_ok.mp h
  obtain ⟨hdirectory, hempty⟩ := bare _ _ (stat_eq_ok.mpr hreaches)
  obtain ⟨now, hagain, hsame⟩ := (furnished_setMode h).found_again hreaches.2
  obtain ⟨bits, rfl⟩ : ∃ bits, now = .directory bits := by
    cases entry with
    | directory => rcases hsame with rfl | rfl <;> exact ⟨_, rfl⟩
    | _ => contradiction
  refine bare_of_empty (stat_eq_ok.mpr ⟨hreaches.1, hagain⟩) fun name => ?_
  rw [htree']
  split
  · exact hempty name
  · rename_i hnamed
    rw [sameBut_put tree _ (by simpa using hnamed) _ (by simp)]
    exact hempty name

section

variable (rooted : tree.Rooted) (start : tree.isDirectory v.cwd = true)
include rooted start

/-- A directory just made is empty. -/
theorem furnished_makeDirectory (h : tree.makeDirectory v path mode = .ok tree') :
    Furnished bits touched tree tree' ∧ tree'.Bare v.cwd path := by
  obtain ⟨-, dir, name, ⟨hcheck, hleads⟩, rfl⟩ := makeDirectory_eq_ok.mp h
  have hnamed : dir ++ [name] ≠ [] := by simp
  have hnone := hleads.get?_free.2
  have hsame := sameBut_put tree (.directory (v.newMode (mode &&& 0o1777))) hnamed
  have hhere := get?_put_here tree (.directory (v.newMode (mode &&& 0o1777))) hnamed
  have hfurnished : Furnished bits touched tree
      (tree.put (dir ++ [name]) (.directory (v.newMode (mode &&& 0o1777)))) := by
    constructor
    · intro place entry hentry
      have hother : place ≠ dir ++ [name] := by
        rintro rfl
        rw [hnone] at hentry
        contradiction
      exact Or.inl ((hsame _ hother).trans hentry)
    · intro place entry hbefore hentry
      by_cases hother : place = dir ++ [name]
      · subst hother
        rw [hhere] at hentry
        cases hentry
        refine ⟨rfl, ?_⟩
        rw [List.dropLast_concat]
        have hpasses := hsame.passes fun _ hsome => absurd (hnone.symm.trans hsome) nofun
        exact hpasses.isDirectory (hleads.free_inDirectory rooted (isDirectory_cwd start))
      · rw [hsame _ hother, hbefore] at hentry
        contradiction
  have hstat := stat_eq_ok.mpr
    ⟨hcheck, hleads.directory_appears hfurnished.passes hhere (PathText.parse path).trailingSlash⟩
  refine ⟨hfurnished, bare_of_empty hstat fun child => ?_⟩
  rw [hsame _ (by simp)]
  by_contra hchild
  obtain ⟨entry, hentry⟩ := Option.ne_none_iff_exists'.mp hchild
  have hparent := rooted _ _ hentry
  rw [List.dropLast_concat, isDirectory, hnone] at hparent
  contradiction

end

/-! ## One directory -/

theorem walk_error {links : Nat} {dir : Place} {names : List Bytes} {e : FileError}
    (h : tree.walk follow links dir names slash = .error e) : e ≠ .exists := by
  fun_induction walk tree follow links dir names slash with
  | case3 _ _ _ _ ih | case4 _ _ _ _ _ ih | case8 _ _ _ _ _ _ _ _ _ _ ih
  | case11 _ _ _ _ _ _ _ _ _ _ _ _ ih => exact ih h
  | _ => cases h <;> simp

theorem check_error {e : FileError} (h : PathText.check path = .error e) : e ≠ .exists := by
  unfold PathText.check at h
  dsimp only at h
  split_ifs at h <;> cases h <;> exact nofun

theorem locateName_error {e : FileError} (h : tree.locateName cwd path = .error e) :
    e ≠ .exists := by
  rcases bind_eq_error.mp h with hcheck | ⟨⟨⟩, -, h⟩
  · exact check_error hcheck
  dsimp only at h
  split at h
  · contradiction
  · split at h
    · rcases bind_eq_error.mp h with hwalk | ⟨target, -, htarget⟩
      · exact walk_error hwalk
      · cases target <;> cases htarget
        exact nofun
    · rcases bind_eq_error.mp h with hwalk | ⟨target, -, htarget⟩
      · exact walk_error hwalk
      · cases target <;> cases htarget

/-- A path with a name too many for a walk that ends at its last name's directory. -/
theorem reaches_of_locateName {slot : NameSlot} {name : Bytes}
    (h : tree.locateName cwd path = .ok slot) (above : PathText.Above parent path)
    (names : (PathText.parse path).names = (PathText.parse parent).names ++ [name])
    (rooted : tree.Rooted) (start : tree.isDirectory cwd = true) :
    ∃ last entry, tree.Reaches cwd true parent true (.found last entry) := by
  -- With dots at its end the path is walked without its last name.
  by_cases hnamed : PathText.EndsInName path
  · obtain ⟨target, hreaches, -⟩ := (locateName_named hnamed).mp h
    obtain ⟨links, last, bits, -, hpart, -⟩ := hreaches.passed above names rooted start
    exact ⟨last, _, hpart true⟩
  · obtain ⟨⟨⟩, hcheck, h⟩ := bind_eq_ok.mp h
    have hlast : (PathText.parse path).names.getLast? = some name := by
      rw [names, List.getLast?_concat]
    have hdots : name = PathText.dot ∨ name = PathText.dotDot := by
      by_contra hproper
      exact hnamed ⟨name, hlast, not_or.mp hproper⟩
    simp only [hlast, if_pos hdots] at h
    obtain ⟨target, hwalk, htarget⟩ := bind_eq_ok.mp h
    rw [names, List.dropLast_concat] at hwalk
    cases target with
    | free => contradiction
    | found last entry =>
        refine ⟨last, entry, above.check hcheck, ?_⟩
        rw [origin_above above]
        exact walk_eq_ok.mp hwalk

/-- Behind a file nothing is made, unless the path names the file itself. -/
theorem Blocked.longer (h : tree.Blocked v.cwd parent place) (above : PathText.Above parent path)
    (made : tree.makeDirectory v path mode = .ok tree' ∨
      tree.makeDirectory v path mode = .error .exists)
    (rooted : tree.Rooted) (start : tree.isDirectory v.cwd = true) :
    tree.Blocked v.cwd path place := by
  obtain ⟨slot, hslot⟩ : ∃ slot, tree.locateName v.cwd path = .ok slot := by
    cases hlocate : tree.locateName v.cwd path with
    | ok slot => exact ⟨slot, rfl⟩
    | error e =>
        rw [makeDirectory, hlocate] at made
        rcases made with hmade | hmade
        · contradiction
        · cases hmade
          exact absurd rfl (locateName_error hlocate)
  obtain ⟨entry, hplain, hblocked⟩ := h
  rcases above.names with ⟨name, hnames⟩ | ⟨hnames, -⟩
  · obtain ⟨last, entry', hlast⟩ := reaches_of_locateName hslot above hnames rooted start
    have hsame := hblocked.2.unique (hlast.2.unasked rfl false)
    cases hsame
    have hasked := hlast.2.plain_unasked hplain rooted (isDirectory_cwd start)
    contradiction
  · obtain ⟨⟨⟩, hcheck, -⟩ := bind_eq_ok.mp hslot
    refine ⟨entry, hplain, hcheck, ?_⟩
    rw [hnames, ← origin_above above]
    exact hblocked.2

/-- One directory is made, or its bits are set, or nothing happens. -/
theorem makeOneDirectory_cases (h : tree.makeOneDirectory v path mode = (ok, tree', journal)) :
    (ok = false ∧ tree' = tree) ∨ ok = true ∧
      ∃ between, (tree.makeDirectory v path mode = .ok between ∨
          tree.makeDirectory v path mode = .error .exists ∧ between = tree) ∧
        ((tree' = between ∧ ∃ e, between.setMode v path mode = .error e) ∨
          between.setMode v path mode = .ok tree') := by
  unfold makeOneDirectory at h
  cases hmade : tree.makeDirectory v path mode with
  | ok between =>
      rw [hmade] at h
      refine Or.inr ?_
      cases hset : between.setMode v path mode with
      | ok after =>
          simp only [hset] at h
          cases h
          exact ⟨rfl, between, Or.inl rfl, Or.inr hset⟩
      | error e =>
          simp only [hset] at h
          cases h
          exact ⟨rfl, _, Or.inl rfl, Or.inl ⟨rfl, e, hset⟩⟩
  | error e =>
      rw [hmade] at h
      cases e with
      | «exists» =>
          refine Or.inr ?_
          cases hset : tree.setMode v path mode with
          | ok after =>
              simp only [hset] at h
              cases h
              exact ⟨rfl, tree, Or.inr ⟨rfl, rfl⟩, Or.inr hset⟩
          | error e =>
              simp only [hset] at h
              cases h
              exact ⟨rfl, _, Or.inr ⟨rfl, rfl⟩, Or.inl ⟨rfl, e, hset⟩⟩
      | _ =>
          cases h
          exact Or.inl ⟨rfl, rfl⟩

theorem Blocked.kept (h : tree.Blocked cwd path place)
    (furnished : Furnished bits touched tree tree') : tree'.Blocked cwd path place := by
  obtain ⟨entry, hplain, hcheck, hleads⟩ := h
  obtain ⟨now, hagain, hsame⟩ := furnished.found_again hleads
  refine ⟨now, ?_, hcheck, hagain⟩
  rcases hsame with rfl | rfl
  · exact hplain
  · rw [isPlain_withMode, hplain]

/-- **Making one directory** sets the bits of a file only where the path leads to one. -/
theorem furnished_makeOneDirectory
    (h : tree.makeOneDirectory v path mode = (ok, tree', journal)) (rooted : tree.Rooted)
    (start : tree.isDirectory v.cwd = true) :
    Furnished (mode &&& 0o7777)
      (fun place => ∃ entry : Entry, entry.isPlain = true ∧
        tree.stat v.cwd path = .ok (place, entry)) tree tree' ∧
      (tree.Bare v.cwd path → tree'.Bare v.cwd path) := by
  rcases makeOneDirectory_cases h with ⟨-, rfl⟩ | ⟨-, between, hmade, hset⟩
  · exact ⟨.refl _, id⟩
  have hbetween : Furnished (mode &&& 0o7777)
      (fun place => ∃ entry : Entry, entry.isPlain = true ∧
        tree.stat v.cwd path = .ok (place, entry)) tree between ∧
      (between.Bare v.cwd path ∨ between = tree) := by
    rcases hmade with hmade | ⟨-, rfl⟩
    · obtain ⟨hfurnished, hbare⟩ := furnished_makeDirectory rooted start hmade
      exact ⟨hfurnished, Or.inl hbare⟩
    · exact ⟨.refl _, Or.inr rfl⟩
  obtain ⟨hfurnished, hbare⟩ := hbetween
  rcases hset with ⟨rfl, -⟩ | hset
  · refine ⟨hfurnished, fun hbefore => ?_⟩
    rcases hbare with hbare | rfl
    · exact hbare
    · exact hbefore
  · rcases hbare with hbare | rfl
    · -- The directory is new, so the bits are its own.
      refine ⟨hfurnished.trans ((furnished_setMode hset).weaken ?_),
        fun _ => bare_setMode hset hbare⟩
      rintro place ⟨entry, hplain, hstat⟩
      have hdirectory := (hbare _ _ hstat).1
      cases entry <;> contradiction
    · exact ⟨furnished_setMode hset, fun hbefore => bare_setMode hset hbefore⟩

/-! ## All directories on a path -/

/-- **Making the directories on a path** adds directories and sets permission bits. The bits of
a file are set only if the path climbs, and if that is taken for success, the path is blocked
by this file. -/
theorem furnished_ensureDirectory
    (h : tree.ensureDirectory v path mode = (ok, tree', journal)) (rooted : tree.Rooted)
    (start : tree.isDirectory v.cwd = true) :
    Furnished (mode &&& 0o7777)
      (fun place => PathText.Climbs path ∧ (ok = true → tree'.Blocked v.cwd path place))
      tree tree' ∧
      (ok = true → ¬PathText.Climbs path → tree' = tree ∨ tree'.Bare v.cwd path) := by
  fun_induction ensureDirectory v tree path mode generalizing ok tree' journal with
  | case1 | case2 | case3 =>
      cases h
      exact ⟨.refl _, fun _ _ => Or.inl rfl⟩
  | case4 =>
      rename_i path _ _ hstat parent hparent _ between _ hfirst _ _ _ hlast ih
      cases h
      obtain ⟨hbefore, hbare⟩ := ih hfirst
      have habove := PathText.above_parentDirectory hparent.1 hparent.2
      have hrooted := hbefore.rooted rooted
      have hstart := hbefore.passes.isDirectory start
      obtain ⟨hafter, hstill⟩ := furnished_makeOneDirectory hlast hrooted hstart
      have hlevel (level : ¬PathText.Climbs path) : between.Bare v.cwd path := by
        rcases hbare rfl (fun hclimbs => level (habove.climbs hclimbs)) with rfl | hbare
        · exact bare_of_error hstat
        · exact hbare.longer habove level hrooted hstart
      -- What stood in the way of the parent stands in the way of the last directory, too.
      refine ⟨(hbefore.weaken ?_).trans (hafter.weaken ?_), ?_⟩
      · rintro place ⟨hclimbs, hblocked⟩
        refine ⟨habove.climbs hclimbs, ?_⟩
        rintro rfl
        rcases makeOneDirectory_cases hlast with ⟨hno, -⟩ | ⟨-, made, hmade, -⟩
        · contradiction
        · have hmade' : between.makeDirectory v path mode = .ok made ∨
              between.makeDirectory v path mode = .error .exists := hmade.imp_right And.left
          exact ((hblocked rfl).longer habove hmade' hrooted hstart).kept hafter
      · rintro place ⟨entry, hplain, hfile⟩
        constructor
        · -- Along a path that does not climb there is no file after the parent was made.
          by_contra level
          have hdirectory := (hlevel level _ _ hfile).1
          cases entry <;> contradiction
        · exact fun _ => (blocked_of_stat hfile hplain hrooted hstart).kept hafter
      · exact fun _ level => Or.inr (hstill (hlevel level))
  | case5 =>
      rename_i path _ _ _ parent hparent _ between _ hfirst ih
      cases h
      have habove := PathText.above_parentDirectory hparent.1 hparent.2
      refine ⟨(ih hfirst).1.weaken ?_, nofun⟩
      rintro place ⟨hclimbs, -⟩
      exact ⟨habove.climbs hclimbs, nofun⟩
  | case6 path _ _ hstat =>
      obtain ⟨hafter, hstill⟩ := furnished_makeOneDirectory h rooted start
      refine ⟨hafter.weaken ?_, fun _ _ => Or.inr (hstill (bare_of_error hstat))⟩
      rintro place ⟨entry, -, hfile⟩
      rw [hstat] at hfile
      contradiction

/-! ## Paths that do not climb -/

/-- Whatever stands in the first tree stands in the second as it is. -/
def Extends (tree tree' : FileTree) : Prop :=
  ∀ place entry, tree.get? place = some entry → tree'.get? place = some entry

theorem Extends.refl (tree : FileTree) : Extends tree tree := fun _ _ there => there

/-- A path leads to nothing that was in an earlier tree. -/
def NewTo (before tree : FileTree) (cwd : Place) (path : Bytes) : Prop :=
  ∀ place entry, tree.stat cwd path = .ok (place, entry) → before.get? place = none

section

variable {before between : FileTree}

theorem newTo_of_error {e : FileError} (h : tree.stat cwd path = .error e) :
    NewTo before tree cwd path := by
  intro place entry hstat
  rw [h] at hstat
  contradiction

/-- What a path leads to when the directories above it are there, its parent leads to, and that
was made. -/
theorem newTo_of_parent {e : FileError} (unfound : before.stat cwd path = .error e)
    (new : tree = before ∨ NewTo before tree cwd parent)
    (bare : tree = before ∨ tree.Bare cwd parent) (above : PathText.Above parent path)
    (level : ¬PathText.Climbs path) (rooted : tree.Rooted) (start : tree.isDirectory cwd = true) :
    NewTo before tree cwd path := by
  rcases new with rfl | new
  · exact newTo_of_error unfound
  rcases bare with rfl | bare
  · exact newTo_of_error unfound
  · intro place entry hleads
    exact new place entry (bare.shorter above level rooted start hleads)

theorem Extends.put (extended : Extends before tree) (new : before.get? place = none)
    (named : place ≠ []) (entry : Entry) : Extends before (tree.put place entry) := by
  intro other there hthere
  have hother : other ≠ place := by
    rintro rfl
    rw [new] at hthere
    contradiction
  rw [sameBut_put tree entry named other hother]
  exact extended other there hthere

theorem extends_makeDirectory (h : tree.makeDirectory v path mode = .ok tree')
    (extended : Extends before tree) : Extends before tree' ∧ NewTo before tree' v.cwd path := by
  obtain ⟨-, dir, name, ⟨hcheck, hleads⟩, rfl⟩ := makeDirectory_eq_ok.mp h
  have hnamed : dir ++ [name] ≠ [] := by simp
  have hfree := hleads.get?_free.2
  have hnew : before.get? (dir ++ [name]) = none := by
    by_contra hsome
    obtain ⟨entry, hentry⟩ := Option.ne_none_iff_exists'.mp hsome
    rw [extended _ _ hentry] at hfree
    contradiction
  refine ⟨extended.put hnew hnamed _, ?_⟩
  intro place entry hstat
  have hsame := sameBut_put tree (.directory (v.newMode (mode &&& 0o1777))) hnamed
  have happears := hleads.directory_appears
    (hsame.passes fun _ hsome => absurd (hfree.symm.trans hsome) nofun)
    (get?_put_here tree _ hnamed) (PathText.parse path).trailingSlash
  cases (stat_eq_ok.mp hstat).2.unique happears
  exact hnew

theorem extends_setMode (h : tree.setMode v path mode = .ok tree')
    (extended : Extends before tree) (new : NewTo before tree v.cwd path) :
    Extends before tree' ∧ NewTo before tree' v.cwd path := by
  have hfurnished := furnished_setMode h
  obtain ⟨place, entry, hreaches, rfl⟩ := setMode_eq_ok.mp h
  have hnew := new _ _ (stat_eq_ok.mpr hreaches)
  by_cases hroot : place = []
  · subst hroot
    contradiction
  · obtain ⟨again, hagain, -⟩ := hfurnished.found_again hreaches.2
    rw [if_neg (by simpa using hroot)] at hagain ⊢
    refine ⟨extended.put hnew hroot _, ?_⟩
    intro place' entry' hstat
    cases (stat_eq_ok.mp hstat).2.unique hagain
    exact hnew

theorem extends_makeOneDirectory (h : tree.makeOneDirectory v path mode = (ok, tree', journal))
    (extended : Extends before tree) (new : NewTo before tree v.cwd path) :
    Extends before tree' ∧ NewTo before tree' v.cwd path := by
  rcases makeOneDirectory_cases h with ⟨-, rfl⟩ | ⟨-, between, hmade, hset⟩
  · exact ⟨extended, new⟩
  have hbetween : Extends before between ∧ NewTo before between v.cwd path := by
    rcases hmade with hmade | ⟨-, rfl⟩
    · exact extends_makeDirectory hmade extended
    · exact ⟨extended, new⟩
  rcases hset with ⟨rfl, -⟩ | hset
  · exact hbetween
  · exact extends_setMode hset hbetween.1 hbetween.2

/-- **Along a path that does not climb** nothing that was there is changed. -/
theorem extends_ensureDirectory
    (h : tree.ensureDirectory v path mode = (ok, tree', journal)) (rooted : tree.Rooted)
    (start : tree.isDirectory v.cwd = true) (level : ¬PathText.Climbs path) :
    Extends tree tree' ∧ (ok = true → tree' = tree ∨ NewTo tree tree' v.cwd path) := by
  fun_induction ensureDirectory v tree path mode generalizing ok tree' journal with
  | case1 | case2 | case3 =>
      cases h
      exact ⟨.refl tree, fun _ => Or.inl rfl⟩
  | case4 =>
      rename_i path _ _ hstat parent hparent _ between _ hfirst _ _ _ hlast ih
      cases h
      have habove := PathText.above_parentDirectory hparent.1 hparent.2
      have hlevel : ¬PathText.Climbs parent := fun hclimbs => level (habove.climbs hclimbs)
      obtain ⟨hextended, hnew⟩ := ih hfirst hlevel
      obtain ⟨hfurnished, hbare⟩ := furnished_ensureDirectory hfirst rooted start
      have hnew' : NewTo tree between v.cwd path :=
        newTo_of_parent hstat (hnew rfl) (hbare rfl hlevel) habove level
          (hfurnished.rooted rooted) (hfurnished.passes.isDirectory start)
      obtain ⟨hafter, hlater⟩ := extends_makeOneDirectory hlast hextended hnew'
      exact ⟨hafter, fun _ => Or.inr hlater⟩
  | case5 =>
      rename_i path _ _ _ parent hparent _ between _ hfirst ih
      cases h
      have habove := PathText.above_parentDirectory hparent.1 hparent.2
      exact ⟨(ih hfirst fun hclimbs => level (habove.climbs hclimbs)).1, nofun⟩
  | case6 path _ _ hstat =>
      obtain ⟨hafter, hlater⟩ :=
        extends_makeOneDirectory h (.refl tree) (newTo_of_error hstat)
      exact ⟨hafter, fun _ => Or.inr hlater⟩

end

end FileTree

end SearchDaemon
