import Mathlib
import SearchDaemon.Finder
import SearchDaemon.Proofs.Below

/-!
# What a search finds

A search reports every entry below its directory that is, links followed, no directory and
whose name the pattern matches; it reports nothing else, nothing twice, and in bytewise order.
So two trees that show the same give the same list, in whatever order their directories list
what they hold.

A link is looked up by the text of its path. Behind a directory whose path holds a zero byte
that text leads elsewhere, and links to files are missed.
-/

namespace SearchDaemon

/-! ## Bytewise order -/

namespace Bytes

theorem before_iff {a b : Bytes} : before a b = true ↔ a ≤ b := by
  induction a generalizing b with
  | nil => simp [before]
  | cons x a ih =>
      cases b with
      | nil => simp [before]
      | cons y b =>
          rw [before, List.cons_le_cons_iff]
          by_cases hxy : x = y
          · subst hxy
            simp [ih]
          · simp [hxy]

theorem mem_sorted {names : List Bytes} {name : Bytes} : name ∈ sorted names ↔ name ∈ names :=
  (List.mergeSort_perm names before).mem_iff

/-- Sorting distinct strings puts them in strictly rising order. -/
theorem sorted_increasing {names : List Bytes} (distinct : names.Nodup) :
    (sorted names).Pairwise (· < ·) := by
  have hordered : (sorted names).Pairwise fun a b => before a b = true := by
    apply List.pairwise_mergeSort
    · intro a b c hab hbc
      exact before_iff.mpr (List.le_trans (before_iff.mp hab) (before_iff.mp hbc))
    · intro a b
      rw [Bool.or_eq_true, before_iff, before_iff]
      exact List.le_total a b
  have hdistinct : (sorted names).Nodup :=
    (List.mergeSort_perm names before).nodup_iff.mpr distinct
  refine (hordered.and hdistinct).imp ?_
  rintro a b ⟨hle, hne⟩
  exact Std.lt_of_le_of_ne (before_iff.mp hle) hne

end Bytes

/-! ## What a directory holds -/

namespace FileTree

variable {tree : FileTree} {dir place : Place} {name : Bytes} {entry : Entry}

theorem mem_entries_iff (sound : tree.WellFormed) (hplace : place ≠ []) :
    (place, entry) ∈ tree.entries ↔ tree.get? place = some entry := by
  rw [get?_of_ne_nil hplace, List.lookup_eq_some_iff]
  constructor
  · intro hmem
    obtain ⟨front, back, heq⟩ := List.append_of_mem hmem
    refine ⟨front, back, heq, ?_⟩
    have hdistinct := sound.distinct
    rw [heq, List.map_append, List.map_cons, List.nodup_append] at hdistinct
    intro p hp
    have hne := hdistinct.2.2 p.1 (List.mem_map_of_mem hp) place List.mem_cons_self
    simpa using Ne.symm hne
  · rintro ⟨front, back, heq, -⟩
    rw [heq]
    simp

/-- The line of a listing that an entry of the tree gives. -/
theorem childOf_eq_some {spot : Place} {found : Entry} :
    (match spot.getLast? with
      | some last => if spot.dropLast = dir then some (last, found) else none
      | none => none) = some (name, entry) ↔ spot = dir ++ [name] ∧ found = entry := by
  constructor
  · intro h
    split at h
    · rename_i last hlast
      split at h
      · rename_i hdir
        cases h
        obtain ⟨front, rfl⟩ := List.getLast?_eq_some_iff.mp hlast
        rw [List.dropLast_concat] at hdir
        rw [hdir]
        exact ⟨rfl, rfl⟩
      · contradiction
    · contradiction
  · rintro ⟨rfl, rfl⟩
    simp

theorem mem_children_iff (sound : tree.WellFormed) :
    (name, entry) ∈ tree.children dir ↔ tree.get? (dir ++ [name]) = some entry := by
  rw [children, List.mem_filterMap, ← mem_entries_iff sound (by simp)]
  constructor
  · rintro ⟨⟨spot, found⟩, hmem, hchild⟩
    obtain ⟨rfl, rfl⟩ := childOf_eq_some.mp hchild
    exact hmem
  · intro hmem
    exact ⟨_, hmem, childOf_eq_some.mpr ⟨rfl, rfl⟩⟩

/-- A directory lists no name twice. -/
theorem children_distinct (sound : tree.WellFormed) :
    (tree.children dir).Pairwise fun a b => a.1 ≠ b.1 := by
  have hplaces : tree.entries.Pairwise fun a b => a.1 ≠ b.1 := List.pairwise_map.mp sound.distinct
  rw [children, List.pairwise_filterMap]
  refine hplaces.imp ?_
  rintro ⟨spot, found⟩ ⟨spot', found'⟩ hne ⟨name, entry⟩ hchild ⟨name', entry'⟩ hchild' hnames
  obtain ⟨rfl, -⟩ := childOf_eq_some.mp hchild
  obtain ⟨rfl, -⟩ := childOf_eq_some.mp hchild'
  exact hne (congrArg (fun n => dir ++ [n]) hnames)

end FileTree

/-! ## The walk -/

namespace Finder

open PathText (IsName pathBelow)
open FileTree (Below)

variable {tree tree' : FileTree} {cwd place : Place} {wanted : Bytes → Bool} {depth : Nat}
  {shown path name dir : Bytes} {names : List Bytes} {entry target : Entry} {pattern : Pattern}

/-- What an entry shown under a path turns out to be: a link what its path leads to, and
anything else itself. -/
inductive TurnsOut (tree : FileTree) (cwd : Place) (path : Bytes) : Entry → Entry → Prop
  | itself {entry : Entry} : (∀ goal, entry ≠ .link goal) → TurnsOut tree cwd path entry entry
  | followed {goal : Bytes} {place : Place} {target : Entry} :
      tree.stat cwd path = .ok (place, target) → TurnsOut tree cwd path (.link goal) target

theorem isReported_link {goal : Bytes} :
    isReported tree cwd path (.link goal) = true ↔
      ∃ place target, tree.stat cwd path = .ok (place, target) ∧ target.isDirectory = false := by
  cases hstat : tree.stat cwd path with
  | error e => simp [isReported, resolved?, hstat, Except.toOption]
  | ok found =>
      obtain ⟨place, target⟩ := found
      simp [isReported, resolved?, hstat, Except.toOption]

theorem isReported_plain (plain : ∀ goal, entry ≠ .link goal) :
    isReported tree cwd path entry = !entry.isDirectory := by
  cases entry with
  | link goal => exact absurd rfl (plain goal)
  | _ => rfl

theorem isReported_iff :
    isReported tree cwd path entry = true ↔
      ∃ target, TurnsOut tree cwd path entry target ∧ target.isDirectory = false := by
  by_cases hlink : ∃ goal, entry = .link goal
  · obtain ⟨goal, rfl⟩ := hlink
    rw [isReported_link]
    constructor
    · rintro ⟨place, target, hstat, hfile⟩
      exact ⟨target, .followed hstat, hfile⟩
    · rintro ⟨target, hturns, hfile⟩
      cases hturns with
      | itself hplain => exact absurd rfl (hplain goal)
      | followed hstat => exact ⟨_, target, hstat, hfile⟩
  · have hplain : ∀ goal, entry ≠ .link goal := fun goal h => hlink ⟨goal, h⟩
    rw [isReported_plain hplain, Bool.not_eq_true']
    constructor
    · intro hfile
      exact ⟨entry, .itself hplain, hfile⟩
    · rintro ⟨target, hturns, hfile⟩
      cases hturns with
      | itself => exact hfile
      | followed => exact absurd rfl (hplain _)

theorem join_eq (given : shown ≠ []) : join shown name = pathBelow shown [name] := by
  have hgiven : shown.isEmpty = false := by simpa using given
  rw [join, pathBelow, hgiven, Bool.false_or]
  by_cases hslash : shown.getLast? = some 47
  · simp [hslash, FileTree.joinNames]
  · simp [hslash, FileTree.joinNames]

theorem join_ne_nil (legal : IsName name) : join shown name ≠ [] := by
  have hname := legal.nonempty
  rw [join]
  split <;> simp [hname]

/-- Going on below a name is going on by that name and what is below it. -/
theorem pathBelow_join (given : shown ≠ []) (legal : IsName name) (some : names ≠ []) :
    pathBelow (join shown name) names = pathBelow shown (name :: names) := by
  have hend : (join shown name).getLast? ≠ Option.some 47 := by
    have hlegal : ∀ n ∈ [name], IsName n := by simpa using legal
    obtain ⟨front, b, hname, hb⟩ := PathText.joinNames_last hlegal (List.cons_ne_nil _ _)
    rw [join_eq given, pathBelow, hname, ← List.append_assoc, List.getLast?_concat]
    simpa using hb
  have hcons : FileTree.joinNames (name :: names) = name ++ 47 :: FileTree.joinNames names := by
    obtain ⟨next, rest, rfl⟩ := List.exists_cons_of_ne_nil some
    rw [FileTree.joinNames]
    exact fun h => absurd h (List.cons_ne_nil _ _)
  rw [pathBelow, if_neg hend, join_eq given, pathBelow, pathBelow, hcons, List.append_assoc,
    List.append_assoc]
  rfl

/-- These names lead from a directory to an entry that a search reports under this path: links
followed, the entry is no directory, and its own name is wanted. -/
def Reported (tree : FileTree) (cwd : Place) (wanted : Bytes → Bool) (dir : Place)
    (shown path : Bytes) (names : List Bytes) : Prop :=
  path = pathBelow shown names ∧
    ∃ entry target last, tree.Below dir names entry ∧ TurnsOut tree cwd path entry target ∧
      target.isDirectory = false ∧ names.getLast? = some last ∧ wanted last = true

theorem Reported.ne_nil (h : Reported tree cwd wanted place shown path names) : names ≠ [] := by
  obtain ⟨-, _, _, _, hbelow, -⟩ := h
  exact hbelow.ne_nil

theorem Reported.legal (h : Reported tree cwd wanted place shown path names)
    (named : tree.Named) : ∀ n ∈ names, IsName n := by
  obtain ⟨-, _, _, _, hbelow, -⟩ := h
  exact hbelow.legal named

theorem Reported.length_le (h : Reported tree cwd wanted place shown path names) :
    names.length ≤ tree.entries.length := by
  obtain ⟨-, _, _, _, hbelow, -⟩ := h
  exact hbelow.length_le

theorem reported_child (given : shown ≠ []) (here : tree.get? (place ++ [name]) = some entry)
    (reported : isReported tree cwd (join shown name) entry = true) (want : wanted name = true) :
    Reported tree cwd wanted place shown (join shown name) [name] := by
  obtain ⟨target, hturns, hfile⟩ := isReported_iff.mp reported
  exact ⟨join_eq given, entry, target, name, .child here, hturns, hfile, rfl, want⟩

theorem reported_deeper {mode : Nat} (given : shown ≠ []) (legal : IsName name)
    (here : tree.get? (place ++ [name]) = some (.directory mode))
    (h : Reported tree cwd wanted (place ++ [name]) (join shown name) path names) :
    Reported tree cwd wanted place shown path (name :: names) := by
  obtain ⟨hpath, entry, target, last, hbelow, hturns, hfile, hlast, hwanted⟩ := h
  have hsome := hbelow.ne_nil
  refine ⟨?_, entry, target, last, .deeper here hbelow, hturns, hfile, ?_, hwanted⟩
  · rw [hpath, pathBelow_join given legal hsome]
  · rw [List.getLast?_cons_of_ne_nil hsome, hlast]

/-- What is reported below a directory stands in it or is reported below one of the directories
in it. -/
theorem Reported.cases (h : Reported tree cwd wanted place shown path names)
    (named : tree.Named) (given : shown ≠ []) :
    (∃ name entry, names = [name] ∧ tree.get? (place ++ [name]) = some entry ∧
        path = join shown name ∧ isReported tree cwd path entry = true ∧ wanted name = true) ∨
      ∃ name mode rest, names = name :: rest ∧
        tree.get? (place ++ [name]) = some (.directory mode) ∧
        Reported tree cwd wanted (place ++ [name]) (join shown name) path rest := by
  obtain ⟨hpath, entry, target, last, hbelow, hturns, hfile, hlast, hwanted⟩ := h
  cases hbelow with
  | @child _ name _ hentry =>
      have hname : name = last := Option.some.inj hlast
      subst hname
      exact .inl ⟨name, entry, rfl, hentry, hpath.trans (join_eq given).symm,
        isReported_iff.mpr ⟨target, hturns, hfile⟩, hwanted⟩
  | @deeper _ name mode rest _ hdirectory hbelow =>
      have hsome := hbelow.ne_nil
      have hname : IsName name := named _ _ hdirectory name (by simp)
      refine .inr ⟨name, mode, rest, rfl, hdirectory, ?_, entry, target, last, hbelow, hturns,
        hfile, ?_, hwanted⟩
      · rw [hpath, pathBelow_join given hname hsome]
      · rw [← hlast, List.getLast?_cons_of_ne_nil hsome]

/-- What a walk lists for one child of the directory. -/
theorem mem_walk_child :
    path ∈ (if isReported tree cwd (join shown name) entry && wanted name then [join shown name]
        else []) ++
        (if entry.isDirectory then walk tree cwd wanted depth (place ++ [name]) (join shown name)
          else []) ↔
      (path = join shown name ∧ isReported tree cwd path entry = true ∧ wanted name = true) ∨
        ((∃ mode, entry = .directory mode) ∧
          path ∈ walk tree cwd wanted depth (place ++ [name]) (join shown name)) := by
  have hkind : entry.isDirectory = true ↔ ∃ mode, entry = .directory mode := by
    cases entry <;> simp [Entry.isDirectory]
  rw [List.mem_append, ← hkind]
  refine or_congr ?_ ?_
  · rw [List.mem_ite_nil_right, List.mem_singleton, Bool.and_eq_true]
    constructor
    · rintro ⟨hreported, rfl⟩
      exact ⟨rfl, hreported⟩
    · rintro ⟨rfl, hreported⟩
      exact ⟨hreported, rfl⟩
  · rw [List.mem_ite_nil_right]

/-- A walk lists what it comes to within its depth. -/
theorem mem_walk_iff (sound : tree.WellFormed) (named : tree.Named) (given : shown ≠ []) :
    path ∈ walk tree cwd wanted depth place shown ↔
      ∃ names, names.length ≤ depth ∧ Reported tree cwd wanted place shown path names := by
  induction depth generalizing place shown with
  | zero =>
      constructor
      · exact nofun
      · rintro ⟨names, hlength, hreported⟩
        exact absurd (List.length_eq_zero_iff.mp (Nat.le_zero.mp hlength)) hreported.ne_nil
  | succ depth ih =>
      rw [walk, List.mem_flatMap]
      constructor
      · rintro ⟨⟨name, entry⟩, hchild, hmem⟩
        have hentry := (FileTree.mem_children_iff sound).mp hchild
        have hname : IsName name := named _ _ hentry name (by simp)
        obtain ⟨rfl, hreported, hwanted⟩ | ⟨⟨mode, rfl⟩, hdeeper⟩ := mem_walk_child.mp hmem
        · exact ⟨[name], by simp, reported_child given hentry hreported hwanted⟩
        · obtain ⟨names, hlength, hreported⟩ := (ih (join_ne_nil hname)).mp hdeeper
          exact ⟨name :: names, by simpa using hlength,
            reported_deeper given hname hentry hreported⟩
      · rintro ⟨names, hlength, hreported⟩
        obtain ⟨name, entry, rfl, hentry, hhere⟩ | ⟨name, mode, rest, rfl, hentry, hdeeper⟩ :=
          hreported.cases named given
        · exact ⟨(name, entry), (FileTree.mem_children_iff sound).mpr hentry,
            mem_walk_child.mpr (.inl hhere)⟩
        · have hname : IsName name := named _ _ hentry name (by simp)
          refine ⟨(name, .directory mode), (FileTree.mem_children_iff sound).mpr hentry, ?_⟩
          refine mem_walk_child.mpr (.inr ⟨⟨mode, rfl⟩, (ih (join_ne_nil hname)).mpr ?_⟩)
          exact ⟨rest, by simpa using hlength, hdeeper⟩

/-- The names behind a path that a walk lists below one child. -/
theorem mem_walk_below {mode : Nat} (sound : tree.WellFormed) (named : tree.Named)
    (given : shown ≠ []) (here : tree.get? (place ++ [name]) = some (.directory mode))
    (h : path ∈ walk tree cwd wanted depth (place ++ [name]) (join shown name)) :
    ∃ rest, rest ≠ [] ∧ (∀ n ∈ name :: rest, IsName n) ∧ path = pathBelow shown (name :: rest) := by
  have hname : IsName name := named _ _ here name (by simp)
  obtain ⟨rest, -, hreported⟩ := (mem_walk_iff sound named (join_ne_nil hname)).mp h
  have hwhole := reported_deeper given hname here hreported
  exact ⟨rest, hreported.ne_nil, hwhole.legal named, hwhole.1⟩

/-- A walk lists nothing twice. -/
theorem nodup_walk (sound : tree.WellFormed) (named : tree.Named) (given : shown ≠ []) :
    (walk tree cwd wanted depth place shown).Nodup := by
  induction depth generalizing place shown with
  | zero => exact List.nodup_nil
  | succ depth ih =>
      rw [walk, List.nodup_flatMap]
      -- Where a path of one child comes from: it goes by that child's name.
      have hby {name : Bytes} {entry : Entry} {path : Bytes}
          (hentry : tree.get? (place ++ [name]) = some entry)
          (hpath : (path = join shown name ∧ isReported tree cwd path entry = true ∧
              wanted name = true) ∨
            ((∃ mode, entry = .directory mode) ∧
              path ∈ walk tree cwd wanted depth (place ++ [name]) (join shown name))) :
          ∃ rest, (∀ n ∈ name :: rest, IsName n) ∧ path = pathBelow shown (name :: rest) := by
        have hname : IsName name := named _ _ hentry name (by simp)
        obtain ⟨rfl, -⟩ | ⟨⟨mode, rfl⟩, hdeeper⟩ := hpath
        · exact ⟨[], by simpa using hname, join_eq given⟩
        · obtain ⟨rest, -, hlegal, hpath⟩ := mem_walk_below sound named given hentry hdeeper
          exact ⟨rest, hlegal, hpath⟩
      constructor
      · rintro ⟨name, entry⟩ hchild
        have hentry := (FileTree.mem_children_iff sound).mp hchild
        have hname : IsName name := named _ _ hentry name (by simp)
        refine List.Nodup.append ?_ ?_ ?_
        · split <;> simp
        · split
          · exact ih (join_ne_nil hname)
          · exact List.nodup_nil
        · intro path hhere hdeeper
          rw [List.mem_ite_nil_right, List.mem_singleton] at hhere
          rw [List.mem_ite_nil_right] at hdeeper
          obtain ⟨mode, rfl⟩ : ∃ mode, entry = .directory mode := by
            cases entry <;> simp_all [Entry.isDirectory]
          obtain ⟨rest, hsome, hlegal, hpath⟩ :=
            mem_walk_below sound named given hentry hdeeper.2
          rw [hhere.2, join_eq given] at hpath
          have hnames := PathText.pathBelow_inj (by simpa using hname) hlegal hpath
          exact hsome (List.cons.inj hnames).2.symm
      · refine (FileTree.children_distinct sound).imp_of_mem ?_
        rintro ⟨name, entry⟩ ⟨name', entry'⟩ hchild hchild' hne path hmem hmem'
        have hentry := (FileTree.mem_children_iff sound).mp hchild
        have hentry' := (FileTree.mem_children_iff sound).mp hchild'
        obtain ⟨rest, hlegal, hpath⟩ := hby hentry (mem_walk_child.mp hmem)
        obtain ⟨rest', hlegal', hpath'⟩ := hby hentry' (mem_walk_child.mp hmem')
        have hnames := PathText.pathBelow_inj hlegal hlegal' (hpath.symm.trans hpath')
        exact hne (List.cons.inj hnames).1

/-! ## The result of a search -/

theorem find_eq_none_iff :
    find tree cwd pattern dir = none ↔
      ¬∃ place mode, tree.stat cwd dir = .ok (place, .directory mode) := by
  rw [find]
  split
  · rename_i place mode hstat
    simpa using ⟨place, mode, hstat⟩
  · rename_i hno
    simpa using fun place mode hstat => hno place mode hstat

/-- What a search lists, and how. -/
theorem find_of_stat (pattern : Pattern) {mode : Nat} (sound : tree.WellFormed) (named : tree.Named)
    (there : tree.stat cwd dir = .ok (place, .directory mode)) :
    ∃ files, find tree cwd pattern dir = some files ∧ files.Pairwise (· < ·) ∧
      ∀ path, path ∈ files ↔
        ∃ names, Reported tree cwd pattern.occursIn place dir path names := by
  have hgiven : dir ≠ [] := by
    rintro rfl
    have hcheck := (FileTree.stat_eq_ok.mp there).1
    exact absurd (PathText.check_eq_ok.mp hcheck).1 (Nat.lt_irrefl 0)
  refine ⟨_, by rw [find, there], Bytes.sorted_increasing (nodup_walk sound named hgiven), ?_⟩
  intro path
  rw [Bytes.mem_sorted, mem_walk_iff sound named hgiven]
  constructor
  · rintro ⟨names, -, hreported⟩
    exact ⟨names, hreported⟩
  · rintro ⟨names, hreported⟩
    exact ⟨names, Nat.le_succ_of_le hreported.length_le, hreported⟩

theorem Reported.same (h : Reported tree cwd wanted place shown path names)
    (same : FileTree.Same tree tree') : Reported tree' cwd wanted place shown path names := by
  obtain ⟨hpath, entry, target, last, hbelow, hturns, hend⟩ := h
  refine ⟨hpath, entry, target, last, hbelow.same same, ?_, hend⟩
  cases hturns with
  | itself hplain => exact .itself hplain
  | followed hstat => exact .followed (FileTree.stat_same hstat same)

/-- **A search reports exactly the files below its directory, in strictly rising order.** It
fails if the directory's path leads to no directory. Otherwise it lists the paths, behind the
directory's own text, of the entries that real directories lead down to, that are no directory
once links are followed, and whose last name the pattern matches. Each such path, unless too
long to be looked up, is one of the entry it stands for. A tree that shows the same, in whatever
order it lists its directories, gives the same. -/
theorem search_reports_exactly (pattern : Pattern) (sound : tree.WellFormed)
    (named : tree.Named) (clear : (0 : UInt8) ∉ dir) :
    (find tree cwd pattern dir = none ↔
      ¬∃ place mode, tree.stat cwd dir = .ok (place, .directory mode)) ∧
    ∀ place mode, tree.stat cwd dir = .ok (place, .directory mode) →
      ∃ files, find tree cwd pattern dir = some files ∧ files.Pairwise (· < ·) ∧
        (∀ path, path ∈ files ↔
          ∃ names, Reported tree cwd pattern.occursIn place dir path names) ∧
        (∀ names entry, tree.Below place names entry →
          (pathBelow dir names).length < PathText.pathLimit →
          tree.stat cwd (pathBelow dir names) false = .ok (place ++ names, entry)) ∧
        ∀ tree' : FileTree, tree'.WellFormed → FileTree.Same tree tree' →
          find tree' cwd pattern dir = some files := by
  refine ⟨find_eq_none_iff, ?_⟩
  intro place mode hstat
  obtain ⟨files, hfind, hrising, hmem⟩ := find_of_stat pattern sound named hstat
  refine ⟨files, hfind, hrising, hmem, fun names entry hbelow => hbelow.stat named hstat clear, ?_⟩
  intro tree' sound' same
  have named' : tree'.Named := fun place entry h => named place entry ((same place).trans h)
  obtain ⟨files', hfind', hrising', hmem'⟩ :=
    find_of_stat pattern sound' named' (FileTree.stat_same hstat same)
  have hmembers : ∀ path, path ∈ files ↔ path ∈ files' := by
    intro path
    rw [hmem, hmem']
    constructor
    · rintro ⟨names, hreported⟩
      exact ⟨names, hreported.same same⟩
    · rintro ⟨names, hreported⟩
      exact ⟨names, hreported.same fun place => (same place).symm⟩
  rw [hfind', hrising.eq_of_mem_iff hrising' hmembers]

/-- A directory with a file in it and a link to the file. -/
private def linked : FileTree :=
  ⟨[([text "d"], .directory 0o755), ([text "d", text "f"], .file 0o644 []),
    ([text "d", text "l"], .link (text "f"))]⟩

/-- The pattern that matches every name. -/
private def anyName : Pattern := { root := .empty, groups := 1, loops := 0 }

private theorem anyName_occursIn (name : Bytes) : anyName.occursIn name = true := by
  cases name <;>
    simp [anyName, Pattern.occursIn, Pattern.searchFrom, Pattern.solve, Pattern.Outcome.isMatch]

private theorem linked_sound : linked.WellFormed := ⟨by decide, by decide, by decide⟩

private theorem linked_named : linked.Named := FileTree.named_of_entries (by decide)

theorem search_reports_exactly_link_to_file :
    linked.WellFormed ∧ linked.Named ∧ (0 : UInt8) ∉ text "d" ∧
      linked.stat [] (text "d") = .ok ([text "d"], .directory 0o755) ∧
      ∃ files, find linked [] anyName (text "d") = some files ∧ files.Pairwise (· < ·) ∧
        text "d/l" ∈ files := by
  have hclear : (0 : UInt8) ∉ text "d" := by decide
  have hstat : linked.stat [] (text "d") = .ok ([text "d"], .directory 0o755) := by
    cbv
  obtain ⟨files, hfind, hrising, hmem, -⟩ :=
    (search_reports_exactly anyName linked_sound linked_named hclear).2 _ _ hstat
  have hlink : linked.stat [] (text "d/l") = .ok ([text "d", text "f"], .file 0o644 []) := by
    cbv
  refine ⟨linked_sound, linked_named, hclear, hstat, files, hfind, hrising, (hmem _).mpr ?_⟩
  exact ⟨[text "l"], by decide, .link (text "f"), .file 0o644 [], text "l", .child (by decide),
    .followed hlink, rfl, rfl, anyName_occursIn _⟩

/-- Behind a directory whose path holds a zero byte a link to a file is missed, although the path
leads to the directory and the link to the file: the text that the link is looked up by ends
at the zero byte. -/
theorem search_misses_link_behind_zero :
    linked.stat [] (text "d" ++ [0]) = .ok ([text "d"], .directory 0o755) ∧
      linked.Below [text "d"] [text "l"] (.link (text "f")) ∧
      linked.stat [text "d"] (text "l") = .ok ([text "d", text "f"], .file 0o644 []) ∧
      anyName.occursIn (text "l") = true ∧
      ∃ files, find linked [] anyName (text "d" ++ [0]) = some files ∧
        pathBelow (text "d" ++ [0]) [text "l"] ∉ files := by
  have hstat : linked.stat [] (text "d" ++ [0]) = .ok ([text "d"], .directory 0o755) := by
    cbv
  refine ⟨hstat, .child (by decide), by cbv, anyName_occursIn _, ?_⟩
  obtain ⟨files, hfind, -, hmem⟩ :=
    find_of_stat anyName linked_sound linked_named hstat
  refine ⟨files, hfind, ?_⟩
  rw [hmem]
  rintro ⟨names, hreported⟩
  have hlegal : ∀ n ∈ [text "l"], IsName n := by decide
  have hnames := PathText.pathBelow_inj (hreported.legal linked_named) hlegal hreported.1.symm
  subst hnames
  obtain ⟨-, entry, target, last, hbelow, hturns, hfile, -⟩ := hreported
  have hentry := hbelow.get?
  have hlink : linked.get? ([text "d"] ++ [text "l"]) = some (.link (text "f")) := by decide
  rw [hlink] at hentry
  cases hentry
  have hcut : linked.stat [] (pathBelow (text "d" ++ [0]) [text "l"]) =
      .ok ([text "d"], .directory 0o755) := by
    cbv
  cases hturns with
  | itself hplain => exact hplain _ rfl
  | followed hfollow =>
      rw [hcut] at hfollow
      cases hfollow
      contradiction

end Finder

end SearchDaemon
