import Mathlib
import SearchDaemon.Proofs.Below

/-!
# What becomes of a path whose directories are made

`ensureDirectory` takes a name that it finds taken for a directory, and sets the bits of
whatever the path leads to then. So a success is one, unless the last name of the path stands
for a file, a pipe, a socket or a link that leads to no directory; and what was there before is
left as it is, but for the bits of what a part of the path comes back to by two dots. Both are
proved along the recursion, from what `MadeOne` says of one directory.
-/

namespace SearchDaemon

namespace PathText

variable {path : Bytes}

/-- A path, or that of a directory which has to be there first. -/
inductive Part : Bytes → Bytes → Prop
  | whole (path : Bytes) : Part path path
  | above {part path : Bytes} : parentDirectory path ≠ [46] → parentDirectory path ≠ [47] →
      Part part (parentDirectory path) → Part part path

/-- The last byte of a path that asks for a directory is a slash. -/
theorem last_eq_nil_of_asked {front last : Bytes} (noSlash : (47 : UInt8) ∉ last)
    (text : path.untilZero = front ++ 47 :: last) (asked : (parse path).trailingSlash = true) :
    last = [] := by
  have hend : (front ++ 47 :: last).getLast? = some 47 := by
    rw [← text]
    simpa [parse] using asked
  by_contra hne
  obtain ⟨init, b, rfl⟩ := (List.eq_nil_or_concat last).resolve_left hne
  rw [List.concat_eq_append, ← List.cons_append, ← List.append_assoc,
    List.getLast?_concat] at hend
  cases hend
  exact noSlash (by simp)

/-- A slash at its end is all that a path has and its parent directory has not. -/
theorem names_parentDirectory_of_asked (hdot : parentDirectory path ≠ [46])
    (hroot : parentDirectory path ≠ [47]) (asked : (parse path).trailingSlash = true) :
    (parse path).names = (parse (parentDirectory path)).names := by
  rcases parent_text hdot hroot with hsame | ⟨last, hlast, -, hparent, hpath⟩
  · simp only [parse, hsame]
  · cases last_eq_nil_of_asked hlast hpath asked
    have hempty : splitNames [] = [] := rfl
    simp only [parse, hparent, hpath, splitNames_append, hempty, List.append_nil]

/-- No path with a slash at its end names something in the directory of the process or in the
root without naming a part before. -/
theorem not_endsInName_of_asked
    (top : parentDirectory path = [46] ∨ parentDirectory path = [47])
    (asked : (parse path).trailingSlash = true) : ¬EndsInName path := by
  have hslash : (47 : UInt8) ∈ path := by
    have hend : path.untilZero.getLast? = some 47 := by simpa [parse] using asked
    exact (List.takeWhile_sublist _).subset (List.mem_of_getLast? hend)
  obtain ⟨front, last, rfl, hlast, hparent⟩ := parentDirectory_of_slash hslash
  have hfront : front = [] ∨ front = [46] ∨ front = [47] := by
    rw [hparent] at top
    split at top
    · rename_i hempty
      exact Or.inl (by simpa using hempty)
    · exact Or.inr top
  have htext : (front ++ 47 :: last).untilZero = front ++ 47 :: Bytes.untilZero last := by
    rw [untilZero_append, if_neg]
    rcases hfront with rfl | rfl | rfl <;> decide
  have hempty := last_eq_nil_of_asked (not_mem_untilZero hlast) htext asked
  rintro ⟨name, hname, hproper⟩
  simp only [parse, htext, hempty] at hname
  rcases hfront with rfl | rfl | rfl
  · contradiction
  · cases hname
    exact hproper.1 rfl
  · contradiction

end PathText

namespace FileTree

variable {tree tree' : FileTree} {v : Vantage} {cwd dir place : Place} {path : Bytes}
  {names : List Bytes} {entry : Entry} {mode links : Nat} {ok follow slash : Bool}
  {journal : Log.Journal}

/-! ## Ends of walks -/

/-- A directory is found whether the path asks for one or not. -/
theorem Leads.directory_asked {bits : Nat}
    (h : Leads tree follow links dir names slash (.found place (.directory bits)))
    (slash' : Bool) : Leads tree true links dir names slash' (.found place (.directory bits)) := by
  generalize htarget : Target.found place (.directory bits) = target at h
  induction h generalizing slash' with
  | here hentry => exact .here hentry
  | stay _ ih => exact .stay (ih slash' htarget)
  | up _ ih => exact .up (ih slash' htarget)
  | plain _ _ hplain =>
      cases htarget
      contradiction
  | into proper hentry _ ih => exact .into proper hentry (ih slash' htarget)
  | through proper hentry _ _ ih => exact .through proper hentry (by simp) (ih _ htarget)
  | free => contradiction
  | link => cases htarget

/-- A path leads to a directory, links followed. -/
def LeadsToDirectory (tree : FileTree) (cwd : Place) (path : Bytes) : Prop :=
  ∃ place bits, tree.stat cwd path = .ok (place, .directory bits)

/-- The last name of a path stands for something that is no directory. A link under that name
is the entry itself. -/
structure Taken (tree : FileTree) (cwd : Place) (path : Bytes) (place : Place) (entry : Entry) :
    Prop where
  file : entry.isDirectory = false
  named : PathText.EndsInName path
  reaches : tree.Reaches cwd false path false (.found place entry)

section

variable (rooted : tree.Rooted)
include rooted

/-- A path that ends in no name leads to a directory, if it leads anywhere. -/
theorem leadsToDirectory_of_unnamed (start : tree.isDirectory cwd = true)
    (h : tree.locateName cwd path = .ok .unnamed) :
    tree.LeadsToDirectory cwd path := by
  have hstart : tree.isDirectory (origin cwd path) = true := isDirectory_cwd start
  obtain ⟨⟨⟩, hcheck, h⟩ := bind_eq_ok.mp h
  rcases List.eq_nil_or_concat (PathText.parse path).names with hnil | ⟨names, last, hnames⟩
  · obtain ⟨bits, hdirectory⟩ := isDirectory_iff.mp hstart
    refine ⟨origin cwd path, bits, stat_eq_ok.mpr ⟨hcheck, ?_⟩⟩
    rw [hnil]
    exact .here hdirectory
  · rw [List.concat_eq_append] at hnames
    simp only [hnames, List.getLast?_concat, List.dropLast_concat] at h
    split at h
    · rename_i hdots
      obtain ⟨target, hwalk, htarget⟩ := bind_eq_ok.mp h
      cases target with
      | free => contradiction
      | found place entry =>
          -- The names before the dots were asked to lead to a directory.
          have hleads := walk_eq_ok.mp hwalk
          have hdirectory : entry.isDirectory = true := by
            by_contra hfile
            exact absurd (hleads.file_unasked (Bool.eq_false_iff.mpr hfile) rooted hstart)
              (by decide)
          cases entry with
          | directory bits =>
              have hentry := hleads.get?_found
              obtain ⟨bits', habove⟩ := isDirectory_iff.mp (rooted _ _ hentry)
              rcases hdots with rfl | rfl
              · refine ⟨place, bits, stat_eq_ok.mpr ⟨hcheck, ?_⟩⟩
                rw [hnames]
                exact hleads.onward (List.cons_ne_nil _ _) fun _ => .stay (.here hentry)
              · refine ⟨place.dropLast, bits', stat_eq_ok.mpr ⟨hcheck, ?_⟩⟩
                rw [hnames]
                exact hleads.onward (List.cons_ne_nil _ _) fun _ => .up (.here habove)
          | _ => contradiction
    · obtain ⟨target, -, htarget⟩ := bind_eq_ok.mp h
      cases target <;> cases htarget

/-- Where a directory cannot be made because there is something, there is a directory, or the
name is taken. -/
theorem taken_of_exists (start : tree.isDirectory v.cwd = true)
    (h : tree.makeDirectory v path mode = .error .exists) :
    tree.LeadsToDirectory v.cwd path ∨ ∃ place entry, tree.Taken v.cwd path place entry := by
  rcases bind_eq_error.mp h with hlocate | ⟨slot, hslot, h⟩
  · exact absurd rfl (locateName_error hlocate)
  cases slot with
  | unnamed => exact Or.inl (leadsToDirectory_of_unnamed rooted start hslot)
  | free => contradiction
  | found place entry slash =>
      obtain ⟨hnamed, -, hcheck, hleads⟩ := locateName_found.mp hslot
      cases entry with
      | directory bits =>
          exact Or.inl ⟨place, bits, stat_eq_ok.mpr ⟨hcheck, hleads.directory_asked _⟩⟩
      | _ => exact Or.inr ⟨place, _, rfl, hnamed, hcheck, hleads⟩

end

/-! ## One directory -/

theorem put_put (tree : FileTree) (place : Place) (first second : Entry) :
    (tree.put place first).put place second = tree.put place second := by
  simp [put, List.filter_filter]

/-- A path leads to the same place when directories are added and bits are set. -/
theorem Furnished.stat {bits : Nat} {touched : Place → Prop}
    (furnished : Furnished bits touched tree tree')
    (h : tree.stat cwd path follow = .ok (place, entry)) :
    ∃ now, tree'.stat cwd path follow = .ok (place, now) ∧
      (now = entry ∨ now = entry.withMode bits) := by
  obtain ⟨hcheck, hleads⟩ := stat_eq_ok.mp h
  obtain ⟨now, hagain, hsame⟩ := furnished.found_again hleads
  exact ⟨now, stat_eq_ok.mpr ⟨hcheck, hagain⟩, hsame⟩

theorem setMode_of_stat (mode : Nat) (h : tree.stat v.cwd path = .ok (place, entry)) :
    tree.setMode v path mode =
      .ok (if place.isEmpty then tree else tree.put place (entry.withMode (mode &&& 0o7777))) :=
  setMode_eq_ok.mpr ⟨place, entry, stat_eq_ok.mp h, rfl⟩

/-- What the making of one directory comes to. -/
inductive MadeOne (v : Vantage) (path : Bytes) (mode : Nat) (tree : FileTree) :
    Bool → FileTree → Prop
  /-- The name was free, and the path leads to the new directory. -/
  | made {place : Place} : place ≠ [] → tree.get? place = none →
      (tree.put place (.directory (mode &&& 0o7777))).stat v.cwd path =
        .ok (place, .directory (mode &&& 0o7777)) →
      MadeOne v path mode tree true (tree.put place (.directory (mode &&& 0o7777)))
  /-- The name was taken, and the bits of what the path leads to are set. -/
  | set {place : Place} {entry : Entry} : tree.makeDirectory v path mode = .error .exists →
      tree.stat v.cwd path = .ok (place, entry) →
      MadeOne v path mode tree true
        (if place.isEmpty then tree else tree.put place (entry.withMode (mode &&& 0o7777)))
  /-- The name was taken, and the path leads nowhere. -/
  | unset {e : FileError} : tree.makeDirectory v path mode = .error .exists →
      tree.stat v.cwd path = .error e → MadeOne v path mode tree true tree
  | refused : MadeOne v path mode tree false tree

theorem madeOne_of_makeOneDirectory
    (h : tree.makeOneDirectory v path mode = (ok, tree', journal)) :
    MadeOne v path mode tree ok tree' := by
  rcases makeOneDirectory_cases h with
    ⟨rfl, rfl⟩ | ⟨rfl, between, hmade | ⟨hexists, rfl⟩, hset⟩
  · exact .refused
  · obtain ⟨-, dir, name, ⟨hcheck, hleads⟩, rfl⟩ := makeDirectory_eq_ok.mp hmade
    have hnamed : dir ++ [name] ≠ [] := by simp
    have hfree := hleads.get?_free.2
    have hstat (bits : Nat) : (tree.put (dir ++ [name]) (.directory bits)).stat v.cwd path =
        .ok (dir ++ [name], .directory bits) := by
      have hpasses := (sameBut_put tree (.directory bits) hnamed).passes fun _ hsome =>
        absurd (hfree.symm.trans hsome) nofun
      exact stat_eq_ok.mpr ⟨hcheck, hleads.directory_appears hpasses
        (get?_put_here tree _ hnamed) (PathText.parse path).trailingSlash⟩
    -- The new directory is found under its name, so its bits are set.
    have hbits := setMode_of_stat mode (hstat (v.newMode (mode &&& 0o1777)))
    rw [if_neg (by simp), put_put] at hbits
    rcases hset with ⟨-, e, hset⟩ | hset
    · rw [hbits] at hset
      contradiction
    · cases hbits.symm.trans hset
      exact .made hnamed hfree (hstat _)
  · cases hstat : between.stat v.cwd path with
    | ok found =>
        obtain ⟨place, entry⟩ := found
        have hbits := setMode_of_stat mode hstat
        rcases hset with ⟨-, e, hset⟩ | hset
        · rw [hbits] at hset
          contradiction
        · cases hbits.symm.trans hset
          exact .set hexists hstat
    | error e =>
        rcases hset with ⟨rfl, -⟩ | hset
        · exact .unset hexists hstat
        · rw [setMode, hstat] at hset
          contradiction

namespace MadeOne

/-- What was there is left, or the path leads to it and its bits are set. -/
theorem kept (made : MadeOne v path mode tree ok tree') (there : tree.get? place = some entry) :
    tree'.get? place = some entry ∨
      tree'.get? place = some (entry.withMode (mode &&& 0o7777)) ∧
        ∃ now, tree'.stat v.cwd path = .ok (place, now) := by
  cases made with
  | @made new named free _ =>
      have hother : place ≠ new := by
        rintro rfl
        rw [free] at there
        contradiction
      exact Or.inl ((sameBut_put tree _ named place hother).trans there)
  | @set spot found _ hstat =>
      have hset := setMode_of_stat mode hstat
      obtain ⟨now, hnow, -⟩ := (furnished_setMode hset).stat hstat
      by_cases hroot : spot = []
      · rw [if_pos (by simpa using hroot)]
        exact Or.inl there
      · rw [if_neg (by simpa using hroot)] at hnow ⊢
        by_cases hplace : place = spot
        · subst hplace
          cases there.symm.trans (stat_eq_ok.mp hstat).2.get?_found
          exact Or.inr ⟨get?_put_here tree _ hroot, now, hnow⟩
        · exact Or.inl ((sameBut_put tree _ hroot place hplace).trans there)
  | unset | refused => exact Or.inl there

/-- What is new is a directory with the given bits. -/
theorem new (made : MadeOne v path mode tree ok tree') (new : tree.get? place = none)
    (now : tree'.get? place = some entry) : entry = .directory (mode &&& 0o7777) := by
  cases made with
  | @made spot named _ _ =>
      rw [get?_put tree spot _ place named] at now
      split_ifs at now
      · cases now
        rfl
      · rw [new] at now
        contradiction
  | @set spot found _ hstat =>
      have hthere := (stat_eq_ok.mp hstat).2.get?_found
      split_ifs at now with hroot
      · rw [new] at now
        contradiction
      · have hother : place ≠ spot := by
          rintro rfl
          rw [new] at hthere
          contradiction
        rw [sameBut_put tree _ (by simpa using hroot) place hother, new] at now
        contradiction
  | unset | refused =>
      rw [new] at now
      contradiction

end MadeOne

/-! ## What was there before -/

/-- A place that the path, or a part of it with two dots on it, leads to. -/
def Revisited (tree : FileTree) (cwd : Place) (path : Bytes) (place : Place) : Prop :=
  ∃ part entry, PathText.Part part path ∧ PathText.Climbs part ∧
    tree.stat cwd part = .ok (place, entry)

theorem Revisited.furnished {bits : Nat} {touched : Place → Prop}
    (revisited : Revisited tree cwd path place) (furnished : Furnished bits touched tree tree') :
    Revisited tree' cwd path place := by
  obtain ⟨part, entry, hpart, hclimbs, hstat⟩ := revisited
  obtain ⟨now, hnow, -⟩ := furnished.stat hstat
  exact ⟨part, now, hpart, hclimbs, hnow⟩

section

variable {between : FileTree} {e : FileError} (rooted : tree.Rooted)
  (start : tree.isDirectory v.cwd = true)
include rooted start

/-- When the directories above it are there, a path that does not climb leads to none of what
was there before. -/
theorem newTo_of_ensured (unfound : tree.stat v.cwd path = .error e)
    (ensured : tree.ensureDirectory v (parentDirectory path) mode = (true, between, journal))
    (above : PathText.Above (parentDirectory path) path) (level : ¬PathText.Climbs path) :
    Extends tree between ∧ NewTo tree between v.cwd path := by
  have hlevel : ¬PathText.Climbs (parentDirectory path) := fun hclimbs =>
    level (above.climbs hclimbs)
  obtain ⟨hextends, hnew⟩ := extends_ensureDirectory ensured rooted start hlevel
  obtain ⟨hfurnished, hbare⟩ := furnished_ensureDirectory ensured rooted start
  refine ⟨hextends, ?_⟩
  exact newTo_of_parent unfound (hnew rfl) (hbare rfl hlevel) above level
    (hfurnished.rooted rooted) (hfurnished.passes.isDirectory start)

theorem kept_ensureDirectory (h : tree.ensureDirectory v path mode = (ok, tree', journal))
    (there : tree.get? place = some entry) :
    tree'.get? place = some entry ∨
      tree'.get? place = some (entry.withMode (mode &&& 0o7777)) ∧
        Revisited tree' v.cwd path place := by
  fun_induction ensureDirectory v tree path mode generalizing ok tree' journal with
  | case1 | case2 | case3 =>
      cases h
      exact Or.inl there
  | case4 =>
      rename_i path _ _ hstat parent hparent _ between _ hfirst _ after _ hlast ih
      cases h
      have hbefore := (furnished_ensureDirectory hfirst rooted start).1
      have hafter := (furnished_makeOneDirectory hlast (hbefore.rooted rooted)
        (hbefore.passes.isDirectory start)).1
      have hmade := madeOne_of_makeOneDirectory hlast
      rcases ih hfirst with hsame | ⟨hset, hrevisited⟩
      · rcases hmade.kept hsame with hsame | ⟨hset, now, hleads⟩
        · exact Or.inl hsame
        · refine Or.inr ⟨hset, path, now, .whole path, ?_, hleads⟩
          by_contra level
          obtain ⟨hextends, hnew⟩ := newTo_of_ensured rooted start hstat hfirst
            (PathText.above_parentDirectory hparent.1 hparent.2) level
          rw [(extends_makeOneDirectory hlast hextends hnew).2 _ _ hleads] at there
          contradiction
      · have hagain : Revisited after v.cwd path place := by
          obtain ⟨part, now, hpart, hclimbs, hleads⟩ := hrevisited.furnished hafter
          exact ⟨part, now, .above hparent.1 hparent.2 hpart, hclimbs, hleads⟩
        rcases hmade.kept hset with hset | ⟨hset, -⟩
        · exact Or.inr ⟨hset, hagain⟩
        · rw [withMode_withMode] at hset
          exact Or.inr ⟨hset, hagain⟩
  | case5 =>
      rename_i path _ _ _ parent hparent _ between _ hfirst ih
      cases h
      rcases ih hfirst with hsame | ⟨hset, part, now, hpart, hrevisited⟩
      · exact Or.inl hsame
      · exact Or.inr ⟨hset, part, now, .above hparent.1 hparent.2 hpart, hrevisited⟩
  | case6 path _ _ hstat =>
      rcases (madeOne_of_makeOneDirectory h).kept there with hsame | ⟨-, now, hleads⟩
      · exact Or.inl hsame
      · have hnew := (extends_makeOneDirectory h (.refl tree) (newTo_of_error hstat)).2
        rw [hnew _ _ hleads] at there
        contradiction

end

theorem new_ensureDirectory (h : tree.ensureDirectory v path mode = (ok, tree', journal))
    (new : tree.get? place = none) (now : tree'.get? place = some entry) :
    entry = .directory (mode &&& 0o7777) := by
  fun_induction ensureDirectory v tree path mode generalizing ok tree' journal entry with
  | case1 | case2 | case3 =>
      cases h
      rw [new] at now
      contradiction
  | case4 =>
      rename_i path _ _ _ parent hparent _ between _ hfirst _ _ _ hlast ih
      cases h
      have hmade := madeOne_of_makeOneDirectory hlast
      cases hbetween : between.get? place with
      | none => exact hmade.new hbetween now
      | some first =>
          have hfirst := ih hfirst hbetween
          subst hfirst
          rcases hmade.kept hbetween with hsame | ⟨hset, -⟩
          · rw [now] at hsame
            exact Option.some.inj hsame
          · rw [now] at hset
            exact Option.some.inj hset
  | case5 =>
      rename_i path _ _ _ parent hparent _ between _ hfirst ih
      cases h
      exact ih hfirst now
  | case6 path _ _ _ => exact (madeOne_of_makeOneDirectory h).new new now

/-- **What exists is left as it is**, but for the bits of what a part of the path comes back to
by two dots; and what is new is a directory with the given bits. -/
theorem existing_entries_are_left (h : tree.ensureDirectory v path mode = (ok, tree', journal))
    (rooted : tree.Rooted) (start : tree.isDirectory v.cwd = true) :
    (∀ place entry, tree.get? place = some entry →
      tree'.get? place = some entry ∨
        tree'.get? place = some (entry.withMode (mode &&& 0o7777)) ∧
          Revisited tree' v.cwd path place) ∧
      (¬PathText.Climbs path → Extends tree tree') ∧
      ∀ place entry, tree.get? place = none → tree'.get? place = some entry →
        entry = .directory (mode &&& 0o7777) := by
  refine ⟨?_, ?_, ?_⟩
  · intro place entry hthere
    exact kept_ensureDirectory rooted start h hthere
  · intro hlevel
    exact (extends_ensureDirectory h rooted start hlevel).1
  · intro place entry hnew hnow
    exact new_ensureDirectory h hnew hnow

/-- A directory `d` with a file in it, and a link `l` to the directory. -/
def linked : FileTree :=
  ⟨[([[100]], .directory 0o755), ([[100], [102]], .file 0o644 [120]), ([[108]], .link [100])]⟩

/-- What the making of `l/x/y` comes to. -/
theorem linked_ensureDirectory :
    ∃ tree' journal, linked.ensureDirectory { cwd := [] } [108, 47, 120, 47, 121] 0o711 =
        (true, tree', journal) ∧
      (tree'.get? [[100], [120]]).isSome = true ∧
      (tree'.get? [[100], [120], [121]]).isSome = true := by
  refine ⟨_, _, Prod.ext ?_ rfl, ?_, ?_⟩
  · cbv
  · cbv
  · cbv

theorem rooted_linked : linked.Rooted :=
  WellFormed.rooted ⟨by decide, by decide, by decide⟩

theorem not_climbs_linked : ¬PathText.Climbs [108, 47, 120, 47, 121] := by
  have hnames : (PathText.parse [108, 47, 120, 47, 121]).names = [[108], [120], [121]] := by cbv
  rw [PathText.Climbs, hnames]
  decide

/-- Behind the link a directory is made in `d`, which keeps its bits. -/
theorem existing_entries_are_left_behind_link :
    ∃ tree' journal, linked.ensureDirectory { cwd := [] } [108, 47, 120, 47, 121] 0o711 =
        (true, tree', journal) ∧
      Extends linked tree' ∧ tree'.get? [[100], [120]] = some (.directory 0o711) := by
  obtain ⟨tree', journal, hmade, hthere, -⟩ := linked_ensureDirectory
  obtain ⟨-, hextends, hnew⟩ := existing_entries_are_left hmade rooted_linked rfl
  obtain ⟨entry, hentry⟩ := Option.isSome_iff_exists.mp hthere
  refine ⟨tree', journal, hmade, hextends not_climbs_linked, ?_⟩
  rw [hentry, hnew _ _ (by decide) hentry]
  rfl

/-- The path `d/m/..` comes back to the directory `d`, whose bits are set. -/
theorem directory_come_back_to_is_changed :
    (⟨[([[100]], .directory 0o755)]⟩ : FileTree).get? [[100]] = some (.directory 0o755) ∧
      ((⟨[([[100]], .directory 0o755)]⟩ : FileTree).ensureDirectory { cwd := [] }
        [100, 47, 109, 47, 46, 46] 0o700).2.1.get? [[100]] = some (.directory 0o700) := by
  constructor
  · rfl
  · cbv

/-! ## What the path leads to -/

theorem LeadsToDirectory.furnished {bits : Nat} {touched : Place → Prop}
    (leads : tree.LeadsToDirectory cwd path) (furnished : Furnished bits touched tree tree') :
    tree'.LeadsToDirectory cwd path := by
  obtain ⟨place, _, hstat⟩ := leads
  obtain ⟨_, hnow, rfl | rfl⟩ := furnished.stat hstat <;> exact ⟨place, _, hnow⟩

/-- A name that is taken is taken afterwards. -/
theorem Taken.furnished {bits : Nat} {touched : Place → Prop}
    (taken : tree.Taken cwd path place entry) (furnished : Furnished bits touched tree tree') :
    ∃ now, tree'.Taken cwd path place now := by
  obtain ⟨hfile, hnamed, hcheck, hleads⟩ := taken
  obtain ⟨now, hagain, hsame⟩ := furnished.found_again hleads
  refine ⟨now, ?_, hnamed, hcheck, hagain⟩
  rcases hsame with rfl | rfl
  · exact hfile
  · rw [isDirectory_withMode, hfile]

/-- What a path names without asking for a directory, and does not lead to, is a link. -/
theorem Taken.isLink {e : FileError} (taken : tree.Taken cwd path place entry)
    (unasked : (PathText.parse path).trailingSlash = false)
    (unfound : tree.stat cwd path = .error e) : ∃ goal, entry = .link goal := by
  by_contra hlink
  have hstat : tree.stat cwd path = .ok (place, entry) := by
    refine stat_eq_ok.mpr ⟨taken.reaches.1, ?_⟩
    rw [unasked]
    apply taken.reaches.2.following
    rintro _ goal ⟨⟩
    exact hlink ⟨goal, rfl⟩
  rw [unfound] at hstat
  contradiction

/-- A link stands under the last name, and it stood there when nothing had been made. -/
def LeftAtLink (before tree : FileTree) (cwd : Place) (path : Bytes) : Prop :=
  tree = before ∧ ∃ place goal, tree.Taken cwd path place (.link goal)

section

variable {before : FileTree} {e : FileError} (rooted : tree.Rooted)
  (start : tree.isDirectory cwd = true)
include rooted start

/-- Behind a directory just made nothing is taken. -/
theorem Taken.unmade {name : Bytes} (taken : tree.Taken cwd path place entry)
    (above : PathText.Above parent path)
    (names : (PathText.parse path).names = (PathText.parse parent).names ++ [name])
    (bare : tree.Bare cwd parent) : PathText.Climbs path := by
  obtain ⟨hfile, -, hreaches⟩ := taken
  obtain ⟨links, last, bits, hlast, hpart, hrest⟩ := hreaches.passed above names rooted start
  obtain ⟨-, hempty⟩ := bare _ _ (stat_eq_ok.mpr (hpart _))
  cases hrest with
  | stay hrest =>
      cases hrest.unique (.here (hpart true).2.get?_found)
      contradiction
  | up =>
      rw [PathText.Climbs, names]
      simp
  | plain _ hentry | into _ hentry | link _ hentry | through _ hentry =>
      rw [hempty] at hentry
      contradiction

/-- The name of a path that leads nowhere is taken by a link, if what is above it is there. -/
theorem Taken.leftAtLink (taken : tree.Taken cwd path place entry)
    (unfound : tree.stat cwd path = .error e) (hdot : parentDirectory path ≠ [46])
    (hroot : parentDirectory path ≠ [47]) (level : ¬PathText.Climbs path)
    (bare : tree = before ∨ tree.Bare cwd (parentDirectory path))
    (parent : tree.LeadsToDirectory cwd (parentDirectory path) ∨
      LeftAtLink before tree cwd (parentDirectory path)) :
    LeftAtLink before tree cwd path := by
  have habove := PathText.above_parentDirectory hdot hroot
  rcases habove.names with ⟨name, hnames⟩ | ⟨hnames, -⟩
  · have hsame : tree = before := by
      rcases bare with hsame | hbare
      · exact hsame
      · exact absurd (taken.unmade rooted start habove hnames hbare) level
    have hunasked : (PathText.parse path).trailingSlash = false := by
      by_contra hslash
      have hshorter := PathText.names_parentDirectory_of_asked hdot hroot
        (Bool.not_eq_false _ ▸ hslash)
      rw [hnames] at hshorter
      simp at hshorter
    obtain ⟨goal, rfl⟩ := taken.isLink hunasked unfound
    exact ⟨hsame, place, goal, taken⟩
  · -- The path is that of the directory above, and a slash.
    have horigin : origin cwd (parentDirectory path) = origin cwd path := origin_above habove
    rcases parent with ⟨spot, bits, hstat⟩ | ⟨hsame, spot, goal, htaken⟩
    · have hthere := (stat_eq_ok.mp hstat).2.directory_asked (PathText.parse path).trailingSlash
      rw [← hnames, horigin] at hthere
      rw [stat_eq_ok.mpr ⟨taken.reaches.1, hthere⟩] at unfound
      contradiction
    · have hlink := htaken.reaches.2
      rw [← hnames, horigin] at hlink
      cases taken.reaches.2.unique hlink
      exact ⟨hsame, place, goal, taken⟩

end

/-- One directory is there once it is made, or its name is taken; then the path leads to no
directory, or nowhere. -/
theorem MadeOne.leads_or_taken (made : MadeOne v path mode tree true tree') (rooted : tree.Rooted)
    (start : tree.isDirectory v.cwd = true) :
    tree'.LeadsToDirectory v.cwd path ∨
      (∃ place entry, tree'.Taken v.cwd path place entry) ∧
        ((∃ place entry, tree.stat v.cwd path = .ok (place, entry) ∧ entry.isDirectory = false) ∨
          tree' = tree ∧ ∃ e, tree.stat v.cwd path = .error e) := by
  cases made with
  | made _ _ hstat => exact Or.inl ⟨_, _, hstat⟩
  | @set place entry hexists hstat =>
      have hfurnished := furnished_setMode (setMode_of_stat mode hstat)
      rcases taken_of_exists rooted start hexists with hleads | ⟨spot, other, htaken⟩
      · exact Or.inl (hleads.furnished hfurnished)
      · cases hkind : entry.isDirectory with
        | true =>
            obtain ⟨bits, hdirectory⟩ := isDirectory_iff.mp
              (show tree.isDirectory place = true by
                rw [isDirectory, (stat_eq_ok.mp hstat).2.get?_found]
                exact hkind)
            cases hdirectory.symm.trans (stat_eq_ok.mp hstat).2.get?_found
            exact Or.inl (LeadsToDirectory.furnished ⟨place, bits, hstat⟩ hfurnished)
        | false =>
            obtain ⟨now, hnow⟩ := htaken.furnished hfurnished
            exact Or.inr ⟨⟨spot, now, hnow⟩, Or.inl ⟨place, entry, hstat, hkind⟩⟩
  | unset hexists hstat =>
      rcases taken_of_exists rooted start hexists with hleads | htaken
      · exact Or.inl hleads
      · exact Or.inr ⟨htaken, Or.inr ⟨rfl, _, hstat⟩⟩

/-- **A success** means that the directory is there, or that its name is taken, by a link if
the path does not climb. -/
theorem leads_or_taken (h : tree.ensureDirectory v path mode = (ok, tree', journal))
    (rooted : tree.Rooted) (start : tree.isDirectory v.cwd = true) (succeeded : ok = true) :
    tree'.LeadsToDirectory v.cwd path ∨
      (∃ place entry, tree'.Taken v.cwd path place entry) ∧
        (¬PathText.Climbs path → LeftAtLink tree tree' v.cwd path) := by
  fun_induction ensureDirectory v tree path mode generalizing ok tree' journal with
  | case1 | case3 =>
      cases h
      contradiction
  | case2 _ _ place bits hstat =>
      cases h
      exact Or.inl ⟨place, bits, hstat⟩
  | case4 =>
      rename_i path _ _ hstat parent hparent _ between _ hfirst _ after _ hlast ih
      cases h
      subst succeeded
      have habove := PathText.above_parentDirectory hparent.1 hparent.2
      obtain ⟨hbefore, hbare⟩ := furnished_ensureDirectory hfirst rooted start
      have hrooted := hbefore.rooted rooted
      have hstart := hbefore.passes.isDirectory start
      rcases (madeOne_of_makeOneDirectory hlast).leads_or_taken hrooted hstart with
        hleads | ⟨htaken, hwhy⟩
      · exact Or.inl hleads
      refine Or.inr ⟨htaken, fun level => ?_⟩
      rcases hwhy with ⟨place, entry, hfile, hkind⟩ | ⟨rfl, e, hnowhere⟩
      · -- What it would lead to is new, and only directories are.
        have hnew := (newTo_of_ensured rooted start hstat hfirst habove level).2 _ _ hfile
        have hdirectory := (hbefore.made hnew (stat_eq_ok.mp hfile).2.get?_found).1
        rw [hkind] at hdirectory
        contradiction
      · obtain ⟨place, entry, htaken⟩ := htaken
        have hlevel : ¬PathText.Climbs parent := fun hclimbs => level (habove.climbs hclimbs)
        exact htaken.leftAtLink hrooted hstart hnowhere hparent.1 hparent.2 level
          (hbare rfl hlevel) ((ih hfirst rfl).imp_right fun hparent => hparent.2 hlevel)
  | case5 =>
      cases h
      contradiction
  | case6 path _ _ hstat =>
      rename_i hparent
      subst succeeded
      rcases (madeOne_of_makeOneDirectory h).leads_or_taken rooted start with
        hleads | ⟨⟨place, entry, htaken⟩, hwhy⟩
      · exact Or.inl hleads
      rcases hwhy with ⟨_, _, hfile, -⟩ | ⟨rfl, -⟩
      · rw [hstat] at hfile
        contradiction
      · have htop : parentDirectory path = [46] ∨ parentDirectory path = [47] := by
          by_contra hneither
          exact hparent (not_or.mp hneither)
        have hunasked : (PathText.parse path).trailingSlash = false := by
          by_contra hasked
          exact PathText.not_endsInName_of_asked htop (Bool.not_eq_false _ ▸ hasked) htaken.named
        obtain ⟨goal, rfl⟩ := htaken.isLink hunasked hstat
        exact Or.inr ⟨⟨place, _, htaken⟩, fun _ => ⟨rfl, place, goal, htaken⟩⟩

/-- **A directory that was ensured is there**, unless something that is none stood under its
name: a link that leads to none, if the path does not climb, and then nothing was made. What was
made has the given bits. -/
theorem ensured_directory_is_there (h : tree.ensureDirectory v path mode = (true, tree', journal))
    (rooted : tree.Rooted) (start : tree.isDirectory v.cwd = true) :
    (tree'.LeadsToDirectory v.cwd path ∨
      ∃ place entry, tree'.Taken v.cwd path place entry ∧
        (∃ former, tree.get? place = some former ∧ former.isDirectory = false) ∧
        (¬PathText.Climbs path → tree' = tree ∧ ∃ goal, entry = .link goal)) ∧
      ∀ place entry, tree.get? place = none → tree'.get? place = some entry →
        entry = .directory (mode &&& 0o7777) := by
  refine ⟨?_, fun place entry hnew hnow => new_ensureDirectory h hnew hnow⟩
  rcases leads_or_taken h rooted start rfl with hleads | ⟨⟨place, entry, htaken⟩, hlevel⟩
  · exact Or.inl hleads
  refine Or.inr ⟨place, entry, htaken, ?_, ?_⟩
  · obtain ⟨former, hformer, hsame | ⟨hset, -⟩⟩ :=
      (furnished_ensureDirectory h rooted start).1.plain_before htaken.reaches.2.get?_found
        htaken.file
    · exact ⟨former, hformer, hsame ▸ htaken.file⟩
    · refine ⟨former, hformer, ?_⟩
      rw [← isDirectory_withMode former (mode &&& 0o7777), ← hset]
      exact htaken.file
  · intro level
    obtain ⟨hsame, spot, goal, hlink⟩ := hlevel level
    cases htaken.reaches.2.unique hlink.reaches.2
    exact ⟨hsame, goal, rfl⟩

/-- Behind the link the directory and the one above it are there, with their bits. -/
theorem ensured_directory_is_there_behind_link :
    ∃ tree' journal, linked.ensureDirectory { cwd := [] } [108, 47, 120, 47, 121] 0o711 =
        (true, tree', journal) ∧
      tree'.LeadsToDirectory [] [108, 47, 120, 47, 121] ∧
      tree'.get? [[100], [120], [121]] = some (.directory 0o711) := by
  obtain ⟨tree', journal, hmade, -, hthere⟩ := linked_ensureDirectory
  obtain ⟨hleads, hnew⟩ := ensured_directory_is_there hmade rooted_linked rfl
  obtain ⟨entry, hentry⟩ := Option.isSome_iff_exists.mp hthere
  refine ⟨tree', journal, hmade, ?_, ?_⟩
  · rcases hleads with hleads | ⟨_, _, -, -, hlevel⟩
    · exact hleads
    · -- Nothing would have been made.
      rw [(hlevel not_climbs_linked).1] at hentry
      contradiction
  · rw [hentry, hnew _ _ (by decide) hentry]
    rfl

/-- A link that leads nowhere is taken for the directory that it stands in the way of. -/
theorem dangling_link_is_taken_for_directory :
    ((⟨[([[108]], .link [110])]⟩ : FileTree).ensureDirectory { cwd := [] } [108] 0o700).1 = true ∧
      ¬((⟨[([[108]], .link [110])]⟩ : FileTree).ensureDirectory { cwd := [] }
        [108] 0o700).2.1.LeadsToDirectory [] [108] := by
  constructor
  · cbv
  · rintro ⟨place, bits, hstat⟩
    have hnowhere : ((⟨[([[108]], .link [110])]⟩ : FileTree).ensureDirectory { cwd := [] }
        [108] 0o700).2.1.stat [] [108] = .error .noEntry := by cbv
    rw [hnowhere] at hstat
    contradiction

end FileTree

end SearchDaemon
