import SearchDaemon.FileTree.Ensuring
import SearchDaemon.Proofs.Fields
import SearchDaemon.Proofs.Paths

/-!
# What the calls on files do

Each call succeeds in a few ways, by what its path leads to, and changes the tree at one
place at most. A path that a call has used leads to the same place afterwards.
-/

namespace SearchDaemon

/-- A path whose last name is looked up, and not a dot or two. -/
def PathText.EndsInName (path : Bytes) : Prop :=
  ∃ last, (parse path).names.getLast? = some last ∧ last ≠ dot ∧ last ≠ dotDot

namespace FileTree

variable {tree tree' : FileTree} {cwd place dir : Place} {path name : Bytes} {entry : Entry}
  {target : Target} {follow slash : Bool} {mode : Nat} {v : Vantage}

/-- Where the walk along a path sets out. -/
def origin (cwd : Place) (path : Bytes) : Place :=
  if (PathText.parse path).absolute then [] else cwd

/-- What a path leads to, asking for a directory or not. -/
def Reaches (tree : FileTree) (cwd : Place) (follow : Bool) (path : Bytes) (slash : Bool)
    (target : Target) : Prop :=
  PathText.check path = .ok () ∧
    tree.Leads follow PathText.linkLimit (origin cwd path) (PathText.parse path).names slash target

theorem locate_eq_ok :
    tree.locate cwd follow path = .ok target ↔
      tree.Reaches cwd follow path (PathText.parse path).trailingSlash target := by
  rw [locate, bind_eq_ok]
  constructor
  · rintro ⟨⟨⟩, hcheck, hwalk⟩
    exact ⟨hcheck, walk_eq_ok.mp hwalk⟩
  · rintro ⟨hcheck, hleads⟩
    exact ⟨(), hcheck, walk_eq_ok.mpr hleads⟩

theorem stat_eq_ok :
    tree.stat cwd path follow = .ok (place, entry) ↔
      tree.Reaches cwd follow path (PathText.parse path).trailingSlash (.found place entry) := by
  rw [stat, bind_eq_ok, ← locate_eq_ok]
  constructor
  · rintro ⟨target, hlocate, htarget⟩
    cases target with
    | found place' entry' =>
        cases htarget
        exact hlocate
    | free => contradiction
  · intro hlocate
    exact ⟨_, hlocate, rfl⟩

theorem locateName_unnamed {slot : NameSlot} (h : tree.locateName cwd path = .ok slot)
    (unnamed : ¬PathText.EndsInName path) : slot = .unnamed := by
  obtain ⟨⟨⟩, -, h⟩ := bind_eq_ok.mp h
  dsimp only at h
  split at h
  · cases h
    rfl
  · rename_i last hlast
    split at h
    · obtain ⟨target, -, htarget⟩ := bind_eq_ok.mp h
      cases target with
      | found =>
          cases htarget
          rfl
      | free => contradiction
    · rename_i hproper
      exact absurd ⟨last, hlast, not_or.mp hproper⟩ unnamed

theorem locateName_named {slot : NameSlot} (named : PathText.EndsInName path) :
    tree.locateName cwd path = .ok slot ↔
      ∃ target, tree.Reaches cwd false path false target ∧
        slot = match target with
          | .found place entry => .found place entry (PathText.parse path).trailingSlash
          | .free dir name _ => .free dir name (PathText.parse path).trailingSlash := by
  obtain ⟨last, hlast, hproper⟩ := named
  rw [locateName, bind_eq_ok]
  simp only [hlast, if_neg (not_or.mpr hproper)]
  constructor
  · rintro ⟨⟨⟩, hcheck, h⟩
    obtain ⟨target, hwalk, htarget⟩ := bind_eq_ok.mp h
    refine ⟨target, ⟨hcheck, walk_eq_ok.mp hwalk⟩, ?_⟩
    cases target with
    | found | free =>
        cases htarget
        rfl
  · rintro ⟨target, ⟨hcheck, hleads⟩, rfl⟩
    refine ⟨(), hcheck, bind_eq_ok.mpr ⟨target, walk_eq_ok.mpr hleads, ?_⟩⟩
    cases target <;> rfl

theorem locateName_found :
    tree.locateName cwd path = .ok (.found place entry slash) ↔
      PathText.EndsInName path ∧ (PathText.parse path).trailingSlash = slash ∧
        tree.Reaches cwd false path false (.found place entry) := by
  constructor
  · intro h
    have hnamed : PathText.EndsInName path := by
      by_contra hunnamed
      have := locateName_unnamed h hunnamed
      contradiction
    obtain ⟨target, hreaches, hslot⟩ := (locateName_named hnamed).mp h
    cases target with
    | found =>
        cases hslot
        exact ⟨hnamed, rfl, hreaches⟩
    | free => contradiction
  · rintro ⟨hnamed, rfl, hreaches⟩
    exact (locateName_named hnamed).mpr ⟨_, hreaches, rfl⟩

theorem locateName_free :
    tree.locateName cwd path = .ok (.free dir name slash) ↔
      PathText.EndsInName path ∧ (PathText.parse path).trailingSlash = slash ∧
        tree.Reaches cwd false path false (.free dir name false) := by
  constructor
  · intro h
    have hnamed : PathText.EndsInName path := by
      by_contra hunnamed
      have := locateName_unnamed h hunnamed
      contradiction
    obtain ⟨target, hreaches, hslot⟩ := (locateName_named hnamed).mp h
    cases target with
    | found => contradiction
    | free dir name s =>
        have hs := hreaches.2.free_unasked rfl
        cases hslot
        exact ⟨hnamed, rfl, hs ▸ hreaches⟩
  · rintro ⟨hnamed, rfl, hreaches⟩
    exact (locateName_named hnamed).mpr ⟨_, hreaches, rfl⟩

/-! ## Edits of one place -/

/-- The trees show the same everywhere but at one place. -/
def SameBut (place : Place) (tree tree' : FileTree) : Prop :=
  ∀ other : Place, other ≠ place → tree'.get? other = tree.get? other

theorem sameBut_put (tree : FileTree) (entry : Entry) (named : place ≠ []) :
    SameBut place tree (tree.put place entry) := by
  intro other hother
  rw [get?_put tree place entry other named, if_neg hother]

theorem sameBut_erase (tree : FileTree) (named : place ≠ []) :
    SameBut place tree (tree.erase place) := by
  intro other hother
  rw [get?_erase tree place other named, if_neg hother]

theorem get?_put_here (tree : FileTree) (entry : Entry) (named : place ≠ []) :
    (tree.put place entry).get? place = some entry := by
  rw [get?_put tree place entry place named, if_pos rfl]

theorem get?_erase_here (tree : FileTree) (named : place ≠ []) :
    (tree.erase place).get? place = none := by
  rw [get?_erase tree place place named, if_pos rfl]

/-- A tree that is changed where no walk passes through is walked as before. -/
theorem SameBut.passes (same : SameBut place tree tree')
    (plain : ∀ entry, tree.get? place = some entry → entry.isPlain = true) :
    Passes tree tree' := by
  constructor
  · intro other mode hentry
    have hother : other ≠ place := by
      rintro rfl
      exact absurd (plain _ hentry) (by exact Bool.false_ne_true)
    exact ⟨mode, by rw [same _ hother, hentry]⟩
  · intro other goal hentry
    have hother : other ≠ place := by
      rintro rfl
      exact absurd (plain _ hentry) (by exact Bool.false_ne_true)
    rw [same _ hother, hentry]

theorem SameBut.rooted (same : SameBut place tree tree') (passes : Passes tree tree')
    (rooted : tree.Rooted)
    (parent : tree'.get? place ≠ none → tree.isDirectory place.dropLast = true) :
    tree'.Rooted := by
  intro other entry hentry
  by_cases hother : other = place
  · subst hother
    exact passes.isDirectory (parent (by rw [hentry]; exact nofun))
  · rw [same _ hother] at hentry
    exact passes.isDirectory (rooted _ _ hentry)

/-! ## Success of each call -/

theorem setMode_eq_ok :
    tree.setMode v path mode = .ok tree' ↔
      ∃ place entry, tree.Reaches v.cwd true path (PathText.parse path).trailingSlash
          (.found place entry) ∧
        tree' = if place.isEmpty then tree
          else tree.put place (entry.withMode (mode &&& 0o7777)) := by
  rw [setMode, bind_eq_ok]
  constructor
  · rintro ⟨⟨place, entry⟩, hstat, h⟩
    cases h
    exact ⟨place, entry, stat_eq_ok.mp hstat, rfl⟩
  · rintro ⟨place, entry, hreaches, rfl⟩
    exact ⟨(place, entry), stat_eq_ok.mpr hreaches, rfl⟩

theorem makeDirectory_eq_ok :
    tree.makeDirectory v path mode = .ok tree' ↔
      PathText.EndsInName path ∧ ∃ dir name, tree.Reaches v.cwd false path false
          (.free dir name false) ∧
        tree' = tree.put (dir ++ [name]) (.directory (v.newMode (mode &&& 0o1777))) := by
  rw [makeDirectory, bind_eq_ok]
  constructor
  · rintro ⟨slot, hslot, h⟩
    cases slot with
    | free dir name slash =>
        cases h
        obtain ⟨hnamed, -, hreaches⟩ := locateName_free.mp hslot
        exact ⟨hnamed, dir, name, hreaches, rfl⟩
    | _ => contradiction
  · rintro ⟨hnamed, dir, name, hreaches, rfl⟩
    exact ⟨_, locateName_free.mpr ⟨hnamed, rfl, hreaches⟩, rfl⟩

theorem unlink_eq_ok :
    tree.unlink v path = .ok tree' ↔
      PathText.EndsInName path ∧ (PathText.parse path).trailingSlash = false ∧
        ∃ place entry, entry.isDirectory = false ∧
          tree.Reaches v.cwd false path false (.found place entry) ∧ tree' = tree.erase place := by
  rw [unlink, bind_eq_ok]
  constructor
  · rintro ⟨slot, hslot, h⟩
    cases slot with
    | found place entry slash =>
        obtain ⟨hnamed, hslash, hreaches⟩ := locateName_found.mp hslot
        dsimp only at h
        split_ifs at h with hdirectory htrailing
        cases h
        exact ⟨hnamed, hslash.trans (Bool.eq_false_iff.mpr htrailing), place, entry,
          Bool.eq_false_iff.mpr hdirectory, hreaches, rfl⟩
    | _ => contradiction
  · rintro ⟨hnamed, hslash, place, entry, hdirectory, hreaches, rfl⟩
    refine ⟨_, locateName_found.mpr ⟨hnamed, hslash, hreaches⟩, ?_⟩
    simp [hdirectory]

theorem bindSocket_eq_ok {number : Nat} :
    tree.bindSocket v path number = .ok tree' ↔
      PathText.EndsInName path ∧ (PathText.parse path).trailingSlash = false ∧
        ∃ dir name, tree.Reaches v.cwd false path false (.free dir name false) ∧
          tree' = tree.put (dir ++ [name]) (.socket (v.newMode 0o777) number) := by
  rw [bindSocket, bind_eq_ok]
  constructor
  · rintro ⟨slot, hslot, h⟩
    cases slot with
    | free dir name slash =>
        obtain ⟨hnamed, hslash, hreaches⟩ := locateName_free.mp hslot
        dsimp only at h
        split_ifs at h with htrailing
        cases h
        exact ⟨hnamed, hslash.trans (Bool.eq_false_iff.mpr htrailing), dir, name, hreaches, rfl⟩
    | _ => contradiction
  · rintro ⟨hnamed, hslash, dir, name, hreaches, rfl⟩
    exact ⟨_, locateName_free.mpr ⟨hnamed, hslash, hreaches⟩, rfl⟩

/-! ## The place that a path names -/

/-- The last name of a path stands for this place, be it taken or free. -/
def Names (tree : FileTree) (cwd : Place) (path : Bytes) (place : Place) : Prop :=
  PathText.EndsInName path ∧ (PathText.parse path).trailingSlash = false ∧
    ∃ target, tree.Reaches cwd false path false target ∧ target.place = place

theorem isDirectory_cwd (h : tree.isDirectory cwd = true) :
    tree.isDirectory (origin cwd path) = true := isDirectory_origin h

theorem Names.unique {place' : Place} (h : tree.Names cwd path place)
    (h' : tree.Names cwd path place') : place = place' := by
  obtain ⟨-, -, target, hreaches, rfl⟩ := h
  obtain ⟨-, -, target', hreaches', rfl⟩ := h'
  rw [hreaches.2.unique hreaches'.2]

theorem Names.found (h : tree.Names cwd path place) (here : tree.get? place = some entry) :
    tree.Reaches cwd false path false (.found place entry) := by
  obtain ⟨-, -, target, hreaches, rfl⟩ := h
  cases target with
  | found place' entry' =>
      have hentry := hreaches.2.get?_found
      rw [show (Target.found place' entry').place = place' from rfl, hentry] at here
      cases here
      exact hreaches
  | free dir name slash =>
      rw [show (Target.free dir name slash).place = dir ++ [name] from rfl,
        (hreaches.2.get?_free).2] at here
      contradiction

theorem Names.free (h : tree.Names cwd path place) (none : tree.get? place = none) :
    ∃ dir name, place = dir ++ [name] ∧
      tree.Reaches cwd false path false (.free dir name false) := by
  obtain ⟨-, -, target, hreaches, rfl⟩ := h
  cases target with
  | found place' entry' =>
      rw [show (Target.found place' entry').place = place' from rfl,
        hreaches.2.get?_found] at none
      contradiction
  | free dir name slash =>
      have hslash := hreaches.2.free_unasked rfl
      exact ⟨dir, name, rfl, hslash ▸ hreaches⟩

section

variable (rooted : tree.Rooted) (start : tree.isDirectory cwd = true)
include rooted start

/-- A place that no walk passes through lies in a directory. -/
theorem Names.inDirectory (h : tree.Names cwd path place)
    (plain : ∀ entry, tree.get? place = some entry → entry.isPlain = true) :
    place ≠ [] ∧ tree.isDirectory place.dropLast = true := by
  obtain ⟨-, -, target, hreaches, rfl⟩ := h
  rcases hreaches.2.ends rooted (isDirectory_cwd start) with
    ⟨place, mode, rfl⟩ | ⟨last, name, hlast, hplace⟩
  · exact absurd (plain _ hreaches.2.get?_found) Bool.false_ne_true
  · rw [hplace, List.dropLast_concat]
    exact ⟨by simp, hlast⟩

/-- A path names the same place in another tree, whatever plain entry is there or not. -/
theorem Names.kept (h : tree.Names cwd path place) (passes : Passes tree tree')
    (before : ∀ entry, tree.get? place = some entry → entry.isPlain = true)
    (after : ∀ entry, tree'.get? place = some entry → entry.isPlain = true) :
    tree'.Names cwd path place := by
  refine ⟨h.1, h.2.1, ?_⟩
  cases hbefore : tree.get? place with
  | none =>
      obtain ⟨dir, name, rfl, hcheck, hleads⟩ := h.free hbefore
      cases hafter : tree'.get? (dir ++ [name]) with
      | none => exact ⟨_, ⟨hcheck, hleads.still_free passes hafter⟩, rfl⟩
      | some entry => exact ⟨_, ⟨hcheck, hleads.appears passes hafter (after _ hafter)⟩, rfl⟩
  | some entry =>
      obtain ⟨hcheck, hleads⟩ := h.found hbefore
      cases hafter : tree'.get? place with
      | none =>
          obtain ⟨last, name, hplace, hfree⟩ :=
            hleads.free_again passes rooted (isDirectory_cwd start) (before _ hbefore) hafter
          exact ⟨_, ⟨hcheck, hfree⟩, hplace.symm⟩
      | some entry' =>
          obtain ⟨entry'', hfound⟩ :=
            hleads.found_again passes fun _ => ⟨entry', hafter, after _ hafter⟩
          exact ⟨_, ⟨hcheck, hfound⟩, rfl⟩

/-- Without names or with dots at its end a path leads to a directory. -/
theorem Reaches.endsInName (h : tree.Reaches cwd follow path slash target)
    (notDirectory : ∀ place mode, target ≠ .found place (.directory mode)) :
    PathText.EndsInName path := by
  obtain ⟨-, hleads⟩ := h
  have hstart : tree.isDirectory (origin cwd path) = true := isDirectory_cwd start
  rcases List.eq_nil_or_concat (PathText.parse path).names with hnil | ⟨names, last, hnames⟩
  · rw [hnil] at hleads
    obtain ⟨mode, hdirectory⟩ := isDirectory_iff.mp hstart
    exact absurd (hleads.unique (.here hdirectory)) (notDirectory _ _)
  · refine ⟨last, by rw [hnames, List.concat_eq_append, List.getLast?_concat], ?_⟩
    rw [hnames, List.concat_eq_append] at hleads
    by_contra hdots
    rw [← not_or, not_not] at hdots
    obtain ⟨place, mode, htarget⟩ := hleads.dots hdots rooted hstart
    exact notDirectory place mode htarget

/-- A path names the place of what it finds and is no directory. -/
theorem names_of_stat (h : tree.stat cwd path false = .ok (place, entry))
    (file : entry.isDirectory = false) :
    tree.Names cwd path place ∧ tree.get? place = some entry := by
  have hreaches := stat_eq_ok.mp h
  have hslash := hreaches.2.file_unasked file rooted (isDirectory_cwd start)
  rw [hslash] at hreaches
  refine ⟨⟨hreaches.endsInName rooted start ?_, hslash, _, hreaches, rfl⟩,
    hreaches.2.get?_found⟩
  intro place' mode heq
  cases heq
  contradiction

end

/-- A plain entry is found under its name, whether links are followed or not. -/
theorem Names.stat (h : tree.Names cwd path place) (here : tree.get? place = some entry)
    (plain : entry.isPlain = true) (follow : Bool) :
    tree.stat cwd path follow = .ok (place, entry) := by
  have hreaches := h.found here
  rw [stat_eq_ok, h.2.1]
  cases follow with
  | false => exact hreaches
  | true =>
      refine ⟨hreaches.1, hreaches.2.following ?_⟩
      intro place' goal heq
      cases heq
      contradiction

theorem Names.setMode (h : tree.Names v.cwd path place) (here : tree.get? place = some entry)
    (plain : entry.isPlain = true) (named : place ≠ []) (mode : Nat) :
    tree.setMode v path mode = .ok (tree.put place (entry.withMode (mode &&& 0o7777))) := by
  rw [setMode_eq_ok]
  refine ⟨place, entry, stat_eq_ok.mp (h.stat here plain true), ?_⟩
  rw [if_neg (by simpa using named)]

theorem Names.removeFile (h : tree.Names v.cwd path place) (here : tree.get? place = some entry)
    (file : entry.isDirectory = false) : tree.removeFile v path = (true, tree.erase place, []) := by
  have hunlink : tree.unlink v path = .ok (tree.erase place) :=
    unlink_eq_ok.mpr ⟨h.1, h.2.1, place, entry, file, h.found here, rfl⟩
  rw [FileTree.removeFile, hunlink]

theorem named_of_stat (h : tree.stat cwd path follow = .ok (place, entry))
    (file : entry.isDirectory = false) : place ≠ [] := by
  have hentry := (stat_eq_ok.mp h).2.get?_found
  rintro rfl
  cases hentry
  contradiction

/-- A path removes what it finds under its last name, or nothing. -/
theorem removeFile_cases (tree : FileTree) (v : Vantage) (path : Bytes) :
    (tree.removeFile v path).2.1 = tree ∨
      ∃ place entry, tree.stat v.cwd path false = .ok (place, entry) ∧
        entry.isDirectory = false ∧ (tree.removeFile v path).2.1 = tree.erase place := by
  unfold removeFile
  cases hunlink : tree.unlink v path with
  | ok tree' =>
      obtain ⟨-, hslash, place, entry, hfile, hreaches, rfl⟩ := unlink_eq_ok.mp hunlink
      exact Or.inr ⟨place, entry, stat_eq_ok.mpr (by rw [hslash]; exact hreaches), hfile, rfl⟩
  | error e =>
      left
      cases e <;> rfl

/-- Unless it is a link, no walk passes through what a path removes, and all directories are
left. -/
theorem removeFile_frame (rooted : tree.Rooted)
    (unlinked : ∀ spot goal, tree.stat v.cwd path false ≠ .ok (spot, .link goal)) :
    Passes tree (tree.removeFile v path).2.1 ∧ (tree.removeFile v path).2.1.Rooted ∧
      ∀ place bits, tree.get? place = some (.directory bits) →
        (tree.removeFile v path).2.1.get? place = some (.directory bits) := by
  rcases removeFile_cases tree v path with hsame | ⟨other, found, hother, hfile, herased⟩
  · rw [hsame]
    exact ⟨.refl tree, rooted, fun _ _ there => there⟩
  · have hentry := (stat_eq_ok.mp hother).2.get?_found
    have hnamed := named_of_stat hother hfile
    have hplain : found.isPlain = true := by
      cases found with
      | directory => contradiction
      | link goal => exact absurd hother (unlinked _ _)
      | _ => rfl
    have herase := sameBut_erase tree hnamed
    have hpasses := herase.passes fun entry there => by
      cases hentry.symm.trans there
      exact hplain
    rw [herased]
    refine ⟨hpasses, herase.rooted hpasses rooted fun h => ?_, ?_⟩
    · exact absurd (get?_erase_here tree hnamed) h
    · intro place bits there
      have hplace : place ≠ other := by
        rintro rfl
        cases hentry.symm.trans there
        contradiction
      rw [herase place hplace, there]

theorem names_of_bindSocket {number : Nat} (h : tree.bindSocket v path number = .ok tree') :
    ∃ place, tree.Names v.cwd path place ∧ tree.get? place = none ∧
      tree' = tree.put place (.socket (v.newMode 0o777) number) := by
  obtain ⟨hnamed, hslash, dir, name, hreaches, rfl⟩ := bindSocket_eq_ok.mp h
  exact ⟨dir ++ [name], ⟨hnamed, hslash, _, hreaches, rfl⟩, hreaches.2.get?_free.2, rfl⟩

/-- What a path names is a symbolic link or a pipe. -/
def NamesLinkOrPipe (tree : FileTree) (cwd : Place) (path : Bytes) : Prop :=
  ∃ place entry, tree.stat cwd path false = .ok (place, entry) ∧
    ((∃ goal, entry = .link goal) ∨ ∃ mode, entry = .fifo mode)

/-- Without a link at its end a path leads to the same with and without following links. -/
theorem Reaches.unfollowed (h : tree.Reaches cwd true path false target)
    (hslash : (PathText.parse path).trailingSlash = false)
    (ordinary : ¬tree.NamesLinkOrPipe cwd path) : tree.Reaches cwd false path false target := by
  obtain ⟨hcheck, hleads⟩ := h
  rcases hleads.unfollowed with hsame | ⟨place, goal, hlink⟩
  · exact ⟨hcheck, hsame⟩
  · refine absurd ⟨place, _, stat_eq_ok.mpr ?_, Or.inl ⟨goal, rfl⟩⟩ ordinary
    rw [hslash]
    exact ⟨hcheck, hlink⟩

theorem openForWriting_cases {opened : FileTree}
    (h : tree.openForWriting v path mode = .ok (opened, place)) :
    (PathText.parse path).trailingSlash = false ∧
      ((∃ dir name, tree.Reaches v.cwd true path false (.free dir name false) ∧
          place = dir ++ [name] ∧ opened = tree.put place (.file (v.newMode mode) [])) ∨
        ∃ entry, tree.Reaches v.cwd true path false (.found place entry) ∧ opened = tree ∧
          entry.isDirectory = false ∧ ∀ bits number, entry ≠ .socket bits number) := by
  obtain ⟨target, hlocate, h⟩ := bind_eq_ok.mp h
  have hreaches := locate_eq_ok.mp hlocate
  cases target with
  | free dir name slash =>
      dsimp only at h
      split_ifs at h with hslash
      cases h
      rw [Bool.not_eq_true] at hslash
      subst hslash
      have htrailing : (PathText.parse path).trailingSlash = false := by
        by_contra hasked
        exact Bool.false_ne_true (hreaches.2.free_asked (Bool.not_eq_false _ ▸ hasked))
      rw [htrailing] at hreaches
      exact ⟨htrailing, Or.inl ⟨dir, name, hreaches, rfl, rfl⟩⟩
  | found place' entry =>
      dsimp only at h
      split_ifs at h with htrailing
      rw [Bool.not_eq_true] at htrailing
      rw [htrailing] at hreaches
      refine ⟨htrailing, Or.inr ?_⟩
      cases entry with
      | directory | socket => contradiction
      | file | link | fifo =>
          cases h
          exact ⟨_, hreaches, rfl, rfl, nofun⟩

/-- Writing makes a file at the place that the path names, or puts the data into the one that
is there, whose bits stay. -/
theorem names_of_writeAt {data : Bytes} (rooted : tree.Rooted)
    (start : tree.isDirectory v.cwd = true) (ordinary : ¬tree.NamesLinkOrPipe v.cwd path)
    (h : tree.writeAt v path mode data = .ok tree') :
    ∃ place bits, tree.Names v.cwd path place ∧ place ≠ [] ∧
      (∀ entry, tree.get? place = some entry → ∃ old, entry = .file bits old) ∧
      tree'.get? place = some (.file bits data) ∧ SameBut place tree tree' := by
  obtain ⟨⟨opened, place⟩, hopen, hwritten⟩ := bind_eq_ok.mp h
  cases hwritten
  obtain ⟨hslash, ⟨dir, name, hreaches, rfl, rfl⟩ |
    ⟨entry, hreaches, rfl, hdirectory, hsocket⟩⟩ := openForWriting_cases hopen
  -- The file is made empty, and then the data are put into it.
  · have hnone := hreaches.2.get?_free.2
    have hfree := hreaches.unfollowed hslash ordinary
    have hnamed : dir ++ [name] ≠ [] := by simp
    have hmade := get?_put_here tree (.file (v.newMode mode) []) hnamed
    refine ⟨dir ++ [name], v.newMode mode, ⟨hfree.endsInName rooted start nofun, hslash, _, hfree,
      rfl⟩, hnamed, ?_, ?_, ?_⟩
    · intro entry hentry
      rw [hnone] at hentry
      contradiction
    · rw [setContent, hmade]
      exact get?_put_here _ _ hnamed
    · intro other hother
      rw [setContent, hmade]
      exact (sameBut_put _ _ hnamed _ hother).trans (sameBut_put _ _ hnamed _ hother)
  -- Without links and pipes, what can be opened and is there is a file.
  · have hfound := hreaches.unfollowed hslash ordinary
    have hordinary : ∃ bits old, entry = .file bits old := by
      have hstat : opened.stat v.cwd path false = .ok (place, entry) := by
        rw [stat_eq_ok, hslash]
        exact hfound
      cases entry with
      | file bits old => exact ⟨bits, old, rfl⟩
      | link goal => exact absurd ⟨place, _, hstat, Or.inl ⟨goal, rfl⟩⟩ ordinary
      | fifo bits => exact absurd ⟨place, _, hstat, Or.inr ⟨bits, rfl⟩⟩ ordinary
      | directory => contradiction
      | socket bits number => exact absurd rfl (hsocket bits number)
    obtain ⟨bits, old, rfl⟩ := hordinary
    have hentry := hfound.2.get?_found
    have hnames : opened.Names v.cwd path place :=
      ⟨hfound.endsInName rooted start nofun, hslash, _, hfound, rfl⟩
    have hnamed : place ≠ [] := by
      refine (hnames.inDirectory rooted start ?_).1
      intro entry hsome
      rw [hentry] at hsome
      cases hsome
      rfl
    refine ⟨place, bits, hnames, hnamed, ?_, ?_, ?_⟩
    · intro entry hsome
      rw [hentry] at hsome
      cases hsome
      exact ⟨old, rfl⟩
    · rw [setContent, hentry]
      exact get?_put_here _ _ hnamed
    · intro other hother
      rw [setContent, hentry]
      exact sameBut_put _ _ hnamed _ hother

/-! ## What is not there -/

/-- The second tree has entries only where the first one has them, and the directories and
links among them are the same. -/
structure Fewer (tree tree' : FileTree) : Prop where
  passes : Passes tree' tree
  plain : ∀ (place : Place) (entry : Entry), tree'.get? place = some entry →
    entry.isPlain = true → ∃ former, tree.get? place = some former ∧ former.isPlain = true

theorem Fewer.refl (tree : FileTree) : Fewer tree tree :=
  ⟨.refl tree, fun _ entry here plain => ⟨entry, here, plain⟩⟩

theorem fewer_erase (tree : FileTree) (named : place ≠ []) : Fewer tree (tree.erase place) := by
  have hfrom {other : Place} {left : Entry} (h : (tree.erase place).get? other = some left) :
      tree.get? other = some left := by
    rw [get?_erase tree place other named] at h
    split at h
    · contradiction
    · exact h
  exact ⟨⟨fun h => ⟨_, hfrom h⟩, hfrom⟩, fun _ entry h plain => ⟨entry, hfrom h, plain⟩⟩

/-- Nothing is at a path, not even a link. -/
def Lacks (tree : FileTree) (cwd : Place) (path : Bytes) : Prop :=
  ∀ found, tree.stat cwd path false ≠ .ok found

theorem Lacks.fewer (lacks : tree.Lacks cwd path) (fewer : Fewer tree tree') :
    tree'.Lacks cwd path := by
  rintro ⟨place, entry⟩ hstat
  obtain ⟨hcheck, hleads⟩ := stat_eq_ok.mp hstat
  obtain ⟨former, hbefore⟩ :=
    hleads.found_again fewer.passes (fewer.plain place entry hleads.get?_found)
  exact lacks _ (stat_eq_ok.mpr ⟨hcheck, hbefore⟩)

/-- What is at a path, if anything, can be removed. -/
def Removable (tree : FileTree) (v : Vantage) (path : Bytes) : Prop :=
  ∀ found, tree.stat v.cwd path false = .ok found → ∃ left, tree.unlink v path = .ok left

theorem fewer_removeFile (tree : FileTree) (v : Vantage) (path : Bytes) :
    Fewer tree (tree.removeFile v path).2.1 := by
  rcases removeFile_cases tree v path with hsame | ⟨place, entry, hstat, hfile, herased⟩
  · rw [hsame]
    exact .refl tree
  · rw [herased]
    exact fewer_erase tree (named_of_stat hstat hfile)

/-- What can be removed is gone when it has been removed. -/
theorem lacks_removeFile (removable : tree.Removable v path) :
    (tree.removeFile v path).2.1.Lacks v.cwd path := by
  intro found hafter
  obtain ⟨hcheck, hleads⟩ := stat_eq_ok.mp hafter
  have fewer := fewer_removeFile tree v path
  obtain ⟨former, hbefore⟩ :=
    hleads.found_again fewer.passes (fewer.plain _ _ hleads.get?_found)
  -- So the path led to the place that was made free.
  have hstat : tree.stat v.cwd path false = .ok (found.1, former) :=
    stat_eq_ok.mpr ⟨hcheck, hbefore⟩
  obtain ⟨left, hunlink⟩ := removable _ hstat
  obtain ⟨-, hslash, place, entry, hfile, hreaches, rfl⟩ := unlink_eq_ok.mp hunlink
  rw [hslash] at hbefore
  obtain ⟨rfl, rfl⟩ := Target.found.inj (hbefore.unique hreaches.2)
  have hgone : (tree.removeFile v path).2.1 = tree.erase found.1 := by
    rw [removeFile, hunlink]
  have hhere := hleads.get?_found
  rw [hgone, get?_erase_here tree (named_of_stat hstat hfile)] at hhere
  contradiction

/-! ## Files that are put and removed -/

/-- The second tree is the first without what stands at some places. -/
structure Less (gone : Place → Prop) (tree tree' : FileTree) : Prop where
  free : ∀ place, gone place → tree'.get? place = none
  same : ∀ place, ¬gone place → tree'.get? place = tree.get? place

theorem Less.passes {gone : Place → Prop} (less : Less gone tree tree')
    (plain : ∀ place entry, gone place → tree.get? place = some entry → entry.isPlain = true) :
    Passes tree tree' := by
  constructor
  · intro place mode hentry
    refine ⟨mode, ?_⟩
    rw [less.same place fun hgone => Bool.false_ne_true (plain _ _ hgone hentry), hentry]
  · intro place goal hentry
    rw [less.same place fun hgone => Bool.false_ne_true (plain _ _ hgone hentry), hentry]

/-- A plain entry is put where a path names a place, over nothing or another plain entry. -/
structure Placed (v : Vantage) (path : Bytes) (place : Place) (tree tree' : FileTree) :
    Prop where
  names : tree.Names v.cwd path place
  covers : ∀ entry, tree.get? place = some entry → entry.isPlain = true
  same : SameBut place tree tree'
  here : ∃ entry, tree'.get? place = some entry ∧ entry.isPlain = true

theorem Placed.passes (placed : Placed v path place tree tree') : Passes tree tree' :=
  placed.same.passes placed.covers

/-- A socket in place of what was there does not make anything a link or a pipe. -/
theorem SameBut.ordinary {bits number : Nat} (same : SameBut place tree tree')
    (socket : tree'.get? place = some (.socket bits number))
    (ordinary : ¬tree.NamesLinkOrPipe cwd path) : ¬tree'.NamesLinkOrPipe cwd path := by
  rintro ⟨other, entry, hstat, hkind⟩
  have hreaches := stat_eq_ok.mp hstat
  have hentry := hreaches.2.get?_found
  have hother : other ≠ place := by
    rintro rfl
    rw [socket] at hentry
    cases hentry
    rcases hkind with ⟨goal, h⟩ | ⟨mode, h⟩ <;> contradiction
  -- So the same link or pipe stands there without the socket, and the path leads to it.
  have hback : SameBut place tree' tree := fun o ho => (same o ho).symm
  have hpasses := hback.passes fun e he => by
    rw [socket] at he
    cases he
    rfl
  rw [same other hother] at hentry
  obtain ⟨entry', hagain⟩ := hreaches.2.found_again hpasses fun hplain => ⟨entry, hentry, hplain⟩
  have hsame := hagain.get?_found
  rw [hentry] at hsame
  cases hsame
  exact ordinary ⟨other, entry, stat_eq_ok.mpr ⟨hreaches.1, hagain⟩, hkind⟩

section

variable {later : FileTree} {path' : Bytes} {place' : Place} (rooted : tree.Rooted)
  (start : tree.isDirectory v.cwd = true)
include rooted start

/-- A path still names a place that has become free. -/
theorem Less.names {gone : Place → Prop} (less : Less gone tree tree')
    (plain : ∀ place entry, gone place → tree.get? place = some entry → entry.isPlain = true)
    (free : gone place) (names : tree.Names v.cwd path place) :
    tree'.Names v.cwd path place :=
  names.kept rooted start (less.passes plain) (fun _ => plain place _ free)
    fun _ hentry => absurd ((less.free place free).symm.trans hentry) nofun

theorem Placed.rooted_after (placed : Placed v path place tree tree') : tree'.Rooted :=
  placed.same.rooted placed.passes rooted fun _ =>
    (placed.names.inDirectory rooted start placed.covers).2

theorem Placed.named (placed : Placed v path place tree tree') : place ≠ [] :=
  (placed.names.inDirectory rooted start placed.covers).1

/-- What is put at a place is removed by the path that names it, if it is still there. -/
theorem Placed.removeFile (placed : Placed v path place tree tree') (passes : Passes tree' later)
    (kept : later.get? place = tree'.get? place) :
    (later.removeFile v path).2.1 = later.erase place := by
  obtain ⟨entry, hhere, hplain⟩ := placed.here
  rw [← kept] at hhere
  have hafter : ∀ entry, later.get? place = some entry → entry.isPlain = true := by
    intro other hother
    rw [hhere] at hother
    cases hother
    exact hplain
  have hnames := placed.names.kept rooted start (placed.passes.trans passes) placed.covers hafter
  rw [hnames.removeFile hhere (Entry.isDirectory_of_isPlain hplain)]

/-- What is put at a place and removed again is gone with what was there before. -/
theorem Placed.less (placed : Placed v path place tree tree') :
    Less (· = place) tree (tree'.removeFile v path).2.1 := by
  have hnamed := placed.named rooted start
  rw [placed.removeFile rooted start (.refl _) rfl]
  constructor
  · rintro other rfl
    exact get?_erase_here _ hnamed
  · intro other hother
    rw [sameBut_erase _ hnamed other hother, placed.same other hother]

/-- The same for two entries one after the other. -/
theorem Placed.less_both (first : Placed v path place tree tree')
    (second : Placed v path' place' tree' later) (distinct : place ≠ place') :
    Less (fun other => other = place ∨ other = place') tree
      ((later.removeFile v path).2.1.removeFile v path').2.1 := by
  have hrooted := first.rooted_after rooted start
  have hstart := first.passes.isDirectory start
  have hnamed := first.named rooted start
  have hnamed' := second.named hrooted hstart
  obtain ⟨entry, hhere, hplain⟩ := first.here
  have hstill : later.get? place = tree'.get? place := second.same place distinct
  rw [first.removeFile rooted start second.passes hstill]
  have herased := sameBut_erase later hnamed
  have hpasses := herased.passes fun other hother => by
    rw [hstill, hhere] at hother
    cases hother
    exact hplain
  rw [second.removeFile hrooted hstart hpasses (herased place' distinct.symm)]
  constructor
  · rintro other (rfl | rfl)
    · rw [sameBut_erase _ hnamed' other distinct]
      exact get?_erase_here _ hnamed
    · exact get?_erase_here _ hnamed'
  · intro other hother
    obtain ⟨hne, hne'⟩ := not_or.mp hother
    rw [sameBut_erase _ hnamed' other hne', herased other hne, second.same other hne',
      first.same other hne]

end

end FileTree

end SearchDaemon
