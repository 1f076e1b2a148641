import Mathlib.Data.List.Basic
import SearchDaemon.FileTree.Edit

/-!
# Where paths lead

`Leads` is the walk along a path as a derivation with one rule for each kind of lookup.
The lemmas about it compare walks: in two trees, with and without following the last link,
along a path and along a longer one. A walk passes through directories and links only, so
it goes the same way in every tree that has these, and the trees can differ no earlier
than at the last name.
-/

namespace SearchDaemon

namespace Entry

/-- Neither a directory nor a link, so that a walk can only end here. -/
def isPlain : Entry → Bool
  | .file .. | .fifo _ | .socket .. => true
  | .directory _ | .link _ => false

theorem isDirectory_of_isPlain {entry : Entry} (plain : entry.isPlain = true) :
    entry.isDirectory = false := by
  cases entry with
  | directory => contradiction
  | _ => rfl

end Entry

/-- A name that is looked up in a directory. -/
def PathText.IsProper (name : Bytes) : Prop :=
  name ≠ dot ∧ name ≠ dotDot ∧ name.length ≤ nameLimit

/-- The place a target is at, whether it is taken or free. -/
def Target.place : Target → Place
  | .found place _ => place
  | .free dir name _ => dir ++ [name]

namespace FileTree

variable {tree tree' : FileTree} {follow slash : Bool} {links : Nat} {dir place : Place}
  {name : Bytes} {names rest : List Bytes} {entry : Entry} {target : Target}

/-! ## Walks as derivations -/

/-- What a walk comes to. -/
inductive Leads (tree : FileTree) (follow : Bool) :
    Nat → Place → List Bytes → Bool → Target → Prop
  | here {links : Nat} {dir : Place} {slash : Bool} {entry : Entry} :
      tree.get? dir = some entry → Leads tree follow links dir [] slash (.found dir entry)
  | stay {links : Nat} {dir : Place} {rest : List Bytes} {slash : Bool} {target : Target} :
      Leads tree follow links dir rest slash target →
      Leads tree follow links dir (PathText.dot :: rest) slash target
  | up {links : Nat} {dir : Place} {rest : List Bytes} {slash : Bool} {target : Target} :
      Leads tree follow links dir.dropLast rest slash target →
      Leads tree follow links dir (PathText.dotDot :: rest) slash target
  | free {links : Nat} {dir : Place} {name : Bytes} {slash : Bool} :
      PathText.IsProper name → tree.get? (dir ++ [name]) = none →
      Leads tree follow links dir [name] slash (.free dir name slash)
  | plain {links : Nat} {dir : Place} {name : Bytes} {entry : Entry} :
      PathText.IsProper name → tree.get? (dir ++ [name]) = some entry → entry.isPlain = true →
      Leads tree follow links dir [name] false (.found (dir ++ [name]) entry)
  | into {links : Nat} {dir : Place} {name : Bytes} {rest : List Bytes} {slash : Bool}
      {mode : Nat} {target : Target} :
      PathText.IsProper name → tree.get? (dir ++ [name]) = some (.directory mode) →
      Leads tree follow links (dir ++ [name]) rest slash target →
      Leads tree follow links dir (name :: rest) slash target
  /-- The last name is a link that is not to be followed. -/
  | link {links : Nat} {dir : Place} {name goal : Bytes} :
      PathText.IsProper name → tree.get? (dir ++ [name]) = some (.link goal) → follow = false →
      Leads tree follow links dir [name] false (.found (dir ++ [name]) (.link goal))
  | through {links : Nat} {dir : Place} {name goal : Bytes} {rest : List Bytes} {slash : Bool}
      {target : Target} :
      PathText.IsProper name → tree.get? (dir ++ [name]) = some (.link goal) →
      (rest.isEmpty && !follow && !slash) = false →
      Leads tree follow links (if (PathText.parse goal).absolute then [] else dir)
        ((PathText.parse goal).names ++ rest)
        (if rest.isEmpty then slash || (PathText.parse goal).trailingSlash else slash) target →
      Leads tree follow (links + 1) dir (name :: rest) slash target

theorem isPlain_of_ne (notDirectory : ∀ mode, entry ≠ .directory mode)
    (notLink : ∀ goal, entry ≠ .link goal) : entry.isPlain = true := by
  cases entry with
  | directory mode => exact absurd rfl (notDirectory mode)
  | link goal => exact absurd rfl (notLink goal)
  | _ => rfl

theorem leads_of_walk (h : tree.walk follow links dir names slash = .ok target) :
    Leads tree follow links dir names slash target := by
  fun_induction walk tree follow links dir names slash with
  | case1 _ _ _ _ hentry =>
      cases h
      exact .here hentry
  | case3 _ _ _ _ ih => exact .stay (ih h)
  | case4 _ _ _ _ _ ih => exact .up (ih h)
  | case6 _ _ _ rest _ hdot hdots hlength hnone hlast =>
      cases h
      rw [List.isEmpty_iff.mp hlast]
      exact .free ⟨hdot, hdots, Nat.le_of_not_lt hlength⟩ hnone
  | case8 _ _ _ _ _ hdot hdots hlength _ hentry ih =>
      exact .into ⟨hdot, hdots, Nat.le_of_not_lt hlength⟩ hentry (ih h)
  | case9 _ _ _ rest _ hdot hdots hlength _ hentry hstops =>
      cases h
      simp only [Bool.and_eq_true, Bool.not_eq_true', List.isEmpty_iff] at hstops
      obtain ⟨⟨hlast, hfollow⟩, hslash⟩ := hstops
      rw [hlast, hslash]
      exact .link ⟨hdot, hdots, Nat.le_of_not_lt hlength⟩ hentry hfollow
  | case11 _ _ rest _ hdot hdots hlength goal hentry hgoes links path ih =>
      refine .through ⟨hdot, hdots, Nat.le_of_not_lt hlength⟩ hentry
        (Bool.eq_false_iff.mpr hgoes) ?_
      simpa only [dite_eq_ite] using ih h
  | case12 _ _ _ rest _ hdot hdots hlength _ hnotDirectory hnotLink hentry hstops =>
      cases h
      simp only [Bool.and_eq_true, Bool.not_eq_true', List.isEmpty_iff] at hstops
      obtain ⟨hlast, hslash⟩ := hstops
      rw [hlast, hslash]
      exact .plain ⟨hdot, hdots, Nat.le_of_not_lt hlength⟩ hentry
        (isPlain_of_ne hnotDirectory hnotLink)
  | _ => contradiction

/-- The lookup of a proper name. -/
theorem walk_cons (proper : PathText.IsProper name) :
    tree.walk follow links dir (name :: rest) slash =
      match tree.get? (dir ++ [name]) with
      | none => if rest.isEmpty then .ok (.free dir name slash) else .error .noEntry
      | some (.directory _) => tree.walk follow links (dir ++ [name]) rest slash
      | some (.link goal) =>
          if rest.isEmpty && !follow && !slash then .ok (.found (dir ++ [name]) (.link goal))
          else
            match links with
            | 0 => .error .tooManyLinks
            | links + 1 =>
                tree.walk follow links (if (PathText.parse goal).absolute then [] else dir)
                  ((PathText.parse goal).names ++ rest)
                  (if rest.isEmpty then slash || (PathText.parse goal).trailingSlash else slash)
      | some entry =>
          if rest.isEmpty && !slash then .ok (.found (dir ++ [name]) entry)
          else .error .notDirectory := by
  rw [walk, if_neg proper.1, if_neg proper.2.1]
  exact if_neg (Nat.not_lt_of_le proper.2.2)

theorem Leads.walk (h : Leads tree follow links dir names slash target) :
    tree.walk follow links dir names slash = .ok target := by
  induction h with
  | here hentry => rw [FileTree.walk, hentry]
  | stay _ ih => rw [FileTree.walk, if_pos rfl, ih]
  | up _ ih => rw [FileTree.walk, if_neg (by decide), if_pos rfl, ih]
  | free proper hnone => rw [walk_cons proper, hnone, List.isEmpty_nil, if_pos rfl]
  | plain proper hentry hplain =>
      rw [walk_cons proper, hentry]
      split
      · contradiction
      · rename_i heq
        cases heq
        contradiction
      · rename_i heq
        cases heq
        contradiction
      · rename_i heq
        cases heq
        rfl
  | into proper hentry _ ih => rw [walk_cons proper, hentry, ih]
  | link proper hentry hfollow =>
      rw [walk_cons proper, hentry, hfollow]
      rfl
  | through proper hentry hgoes _ ih =>
      rw [walk_cons proper, hentry]
      simp only [hgoes, Bool.false_eq_true, if_false]
      exact ih

theorem walk_eq_ok :
    tree.walk follow links dir names slash = .ok target ↔
      Leads tree follow links dir names slash target :=
  ⟨leads_of_walk, Leads.walk⟩

/-- A walk comes to one target. -/
theorem Leads.unique {target' : Target} (h : Leads tree follow links dir names slash target)
    (h' : Leads tree follow links dir names slash target') : target = target' := by
  have hwalk := h.walk.symm.trans h'.walk
  exact Except.ok.inj hwalk

/-! ## What a target says about the tree -/

/-- Every entry lies in a directory. -/
def Rooted (tree : FileTree) : Prop :=
  ∀ (place : Place) (entry : Entry), tree.get? place = some entry →
    tree.isDirectory place.dropLast = true

theorem isDirectory_iff :
    tree.isDirectory place = true ↔ ∃ mode, tree.get? place = some (.directory mode) := by
  rw [isDirectory, Option.any_eq_true]
  constructor
  · rintro ⟨entry, hentry, hdirectory⟩
    cases entry with
    | directory mode => exact ⟨mode, hentry⟩
    | _ => contradiction
  · rintro ⟨mode, hentry⟩
    exact ⟨_, hentry, rfl⟩

theorem isDirectory_root (tree : FileTree) : tree.isDirectory [] = true := rfl

theorem WellFormed.rooted (h : tree.WellFormed) : tree.Rooted := by
  intro place entry hentry
  by_cases hroot : place = []
  · subst hroot
    rfl
  · have hlookup : tree.entries.lookup place = some entry := by
      rwa [get?, if_neg (by simpa using hroot)] at hentry
    obtain ⟨before, after, heq, -⟩ := List.lookup_eq_some_iff.mp hlookup
    exact h.inDirectory (place, entry) (by rw [heq]; simp)

theorem Leads.get?_found (h : Leads tree follow links dir names slash (.found place entry)) :
    tree.get? place = some entry := by
  generalize htarget : Target.found place entry = target at h
  induction h with
  | stay _ ih | up _ ih | into _ _ _ ih | through _ _ _ _ ih => exact ih htarget
  | free => contradiction
  | here hentry | plain _ hentry | link _ hentry =>
      cases htarget
      exact hentry

theorem Leads.get?_free {last : Place} {s : Bool}
    (h : Leads tree follow links dir names slash (.free last name s)) :
    PathText.IsProper name ∧ tree.get? (last ++ [name]) = none := by
  generalize htarget : Target.free last name s = target at h
  induction h with
  | stay _ ih | up _ ih | into _ _ _ ih | through _ _ _ _ ih => exact ih htarget
  | free proper hnone =>
      cases htarget
      exact ⟨proper, hnone⟩
  | here | plain | link => contradiction

/-- Where a walk sets out after a link. -/
theorem isDirectory_origin {absolute : Bool} (h : tree.isDirectory dir = true) :
    tree.isDirectory (if absolute then [] else dir) = true := by
  cases absolute with
  | true => exact isDirectory_root tree
  | false => exact h

/-- A walk that sets out in a directory ends in one, or at a name in one. -/
theorem Leads.ends (h : Leads tree follow links dir names slash target) (rooted : tree.Rooted)
    (start : tree.isDirectory dir = true) :
    (∃ place mode, target = .found place (.directory mode)) ∨
      ∃ last name, tree.isDirectory last = true ∧ target.place = last ++ [name] := by
  induction h with
  | here hentry =>
      obtain ⟨mode, hdirectory⟩ := isDirectory_iff.mp start
      rw [hdirectory] at hentry
      cases hentry
      exact Or.inl ⟨_, mode, rfl⟩
  | stay _ ih => exact ih start
  | up _ ih =>
      obtain ⟨mode, hdirectory⟩ := isDirectory_iff.mp start
      exact ih (rooted _ _ hdirectory)
  | free | plain | link => exact Or.inr ⟨_, _, start, rfl⟩
  | into _ hentry _ ih => exact ih (isDirectory_iff.mpr ⟨_, hentry⟩)
  | through _ _ _ _ ih => exact ih (isDirectory_origin start)

/-! ## The same walk in another tree -/

/-- Whatever a walk can pass through in the first tree is there in the second. -/
structure Passes (tree tree' : FileTree) : Prop where
  directory : ∀ {place : Place} {mode : Nat}, tree.get? place = some (.directory mode) →
    ∃ mode', tree'.get? place = some (.directory mode')
  link : ∀ {place : Place} {goal : Bytes}, tree.get? place = some (.link goal) →
    tree'.get? place = some (.link goal)

theorem Passes.refl (tree : FileTree) : Passes tree tree :=
  ⟨fun h => ⟨_, h⟩, fun h => h⟩

theorem Passes.trans {tree'' : FileTree} (h : Passes tree tree') (h' : Passes tree' tree'') :
    Passes tree tree'' := by
  refine ⟨?_, fun hlink => h'.link (h.link hlink)⟩
  intro place mode hentry
  obtain ⟨mode', hentry'⟩ := h.directory hentry
  exact h'.directory hentry'

theorem Passes.isDirectory (h : Passes tree tree') (hdir : tree.isDirectory place = true) :
    tree'.isDirectory place = true := by
  obtain ⟨mode, hentry⟩ := isDirectory_iff.mp hdir
  exact isDirectory_iff.mpr (h.directory hentry)

variable (passes : Passes tree tree')
include passes

/-- What was found is found again, if it is still there. -/
theorem Leads.found_again (h : Leads tree follow links dir names slash (.found place entry))
    (there : entry.isPlain = true → ∃ entry', tree'.get? place = some entry' ∧
      entry'.isPlain = true) :
    ∃ entry', Leads tree' follow links dir names slash (.found place entry') := by
  -- The induction is on the walk, so its target has to be a variable.
  generalize htarget : Target.found place entry = target at h
  induction h with
  | @here _ dir _ e hentry =>
      cases htarget
      cases hkind : entry with
      | directory mode =>
          obtain ⟨mode', hentry'⟩ := passes.directory (hkind ▸ hentry)
          exact ⟨_, .here hentry'⟩
      -- What the walk passes through is there again; only a plain entry may have changed.
      | link goal => exact ⟨_, .here (passes.link (hkind ▸ hentry))⟩
      | _ =>
          obtain ⟨entry', hentry', -⟩ := there (by rw [hkind]; rfl)
          exact ⟨_, .here hentry'⟩
  | stay _ ih =>
      obtain ⟨entry', hlater⟩ := ih htarget
      exact ⟨entry', .stay hlater⟩
  | up _ ih =>
      obtain ⟨entry', hlater⟩ := ih htarget
      exact ⟨entry', .up hlater⟩
  | free => contradiction
  | plain proper _ hplain =>
      cases htarget
      obtain ⟨entry', hentry', hplain'⟩ := there hplain
      exact ⟨entry', .plain proper hentry' hplain'⟩
  | into proper hentry _ ih =>
      obtain ⟨mode', hentry'⟩ := passes.directory hentry
      obtain ⟨entry', hlater⟩ := ih htarget
      exact ⟨entry', .into proper hentry' hlater⟩
  | link proper hentry hfollow =>
      cases htarget
      exact ⟨_, .link proper (passes.link hentry) hfollow⟩
  | through proper hentry hgoes _ ih =>
      obtain ⟨entry', hlater⟩ := ih htarget
      exact ⟨entry', .through proper (passes.link hentry) hgoes hlater⟩

/-- Once a plain entry is gone, its name is free. -/
theorem Leads.free_again (h : Leads tree follow links dir names slash (.found place entry))
    (rooted : tree.Rooted) (start : tree.isDirectory dir = true) (plain : entry.isPlain = true)
    (gone : tree'.get? place = none) :
    ∃ last name, place = last ++ [name] ∧
      Leads tree' follow links dir names slash (.free last name false) := by
  generalize htarget : Target.found place entry = target at h
  induction h with
  | here hentry =>
      cases htarget
      obtain ⟨mode, hdirectory⟩ := isDirectory_iff.mp start
      rw [hdirectory] at hentry
      cases hentry
      contradiction
  | stay _ ih =>
      obtain ⟨last, name, hplace, hlater⟩ := ih start htarget
      exact ⟨last, name, hplace, .stay hlater⟩
  | up _ ih =>
      obtain ⟨mode, hdirectory⟩ := isDirectory_iff.mp start
      obtain ⟨last, name, hplace, hlater⟩ := ih (rooted _ _ hdirectory) htarget
      exact ⟨last, name, hplace, .up hlater⟩
  | free => contradiction
  | plain proper _ _ =>
      cases htarget
      exact ⟨_, _, rfl, .free proper gone⟩
  | into proper hentry _ ih =>
      obtain ⟨mode', hentry'⟩ := passes.directory hentry
      obtain ⟨last, name, hplace, hlater⟩ := ih (isDirectory_iff.mpr ⟨_, hentry⟩) htarget
      exact ⟨last, name, hplace, .into proper hentry' hlater⟩
  | link =>
      cases htarget
      contradiction
  | through proper hentry hgoes _ ih =>
      obtain ⟨last, name, hplace, hlater⟩ := ih (isDirectory_origin start) htarget
      exact ⟨last, name, hplace, .through proper (passes.link hentry) hgoes hlater⟩

/-- A name that was free is still free, if nothing has appeared there. -/
theorem Leads.still_free {last : Place} {s : Bool}
    (h : Leads tree follow links dir names slash (.free last name s))
    (none : tree'.get? (last ++ [name]) = none) :
    Leads tree' follow links dir names slash (.free last name s) := by
  generalize htarget : Target.free last name s = target at h
  induction h with
  | stay _ ih => exact .stay (ih htarget)
  | up _ ih => exact .up (ih htarget)
  | free proper _ =>
      cases htarget
      exact .free proper none
  | into proper hentry _ ih =>
      obtain ⟨mode', hentry'⟩ := passes.directory hentry
      exact .into proper hentry' (ih htarget)
  | through proper hentry hgoes _ ih =>
      exact .through proper (passes.link hentry) hgoes (ih htarget)
  | here | plain | link => contradiction

/-- A plain entry that has appeared under a free name is found. -/
theorem Leads.appears {last : Place}
    (h : Leads tree follow links dir names slash (.free last name false))
    (now : tree'.get? (last ++ [name]) = some entry) (plain : entry.isPlain = true) :
    Leads tree' follow links dir names slash (.found (last ++ [name]) entry) := by
  generalize htarget : Target.free last name false = target at h
  induction h with
  | stay _ ih => exact .stay (ih htarget)
  | up _ ih => exact .up (ih htarget)
  | free proper _ =>
      cases htarget
      exact .plain proper now plain
  | into proper hentry _ ih =>
      obtain ⟨mode', hentry'⟩ := passes.directory hentry
      exact .into proper hentry' (ih htarget)
  | through proper hentry hgoes _ ih =>
      exact .through proper (passes.link hentry) hgoes (ih htarget)
  | here | plain | link => contradiction

/-- A directory that has appeared under a free name is found, also where the path asks for
one. -/
theorem Leads.directory_appears {last : Place} {s : Bool} {mode : Nat}
    (h : Leads tree follow links dir names slash (.free last name s))
    (now : tree'.get? (last ++ [name]) = some (.directory mode)) (slash' : Bool) :
    Leads tree' true links dir names slash' (.found (last ++ [name]) (.directory mode)) := by
  generalize htarget : Target.free last name s = target at h
  induction h generalizing slash' with
  | stay _ ih => exact .stay (ih slash' htarget)
  | up _ ih => exact .up (ih slash' htarget)
  | free proper _ =>
      cases htarget
      exact .into proper now (.here now)
  | into proper hentry _ ih =>
      obtain ⟨mode', hentry'⟩ := passes.directory hentry
      exact .into proper hentry' (ih slash' htarget)
  | through proper hentry hgoes _ ih =>
      exact .through proper (passes.link hentry) (by simp) (ih _ htarget)
  | here | plain | link => contradiction

omit passes

/-! ## Following the last link, or asking for a directory -/

/-- A walk that does not end at a link goes the same way if links are followed. -/
theorem Leads.following (h : Leads tree false links dir names slash target)
    (notLink : ∀ place goal, target ≠ .found place (.link goal)) :
    Leads tree true links dir names slash target := by
  induction h with
  | here hentry => exact .here hentry
  | stay _ ih => exact .stay (ih notLink)
  | up _ ih => exact .up (ih notLink)
  | free proper hnone => exact .free proper hnone
  | plain proper hentry hplain => exact .plain proper hentry hplain
  | into proper hentry _ ih => exact .into proper hentry (ih notLink)
  | link => exact absurd rfl (notLink _ _)
  | through proper hentry _ _ ih => exact .through proper hentry (by simp) (ih notLink)

/-- Without following links a walk goes the same way or ends at a link. -/
theorem Leads.unfollowed (h : Leads tree true links dir names slash target) :
    Leads tree false links dir names slash target ∨
      ∃ place goal, Leads tree false links dir names slash (.found place (.link goal)) := by
  induction h with
  | here hentry => exact Or.inl (.here hentry)
  | stay _ ih =>
      rcases ih with h | ⟨place, goal, h⟩
      · exact Or.inl (.stay h)
      · exact Or.inr ⟨place, goal, .stay h⟩
  | up _ ih =>
      rcases ih with h | ⟨place, goal, h⟩
      · exact Or.inl (.up h)
      · exact Or.inr ⟨place, goal, .up h⟩
  | free proper hnone => exact Or.inl (.free proper hnone)
  | plain proper hentry hplain => exact Or.inl (.plain proper hentry hplain)
  | into proper hentry _ ih =>
      rcases ih with h | ⟨place, goal, h⟩
      · exact Or.inl (.into proper hentry h)
      · exact Or.inr ⟨place, goal, .into proper hentry h⟩
  | link _ _ hfollow => contradiction
  | @through links dir name goal rest slash target proper hentry _ _ ih =>
      by_cases hstops : (rest.isEmpty && !false && !slash) = true
      · simp only [Bool.and_eq_true, Bool.not_eq_true', List.isEmpty_iff] at hstops
        obtain ⟨⟨hlast, -⟩, hslash⟩ := hstops
        rw [hlast, hslash]
        exact Or.inr ⟨_, goal, .link proper hentry rfl⟩
      · have hgoes := Bool.eq_false_iff.mpr hstops
        rcases ih with h | ⟨place, goal', h⟩
        · exact Or.inl (.through proper hentry hgoes h)
        · exact Or.inr ⟨place, goal', .through proper hentry hgoes h⟩

/-- A path that asks for a directory and finds something finds the same without asking. -/
theorem Leads.unasked (h : Leads tree true links dir names slash (.found place entry))
    (asked : slash = true) (slash' : Bool) :
    Leads tree true links dir names slash' (.found place entry) := by
  generalize htarget : Target.found place entry = target at h
  induction h generalizing slash' with
  | here hentry => exact .here hentry
  | stay _ ih => exact .stay (ih asked slash' htarget)
  | up _ ih => exact .up (ih asked slash' htarget)
  | into proper hentry _ ih => exact .into proper hentry (ih asked slash' htarget)
  | free | plain | link => contradiction
  | through proper hentry _ _ ih =>
      refine .through proper hentry (by simp) (ih ?_ _ htarget)
      subst asked
      split <;> rfl

/-- What is no directory is not found by a path that asks for one. -/
theorem Leads.file_unasked (h : Leads tree follow links dir names slash (.found place entry))
    (file : entry.isDirectory = false) (rooted : tree.Rooted)
    (start : tree.isDirectory dir = true) : slash = false := by
  generalize htarget : Target.found place entry = target at h
  induction h with
  | here hentry =>
      cases htarget
      obtain ⟨mode, hdirectory⟩ := isDirectory_iff.mp start
      rw [hdirectory] at hentry
      cases hentry
      contradiction
  | stay _ ih => exact ih start htarget
  | up _ ih =>
      obtain ⟨mode, hdirectory⟩ := isDirectory_iff.mp start
      exact ih (rooted _ _ hdirectory) htarget
  | free => contradiction
  | plain | link => rfl
  | into _ hentry _ ih => exact ih (isDirectory_iff.mpr ⟨_, hentry⟩) htarget
  | through _ _ _ _ ih =>
      have hinner := ih (isDirectory_origin start) htarget
      split at hinner
      · exact (Bool.or_eq_false_iff.mp hinner).1
      · exact hinner

theorem Leads.plain_unasked (h : Leads tree follow links dir names slash (.found place entry))
    (plain : entry.isPlain = true) (rooted : tree.Rooted) (start : tree.isDirectory dir = true) :
    slash = false :=
  h.file_unasked (Entry.isDirectory_of_isPlain plain) rooted start

/-- A free name lies in a directory. -/
theorem Leads.free_inDirectory {last : Place} {s : Bool}
    (h : Leads tree follow links dir names slash (.free last name s)) (rooted : tree.Rooted)
    (start : tree.isDirectory dir = true) : tree.isDirectory last = true := by
  rcases h.ends rooted start with ⟨place, mode, htarget⟩ | ⟨other, name', hother, hplace⟩
  · contradiction
  · obtain ⟨rfl, -⟩ := List.append_inj' hplace rfl
    exact hother

/-- A free name is asked for as the path asks for it, or more strictly. -/
theorem Leads.free_asked {last : Place} {s : Bool}
    (h : Leads tree follow links dir names slash (.free last name s)) (asked : slash = true) :
    s = true := by
  generalize htarget : Target.free last name s = target at h
  induction h with
  | stay _ ih | up _ ih | into _ _ _ ih => exact ih asked htarget
  | free =>
      cases htarget
      exact asked
  | here | plain | link => contradiction
  | through _ _ _ _ ih =>
      refine ih ?_ htarget
      subst asked
      split <;> rfl

/-- Only a link that is followed can ask for a directory where the path does not. -/
theorem Leads.free_unasked {last : Place} {s : Bool}
    (h : Leads tree false links dir names slash (.free last name s)) (unasked : slash = false) :
    s = false := by
  generalize htarget : Target.free last name s = target at h
  induction h with
  | stay _ ih | up _ ih | into _ _ _ ih => exact ih unasked htarget
  | free =>
      cases htarget
      exact unasked
  | here | plain | link => contradiction
  | through _ _ hgoes _ ih =>
      refine ih ?_ htarget
      subst unasked
      split
      · rename_i hlast
        rw [hlast] at hgoes
        contradiction
      · rfl

/-! ## A path and a longer one -/

/-- A walk passes through the directory at `last`, which a part of its path leads to, and
goes on from there with the rest. -/
def Passed (tree : FileTree) (follow : Bool) (links : Nat) (dir : Place) (names rest : List Bytes)
    (slash : Bool) (target : Target) : Prop :=
  ∃ links' last mode, tree.isDirectory last = true ∧
    (∀ slash', Leads tree true links dir names slash' (.found last (.directory mode))) ∧
    Leads tree follow links' last rest slash target

/-- A part with no name in it leads to where the walk sets out. -/
theorem Leads.passed_nil (h : Leads tree follow links dir rest slash target)
    (start : tree.isDirectory dir = true) :
    Passed tree follow links dir [] rest slash target := by
  obtain ⟨mode, hdirectory⟩ := isDirectory_iff.mp start
  exact ⟨links, dir, mode, start, fun _ => .here hdirectory, h⟩

theorem Leads.passed_single (h : Leads tree follow links dir [name] slash target)
    (hnames : names ++ rest = [name]) (more : rest ≠ []) (start : tree.isDirectory dir = true) :
    Passed tree follow links dir names rest slash target := by
  cases names with
  | nil =>
      have hrest : rest = [name] := hnames
      subst hrest
      exact Leads.passed_nil h start
  | cons first names => exact absurd (List.append_eq_nil_iff.mp (List.cons.inj hnames).2).2 more

theorem Leads.passed (h : Leads tree follow links dir (names ++ rest) slash target)
    (more : rest ≠ []) (rooted : tree.Rooted) (start : tree.isDirectory dir = true) :
    Passed tree follow links dir names rest slash target := by
  generalize hnames : names ++ rest = all at h
  induction h generalizing names with
  | here => exact absurd (List.append_eq_nil_iff.mp hnames).2 more
  | stay hlater ih =>
      cases names with
      | nil =>
          subst hnames
          exact Leads.passed_nil (.stay hlater) start
      | cons first names =>
          cases hnames
          obtain ⟨links', last, mode, hlast, hpart, hrest⟩ := ih start rfl
          exact ⟨links', last, mode, hlast, fun slash' => .stay (hpart slash'), hrest⟩
  | up hlater ih =>
      cases names with
      | nil =>
          subst hnames
          exact Leads.passed_nil (.up hlater) start
      | cons first names =>
          cases hnames
          obtain ⟨mode, hdirectory⟩ := isDirectory_iff.mp start
          obtain ⟨links', last, mode, hlast, hpart, hrest⟩ := ih (rooted _ _ hdirectory) rfl
          exact ⟨links', last, mode, hlast, fun slash' => .up (hpart slash'), hrest⟩
  | free proper hnone => exact Leads.passed_single (.free proper hnone) hnames more start
  | plain proper hentry hplain =>
      exact Leads.passed_single (.plain proper hentry hplain) hnames more start
  | link proper hentry hfollow =>
      exact Leads.passed_single (.link proper hentry hfollow) hnames more start
  | into proper hentry hlater ih =>
      cases names with
      | nil =>
          subst hnames
          exact Leads.passed_nil (.into proper hentry hlater) start
      | cons first names =>
          cases hnames
          obtain ⟨links', last, mode, hlast, hpart, hrest⟩ :=
            ih (isDirectory_iff.mpr ⟨_, hentry⟩) rfl
          exact ⟨links', last, mode, hlast, fun slash' => .into proper hentry (hpart slash'), hrest⟩
  | @through _ _ _ goal _ _ _ proper hentry hgoes hlater ih =>
      cases names with
      | nil =>
          subst hnames
          exact Leads.passed_nil (.through proper hentry hgoes hlater) start
      | cons first names =>
          cases hnames
          -- The rest of the path stands behind the names of the link's target.
          have hsplit : ((PathText.parse goal).names ++ names) ++ rest =
              (PathText.parse goal).names ++ (names ++ rest) := List.append_assoc _ _ _
          have hmore : (names.append rest).isEmpty = false := by
            show (names ++ rest).isEmpty = false
            simp [more]
          obtain ⟨links', last, mode, hlast, hpart, hrest⟩ := ih (isDirectory_origin start) hsplit
          rw [hmore, if_neg Bool.false_ne_true] at hrest
          exact ⟨links', last, mode, hlast,
            fun slash' => .through proper hentry (by simp) (hpart _), hrest⟩

/-- A path that ends in dots leads to a directory. -/
theorem Leads.dots {last : Bytes} (h : Leads tree follow links dir (names ++ [last]) slash target)
    (dots : last = PathText.dot ∨ last = PathText.dotDot) (rooted : tree.Rooted)
    (start : tree.isDirectory dir = true) :
    ∃ place mode, target = .found place (.directory mode) := by
  obtain ⟨links', place, mode, hplace, -, hrest⟩ :=
    h.passed (List.cons_ne_nil last []) rooted start
  have hhere {links : Nat} {dir : Place} (hdir : tree.isDirectory dir = true)
      (hlast : Leads tree follow links dir [] slash target) :
      ∃ place mode, target = .found place (.directory mode) := by
    obtain ⟨mode, hdirectory⟩ := isDirectory_iff.mp hdir
    exact ⟨dir, mode, hlast.unique (.here hdirectory)⟩
  cases hrest with
  | stay hlast => exact hhere hplace hlast
  | up hlast =>
      obtain ⟨mode, hdirectory⟩ := isDirectory_iff.mp hplace
      exact hhere (rooted _ _ hdirectory) hlast
  | free proper | plain proper | into proper | link proper | through proper =>
      rcases dots with hdot | hdots
      · exact absurd hdot proper.1
      · exact absurd hdots proper.2.1

end FileTree

end SearchDaemon
