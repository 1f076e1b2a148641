import Mathlib.Data.List.Nodup
import Mathlib.Data.List.Perm.Subperm
import SearchDaemon.FileTree.Listing
import SearchDaemon.Proofs.Directories

/-!
# What lies below a directory

`Below` is the way down from a directory to an entry, through directories only, and
`pathBelow` its text behind the text of the directory's own path. The names of a tree hold no
slash and no zero byte, so the text gives the names back and, read by the system, leads to the
entry that they lead to.
-/

namespace SearchDaemon

namespace PathText

variable {name : Bytes} {names names' : List Bytes} {dir path : Bytes}

/-- A name that an entry can have in a directory. -/
structure IsName (name : Bytes) : Prop where
  nonempty : name ≠ []
  noSlash : (47 : UInt8) ∉ name
  noZero : (0 : UInt8) ∉ name
  proper : IsProper name

instance : Decidable (IsProper name) :=
  inferInstanceAs (Decidable (name ≠ dot ∧ name ≠ dotDot ∧ name.length ≤ nameLimit))

instance : Decidable (IsName name) :=
  decidable_of_iff (name ≠ [] ∧ (47 : UInt8) ∉ name ∧ (0 : UInt8) ∉ name ∧ IsProper name)
    ⟨fun ⟨h, h47, h0, hproper⟩ => ⟨h, h47, h0, hproper⟩,
      fun h => ⟨h.nonempty, h.noSlash, h.noZero, h.proper⟩⟩

/-! ## The text of a way down -/

/-- The path that goes on with these names behind the path of a directory. -/
def pathBelow (dir : Bytes) (names : List Bytes) : Bytes :=
  (if dir.getLast? = some 47 then dir else dir ++ [47]) ++ FileTree.joinNames names

theorem splitNames_joinNames (legal : ∀ n ∈ names, IsName n) :
    splitNames (FileTree.joinNames names) = names := by
  induction names with
  | nil => rfl
  | cons name rest ih =>
      have hname := legal name List.mem_cons_self
      have hsingle : splitNames name = [name] := by
        rw [splitNames_single hname.noSlash, if_neg (by simpa using hname.nonempty)]
      cases rest with
      | nil => exact hsingle
      | cons next rest =>
          rw [FileTree.joinNames, splitNames_append, hsingle,
            ih fun n hn => legal n (List.mem_cons_of_mem _ hn)]
          · rfl
          · exact nofun

theorem splitNames_pathBelow (legal : ∀ n ∈ names, IsName n) :
    splitNames (pathBelow dir names) = splitNames dir ++ names := by
  rw [pathBelow]
  split
  · rename_i hslash
    obtain ⟨front, rfl⟩ := List.getLast?_eq_some_iff.mp hslash
    have hempty : splitNames [] = [] := rfl
    rw [List.append_assoc, List.singleton_append, splitNames_append, splitNames_append, hempty,
      List.append_nil, splitNames_joinNames legal]
  · rw [List.append_assoc, List.singleton_append, splitNames_append, splitNames_joinNames legal]

/-- The text gives the names back. -/
theorem pathBelow_inj (legal : ∀ n ∈ names, IsName n) (legal' : ∀ n ∈ names', IsName n)
    (h : pathBelow dir names = pathBelow dir names') : names = names' := by
  have hsplit := congrArg splitNames h
  rw [splitNames_pathBelow legal, splitNames_pathBelow legal'] at hsplit
  exact List.append_cancel_left hsplit

theorem joinNames_last (legal : ∀ n ∈ names, IsName n) (some : names ≠ []) :
    ∃ front b, FileTree.joinNames names = front ++ [b] ∧ b ≠ 47 := by
  induction names with
  | nil => contradiction
  | cons name rest ih =>
      cases rest with
      | nil =>
          have hname := legal name List.mem_cons_self
          obtain hnil | ⟨front, b, hlast⟩ := List.eq_nil_or_concat name
          · exact absurd hnil hname.nonempty
          · rw [List.concat_eq_append] at hlast
            refine ⟨front, b, hlast, ?_⟩
            rintro rfl
            exact hname.noSlash (by rw [hlast]; simp)
      | cons next rest =>
          obtain ⟨front, b, hlast, hb⟩ :=
            ih (fun n hn => legal n (List.mem_cons_of_mem _ hn)) (List.cons_ne_nil _ _)
          refine ⟨name ++ 47 :: front, b, ?_, hb⟩
          rw [FileTree.joinNames, hlast, List.append_assoc, List.cons_append]
          exact nofun

theorem zero_not_mem_joinNames (legal : ∀ n ∈ names, IsName n) :
    (0 : UInt8) ∉ FileTree.joinNames names := by
  induction names with
  | nil => exact nofun
  | cons name rest ih =>
      have hname := (legal name List.mem_cons_self).noZero
      have hrest := ih fun n hn => legal n (List.mem_cons_of_mem _ hn)
      cases rest with
      | nil => exact hname
      | cons next rest =>
          rw [FileTree.joinNames]
          · simp [hname, hrest]
          · exact nofun

/-- How the system reads the path of something below a directory. -/
theorem parse_pathBelow (legal : ∀ n ∈ names, IsName n) (some : names ≠ []) (given : dir ≠ [])
    (clear : (0 : UInt8) ∉ dir) :
    parse (pathBelow dir names) =
        { absolute := (parse dir).absolute
          names := (parse dir).names ++ names
          trailingSlash := false } ∧
      (pathBelow dir names).untilZero = pathBelow dir names := by
  obtain ⟨front, b, hlast, hb⟩ := joinNames_last legal some
  have hwhole : (pathBelow dir names).untilZero = pathBelow dir names := by
    apply untilZero_of_not_mem
    rw [pathBelow]
    split <;> simp [clear, zero_not_mem_joinNames legal]
  have hhead : (pathBelow dir names).head? = dir.head? := by
    rw [pathBelow]
    split
    · exact List.head?_append_of_ne_nil _ given
    · rw [List.append_assoc]
      exact List.head?_append_of_ne_nil _ given
  have hend : (pathBelow dir names).getLast? = Option.some b := by
    rw [pathBelow, hlast, ← List.append_assoc, List.getLast?_concat]
  refine ⟨?_, hwhole⟩
  simp only [parse, hwhole, untilZero_of_not_mem clear, hhead, hend,
    splitNames_pathBelow legal, Option.some.injEq, hb, decide_false]

end PathText

namespace FileTree

open PathText (IsName pathBelow)

variable {tree tree' : FileTree} {follow slash : Bool} {links mode : Nat} {cwd dir place : Place}
  {name path : Bytes} {names rest : List Bytes} {entry : Entry} {target : Target}

/-- All entries have names that a directory can hold. -/
def Named (tree : FileTree) : Prop :=
  ∀ place entry, tree.get? place = some entry → ∀ name ∈ place, IsName name

theorem get?_of_ne_nil (hplace : place ≠ []) :
    tree.get? place = tree.entries.lookup place := by
  rw [FileTree.get?, if_neg (by simpa using hplace)]

theorem named_of_entries (h : ∀ e ∈ tree.entries, ∀ name ∈ e.1, IsName name) : tree.Named := by
  intro place entry hentry name hname
  have hplace : place ≠ [] := List.ne_nil_of_mem hname
  rw [get?_of_ne_nil hplace] at hentry
  obtain ⟨before, after, heq, -⟩ := List.lookup_eq_some_iff.mp hentry
  exact h (place, entry) (by rw [heq]; simp) name hname

/-! ## The way down -/

/-- The names lead down from a directory to an entry, through directories only. -/
inductive Below (tree : FileTree) : Place → List Bytes → Entry → Prop
  | child {dir : Place} {name : Bytes} {entry : Entry} :
      tree.get? (dir ++ [name]) = some entry → Below tree dir [name] entry
  | deeper {dir : Place} {name : Bytes} {mode : Nat} {names : List Bytes} {entry : Entry} :
      tree.get? (dir ++ [name]) = some (.directory mode) →
      Below tree (dir ++ [name]) names entry → Below tree dir (name :: names) entry

theorem Below.ne_nil (h : tree.Below dir names entry) : names ≠ [] := by
  cases h <;> exact List.cons_ne_nil _ _

theorem Below.get? (h : tree.Below dir names entry) : tree.get? (dir ++ names) = some entry := by
  induction h with
  | child hentry => exact hentry
  | deeper _ _ ih => rwa [List.append_assoc] at ih

theorem Below.legal (h : tree.Below dir names entry) (named : tree.Named) :
    ∀ n ∈ names, IsName n :=
  fun n hn => named _ _ h.get? n (List.mem_append_right _ hn)

theorem Below.same (h : tree.Below dir names entry) (same : Same tree tree') :
    tree'.Below dir names entry := by
  induction h with
  | child hentry => exact .child ((same _).symm.trans hentry)
  | deeper hdirectory _ ih => exact .deeper ((same _).symm.trans hdirectory) ih

/-- Every part of the way leads to an entry. -/
theorem Below.part (h : tree.Below dir names entry) :
    ∀ i < names.length, ∃ e, tree.get? (dir ++ names.take (i + 1)) = some e := by
  induction h with
  | child hentry =>
      intro i hi
      exact ⟨_, by rwa [List.take_of_length_le (by simp)]⟩
  | @deeper _ name _ names _ hdirectory _ ih =>
      rintro (_ | i) hi
      · exact ⟨_, hdirectory⟩
      · obtain ⟨e, he⟩ := ih i (Nat.lt_of_succ_lt_succ hi)
        refine ⟨e, ?_⟩
        rwa [List.append_assoc] at he

/-- A way down is no longer than the tree has entries. -/
theorem Below.length_le (h : tree.Below dir names entry) :
    names.length ≤ tree.entries.length := by
  let parts := (List.range names.length).map fun i => dir ++ names.take (i + 1)
  -- The places on the way differ in length.
  have hdistinct : parts.Nodup := by
    refine (List.nodup_range (n := names.length)).map_on ?_
    intro i hi j hj heq
    have hlength := congrArg List.length heq
    rw [List.mem_range] at hi hj
    simp only [List.length_append, List.length_take] at hlength
    omega
  have hentries : parts ⊆ tree.entries.map Prod.fst := by
    intro spot hspot
    obtain ⟨i, hi, rfl⟩ := List.mem_map.mp hspot
    obtain ⟨e, he⟩ := h.part i (List.mem_range.mp hi)
    have hne : dir ++ names.take (i + 1) ≠ [] := by
      have hpos := List.length_pos_of_ne_nil h.ne_nil
      apply List.ne_nil_of_length_pos
      rw [List.length_append, List.length_take]
      omega
    rw [get?_of_ne_nil hne] at he
    obtain ⟨before, after, heq, -⟩ := List.lookup_eq_some_iff.mp he
    exact List.mem_map.mpr ⟨(_, e), by rw [heq]; simp, rfl⟩
  have hle := (hdistinct.subperm hentries).length_le
  simpa [parts] using hle

/-! ## Looking up what lies below -/

/-- A walk depends on what the tree shows only. -/
theorem Leads.same (h : Leads tree follow links dir names slash target) (same : Same tree tree') :
    Leads tree' follow links dir names slash target := by
  induction h with
  | here hentry => exact .here ((same _).symm.trans hentry)
  | stay _ ih => exact .stay ih
  | up _ ih => exact .up ih
  | free proper hnone => exact .free proper ((same _).symm.trans hnone)
  | plain proper hentry hplain => exact .plain proper ((same _).symm.trans hentry) hplain
  | into proper hentry _ ih => exact .into proper ((same _).symm.trans hentry) ih
  | link proper hentry hfollow => exact .link proper ((same _).symm.trans hentry) hfollow
  | through proper hentry hfollow _ ih =>
      exact .through proper ((same _).symm.trans hentry) hfollow ih


theorem stat_same (h : tree.stat cwd path follow = .ok (place, entry)) (same : Same tree tree') :
    tree'.stat cwd path follow = .ok (place, entry) := by
  rw [stat_eq_ok] at h ⊢
  exact ⟨h.1, h.2.same same⟩

/-- A walk goes on behind a directory that it comes to. -/
theorem Leads.onward (h : Leads tree true links dir names slash (.found place (.directory mode)))
    (more : rest ≠ []) {slash' : Bool}
    (onward : ∀ links', Leads tree follow links' place rest slash' target) :
    Leads tree follow links dir (names ++ rest) slash' target := by
  generalize hfound : Target.found place (.directory mode) = found at h
  induction h with
  | here =>
      cases hfound
      exact onward _
  | stay _ ih => exact .stay (ih hfound)
  | up _ ih => exact .up (ih hfound)
  | free => contradiction
  | plain _ _ hplain =>
      cases hfound
      contradiction
  | into proper hentry _ ih => exact .into proper hentry (ih hfound)
  | link => contradiction
  | @through _ _ _ _ later _ _ proper hentry _ _ ih =>
      have hmore : (later ++ rest).isEmpty = false := by simp [more]
      rw [List.cons_append]
      refine .through proper hentry (by rw [hmore]; rfl) ?_
      rw [hmore, if_neg Bool.false_ne_true, ← List.append_assoc]
      exact ih hfound

/-- The way down is walked without following any link. -/
theorem Below.leads (h : tree.Below dir names entry) (named : tree.Named) (links : Nat) :
    Leads tree false links dir names false (.found (dir ++ names) entry) := by
  have hproper {dir : Place} {name : Bytes} {e : Entry} (he : tree.get? (dir ++ [name]) = some e) :
      PathText.IsProper name := (named _ _ he name (by simp)).proper
  induction h with
  | @child dir name entry hentry =>
      cases hkind : entry with
      | directory mode =>
          rw [hkind] at hentry
          exact .into (hproper hentry) hentry (.here hentry)
      | link goal =>
          rw [hkind] at hentry
          exact .link (hproper hentry) hentry rfl
      | _ =>
          rw [hkind] at hentry
          exact .plain (hproper hentry) hentry rfl
  | deeper hdirectory _ ih =>
      rw [List.append_assoc] at ih
      exact .into (hproper hdirectory) hdirectory ih

/-- The path of something below a directory leads there, unless it is too long. -/
theorem Below.stat (h : tree.Below place names entry) (named : tree.Named)
    (there : tree.stat cwd path = .ok (place, .directory mode)) (clear : (0 : UInt8) ∉ path)
    (short : (pathBelow path names).length < PathText.pathLimit) :
    tree.stat cwd (pathBelow path names) false = .ok (place ++ names, entry) := by
  obtain ⟨hcheck, hleads⟩ := stat_eq_ok.mp there
  have hgiven : path ≠ [] := by
    rintro rfl
    exact absurd (PathText.check_eq_ok.mp hcheck).1 (Nat.lt_irrefl 0)
  obtain ⟨hparse, hwhole⟩ :=
    PathText.parse_pathBelow (h.legal named) h.ne_nil hgiven clear
  rw [stat_eq_ok]
  refine ⟨?_, ?_⟩
  · rw [PathText.check_eq_ok, hwhole]
    refine ⟨?_, short⟩
    have hbegins : path <+: pathBelow path names := by
      rw [pathBelow]
      split
      · exact List.prefix_append _ _
      · rw [List.append_assoc]
        exact List.prefix_append _ _
    exact List.length_pos_of_ne_nil (hbegins.ne_nil hgiven)
  · have horigin : origin cwd (pathBelow path names) = origin cwd path := by
      rw [origin, origin, hparse]
    rw [horigin, hparse]
    exact hleads.onward h.ne_nil fun links' => h.leads named links'

end FileTree

end SearchDaemon
