import SearchDaemon.FileTree.Planting
import SearchDaemon.Proofs.Below
import SearchDaemon.Proofs.Premises

/-!
# Trees that are planted

A tree that is planted entry by entry, or that has been worked on by the calls on files, is
one: all its entries have names and lie in directories, and the working directory stays. So
what is proved of all trees that are well-formed holds of every tree that the calls can make.
-/

namespace SearchDaemon

namespace PathText

/-- The pieces of a list are made of what does not cut it. -/
theorem uncut_of_mem_splitOnP {p : UInt8 → Bool} {bs piece : Bytes} (h : piece ∈ bs.splitOnP p) :
    ∀ b ∈ piece, p b = false ∧ b ∈ bs := by
  induction bs generalizing piece with
  | nil =>
      rw [List.splitOnP_nil, List.mem_singleton] at h
      subst h
      exact nofun
  | cons first bs ih =>
      have hlater {piece : Bytes} (h : piece ∈ bs.splitOnP p) :
          ∀ b ∈ piece, p b = false ∧ b ∈ first :: bs := fun b hb =>
        ⟨(ih h b hb).1, List.mem_cons_of_mem first (ih h b hb).2⟩
      rw [List.splitOnP_cons_eq_if_modifyHead] at h
      split_ifs at h with hcuts
      · rcases List.mem_cons.mp h with rfl | hmem
        · exact nofun
        · exact hlater hmem
      · obtain ⟨head, rest, hsplit⟩ := List.exists_cons_of_ne_nil (List.splitOnP_ne_nil p bs)
        rw [hsplit, List.modifyHead_cons] at h
        rcases List.mem_cons.mp h with rfl | hmem
        · intro b hb
          rcases List.mem_cons.mp hb with rfl | hb
          · exact ⟨Bool.eq_false_iff.mpr hcuts, List.mem_cons_self⟩
          · exact hlater (hsplit ▸ List.mem_cons_self) b hb
        · exact hlater (hsplit ▸ List.mem_cons_of_mem head hmem)

/-- The names of a path hold no slash, and as a path ends before its first zero byte, they hold
no zero byte either. -/
theorem clean_of_mem_parse {path name : Bytes} (h : name ∈ (parse path).names) :
    name ≠ [] ∧ (47 : UInt8) ∉ name ∧ (0 : UInt8) ∉ name := by
  obtain ⟨hmem, hnonempty⟩ := List.mem_filter.mp h
  have huncut := uncut_of_mem_splitOnP hmem
  refine ⟨by simpa using hnonempty, fun hslash => ?_, fun hzero => ?_⟩
  · simpa using (huncut _ hslash).1
  · have hbefore := List.all_eq_true.mp List.all_takeWhile 0 (huncut _ hzero).2
    contradiction

end PathText

namespace FileTree

open PathText (IsName)

variable {tree tree' : FileTree} {cwd place dir : Place} {name path : Bytes} {entry : Entry}
  {follow slash : Bool} {mode : Nat} {v : Vantage}

/-- What can be relied on of a tree in which somebody works: it is well-formed, all its names
are legal, and the working directory is there. -/
structure Ground (cwd : Place) (tree : FileTree) : Prop where
  wellFormed : tree.WellFormed
  named : tree.Named
  workplace : tree.isDirectory cwd = true

theorem isDirectory_put (tree : FileTree) (entry : Entry) (nonempty : place ≠ []) (other : Place) :
    (tree.put place entry).isDirectory other =
      if other = place then entry.isDirectory else tree.isDirectory other := by
  rw [isDirectory, get?_put tree place entry other nonempty]
  split <;> rfl

/-! ## One entry -/

namespace Ground

/-- An entry is put into a directory, where it takes the place of no directory unless it is one
itself. -/
theorem put (ground : Ground cwd tree) (nonempty : place ≠ [])
    (inside : tree.isDirectory place.dropLast = true) (legal : ∀ n ∈ place, IsName n)
    (stays : tree.isDirectory place = true → entry.isDirectory = true) :
    Ground cwd (tree.put place entry) := by
  have hstays {other : Place} (h : tree.isDirectory other = true) :
      (tree.put place entry).isDirectory other = true := by
    rw [isDirectory_put tree entry nonempty]
    split
    · rename_i hsame
      exact stays (hsame ▸ h)
    · exact h
  refine ⟨⟨?_, ?_, ?_⟩, ?_, hstays ground.workplace⟩
  · intro e hmem
    rcases List.mem_cons.mp hmem with rfl | hold
    · exact nonempty
    · exact ground.wellFormed.named e (List.mem_of_mem_filter hold)
  · intro e hmem
    rcases List.mem_cons.mp hmem with rfl | hold
    · exact hstays inside
    · exact hstays (ground.wellFormed.inDirectory e (List.mem_of_mem_filter hold))
  · refine List.nodup_cons.mpr ⟨?_, ?_⟩
    · rintro hmem
      obtain ⟨e, he, hsame⟩ := List.mem_map.mp hmem
      exact absurd hsame (by simpa using (List.mem_filter.mp he).2)
    · exact (List.filter_sublist.map Prod.fst).nodup ground.wellFormed.distinct
  · intro other found hfound
    rw [get?_put tree place entry other nonempty] at hfound
    split at hfound
    · rename_i hsame
      exact hsame ▸ legal
    · exact ground.named other found hfound

/-- An entry that is there is changed, and stays a directory if it is one. -/
theorem change {changed : Entry} (ground : Ground cwd tree) (nonempty : place ≠ [])
    (there : tree.get? place = some entry)
    (stays : entry.isDirectory = true → changed.isDirectory = true) :
    Ground cwd (tree.put place changed) := by
  refine ground.put nonempty (ground.wellFormed.rooted _ _ there) (ground.named _ _ there) ?_
  intro hdirectory
  rw [isDirectory, there] at hdirectory
  exact stays hdirectory

end Ground

/-- A free name that a walk comes to is one of those that it was given, or one from a link. -/
theorem Leads.free_clean {links : Nat} {last : Place} {names : List Bytes} {s : Bool}
    (h : Leads tree follow links dir names slash (.free last name s))
    (clean : ∀ n ∈ names, n ≠ [] ∧ (47 : UInt8) ∉ n ∧ (0 : UInt8) ∉ n) :
    name ≠ [] ∧ (47 : UInt8) ∉ name ∧ (0 : UInt8) ∉ name := by
  generalize htarget : Target.free last name s = target at h
  induction h with
  | stay _ ih | up _ ih | into _ _ _ ih =>
      exact ih (fun n hn => clean n (List.mem_cons_of_mem _ hn)) htarget
  | free =>
      cases htarget
      exact clean name List.mem_cons_self
  | here | plain | link => contradiction
  | through _ _ _ _ ih =>
      refine ih (fun n hn => ?_) htarget
      rcases List.mem_append.mp hn with hgoal | hrest
      · exact PathText.clean_of_mem_parse hgoal
      · exact clean n (List.mem_cons_of_mem _ hrest)

namespace Ground

/-- What is put at a free name has a place in the tree. -/
theorem put_free (ground : Ground cwd tree)
    (reaches : tree.Reaches cwd follow path slash (.free dir name false)) (entry : Entry) :
    Ground cwd (tree.put (dir ++ [name]) entry) := by
  obtain ⟨-, hleads⟩ := reaches
  have hrooted := ground.wellFormed.rooted
  have hinside := hleads.free_inDirectory hrooted (isDirectory_origin ground.workplace)
  obtain ⟨hproper, hfree⟩ := hleads.get?_free
  obtain ⟨hnonempty, hslash, hzero⟩ :=
    hleads.free_clean fun _ => PathText.clean_of_mem_parse
  refine ground.put (by simp) ?_ ?_ ?_
  · rw [List.dropLast_concat]
    exact hinside
  · intro n hn
    rcases List.mem_append.mp hn with hdir | hname
    · obtain ⟨bits, hentry⟩ := isDirectory_iff.mp hinside
      exact ground.named _ _ hentry n hdir
    · rw [List.mem_singleton.mp hname]
      exact ⟨hnonempty, hslash, hzero, hproper⟩
  · intro hdirectory
    rw [isDirectory, hfree] at hdirectory
    contradiction

/-! ## The calls on files -/

theorem makeDirectory (ground : Ground v.cwd tree)
    (h : tree.makeDirectory v path mode = .ok tree') : Ground v.cwd tree' := by
  obtain ⟨-, dir, name, hreaches, rfl⟩ := makeDirectory_eq_ok.mp h
  exact ground.put_free hreaches _

theorem bindSocket {number : Nat} (ground : Ground v.cwd tree)
    (h : tree.bindSocket v path number = .ok tree') : Ground v.cwd tree' := by
  obtain ⟨-, -, dir, name, hreaches, rfl⟩ := bindSocket_eq_ok.mp h
  exact ground.put_free hreaches _

theorem setMode (ground : Ground v.cwd tree) (h : tree.setMode v path mode = .ok tree') :
    Ground v.cwd tree' := by
  obtain ⟨place, entry, hreaches, rfl⟩ := setMode_eq_ok.mp h
  split
  · exact ground
  · rename_i hroot
    refine ground.change (by simpa using hroot) hreaches.2.get?_found fun hdirectory => ?_
    rw [isDirectory_withMode, hdirectory]

theorem openForWriting (ground : Ground v.cwd tree)
    (h : tree.openForWriting v path mode = .ok (tree', place)) : Ground v.cwd tree' := by
  obtain ⟨-, ⟨dir, name, hreaches, rfl, rfl⟩ | ⟨entry, -, rfl, -⟩⟩ := openForWriting_cases h
  · exact ground.put_free hreaches _
  · exact ground

theorem setContent (ground : Ground cwd tree) (place : Place) (data : Bytes) :
    Ground cwd (tree.setContent place data) := by
  unfold FileTree.setContent
  split
  · rename_i hentry
    refine ground.change ?_ hentry fun h => absurd h Bool.false_ne_true
    rintro rfl
    cases hentry
  · exact ground

theorem writeAt {data : Bytes} (ground : Ground v.cwd tree)
    (h : tree.writeAt v path mode data = .ok tree') : Ground v.cwd tree' := by
  obtain ⟨⟨opened, place⟩, hopen, hwritten⟩ := bind_eq_ok.mp h
  cases hwritten
  exact (ground.openForWriting hopen).setContent place data

/-! ## Planting -/

theorem toOption_eq_some {attempt : Except FileError FileTree} :
    attempt.toOption = some tree' ↔ attempt = .ok tree' := by
  cases attempt with
  | error => exact ⟨nofun, nofun⟩
  | ok => simp [Except.toOption]

/-- Where an attempt fails the tree is left. -/
theorem getD {attempt : Option FileTree} (ground : Ground cwd tree)
    (kept : ∀ tree', attempt = some tree' → Ground cwd tree') :
    Ground cwd (attempt.getD tree) := by
  cases attempt with
  | none => exact ground
  | some tree' => exact kept tree' rfl

theorem plantParents (ground : Ground v.cwd tree) (path : Bytes) :
    Ground v.cwd (tree.plantParents v path) := by
  unfold FileTree.plantParents
  dsimp only
  generalize (PathText.parse path).names.dropLast = names
  generalize (if (PathText.parse path).absolute then [47] else [] : Bytes) = shown
  induction names generalizing tree shown with
  | nil => exact ground
  | cons name names ih =>
      refine ih (ground.getD fun tree' hmade => ?_) _
      exact ground.makeDirectory (toOption_eq_some.mp hmade)

theorem plant? {s : Seedling} (ground : Ground v.cwd tree) (h : tree.plant? v s = some tree') :
    Ground v.cwd tree' := by
  have hfree {entry : Entry} (h : plant?.atFreeName tree v s entry = some tree') :
      Ground v.cwd tree' := by
    unfold plant?.atFreeName at h
    split at h
    · rename_i hslot
      cases h
      exact ground.put_free (locateName_free.mp hslot).2.2 _
    · contradiction
  unfold FileTree.plant? at h
  split at h
  · exact ground.writeAt (toOption_eq_some.mp h)
  · exact ground.makeDirectory (toOption_eq_some.mp h)
  · exact ground.bindSocket (toOption_eq_some.mp h)
  · exact hfree h
  · exact hfree h

theorem plant (ground : Ground v.cwd tree) (s : Seedling) : Ground v.cwd (tree.plant v s) := by
  have hplanted := (ground.plantParents s.path).getD fun tree' =>
    plant? (s := s) (ground.plantParents s.path)
  unfold FileTree.plant
  dsimp only
  split
  · exact hplanted.getD fun tree' hset => hplanted.setMode (toOption_eq_some.mp hset)
  · exact hplanted

end Ground

/-- The directories that lead to the working directory, one in the other. -/
theorem ground_of_names {names : List Bytes} (legal : ∀ n ∈ names, IsName n)
    (ground : Ground dir tree) :
    Ground (dir ++ names)
      (names.foldl (fun (t, place) name =>
        let place := place ++ [name]
        ((t : FileTree).put place (.directory 0o755), place)) (tree, dir)).1 := by
  induction names generalizing tree dir with
  | nil => rwa [List.append_nil]
  | cons name names ih =>
      have hname : dir ++ [name] ≠ [] := by simp
      obtain ⟨bits, hdir⟩ := isDirectory_iff.mp ground.workplace
      have hput : Ground dir (tree.put (dir ++ [name]) (.directory 0o755)) := by
        refine ground.put hname ?_ ?_ fun _ => rfl
        · rw [List.dropLast_concat]
          exact ground.workplace
        · intro n hn
          rcases List.mem_append.mp hn with hold | hnew
          · exact ground.named _ _ hdir n hold
          · exact legal n (List.mem_cons.mpr (Or.inl (List.mem_singleton.mp hnew)))
      have hnext := ih (fun n hn => legal n (List.mem_cons_of_mem name hn))
        { hput with
          workplace := by rw [isDirectory_put tree _ hname, if_pos rfl]; rfl }
      rwa [List.append_assoc] at hnext

/-- **Every tree that is grown is a tree**, whatever is to be planted in it. -/
theorem ground_grow (v : Vantage) (seedlings : List Seedling) (legal : ∀ n ∈ v.cwd, IsName n) :
    Ground v.cwd (grow v seedlings) := by
  have hempty : Ground [] ({} : FileTree) := by
    refine ⟨⟨nofun, nofun, List.nodup_nil⟩, fun place entry hentry name hname => ?_, rfl⟩
    rw [get?_of_ne_nil (List.ne_nil_of_mem hname)] at hentry
    contradiction
  have hstart := ground_of_names legal hempty
  rw [List.nil_append] at hstart
  unfold grow
  dsimp only
  generalize Prod.fst _ = start at hstart ⊢
  induction seedlings generalizing start with
  | nil => exact hstart
  | cons s seedlings ih => exact ih _ (hstart.plant s)

end FileTree

/-- A daemon can be started on a planted tree in which nobody listens yet. -/
theorem Site.sound_of_ground {site : Site}
    (ground : FileTree.Ground site.process.vantage.cwd site.host.tree)
    (silent : site.host.listening = []) : site.Sound where
  tree := ground.wellFormed
  workplace := ground.workplace
  numbered := by
    rw [silent]
    exact nofun

end SearchDaemon
