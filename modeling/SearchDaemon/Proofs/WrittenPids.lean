import SearchDaemon.Proofs.PidFiles

/-!
# Pid files read back

What a process writes about itself is what others read: its number in decimal, and a newline,
take the place of whatever the file held, and reading gives the number back. So a command that is
given the same path finds the process for as long as it is alive.
-/

namespace SearchDaemon

/-! ## Decimal numerals -/

namespace Numeral

theorem toNat_digit {d : Nat} (h : d < 10) : (UInt8.ofNat (48 + d)).toNat = 48 + d := by
  rw [UInt8.toNat_ofNat']
  omega

theorem isDigit_digit {d : Nat} (h : d < 10) : isDigit (UInt8.ofNat (48 + d)) = true := by
  have hvalue := toNat_digit h
  rw [isDigit, Bool.and_eq_true, decide_eq_true_eq, decide_eq_true_eq, UInt8.le_iff_toNat_le,
    UInt8.le_iff_toNat_le, hvalue]
  exact ⟨Nat.le_add_right 48 d, by show 48 + d ≤ 57; omega⟩

theorem decimal_ne_nil (n : Nat) : decimal n ≠ [] := by
  rw [decimal]
  split <;> simp

theorem isDigit_of_mem_decimal {n : Nat} {b : UInt8} (h : b ∈ decimal n) : isDigit b = true := by
  induction n using Nat.strongRecOn with
  | ind n ih =>
      rw [decimal] at h
      split at h
      · rename_i hsmall
        rw [List.mem_singleton.mp h]
        exact isDigit_digit hsmall
      · rename_i hlarge
        rcases List.mem_append.mp h with hfront | hlast
        · exact ih (n / 10) (by omega) hfront
        · rw [List.mem_singleton.mp hlast]
          exact isDigit_digit (Nat.mod_lt n (by decide))

/-- The digits of a number stand for that number. -/
theorem ofDigits_decimal (n : Nat) : ofDigits (decimal n) = n := by
  induction n using Nat.strongRecOn with
  | ind n ih =>
      rw [decimal]
      split
      · rename_i hsmall
        show 0 * 10 + ((UInt8.ofNat (48 + n)).toNat - 48) = n
        rw [toNat_digit hsmall]
        omega
      · rename_i hlarge
        have hsnoc (digits : Bytes) (b : UInt8) :
            ofDigits (digits ++ [b]) = ofDigits digits * 10 + (b.toNat - 48) := by
          rw [ofDigits, List.foldl_append]
          rfl
        rw [hsnoc, ih (n / 10) (by omega), toNat_digit (Nat.mod_lt n (by decide))]
        omega

/-- A numeral is read up to the newline behind it. -/
theorem opens_decimal (n : Nat) : Opens (decimal n ++ [10]) n := by
  have hblanks : ∀ b ∈ ([] : Bytes), isSpace b = true := nofun
  have hends : ∀ b ∈ ([10] : Bytes).head?, isDigit b = false := by
    rintro b ⟨⟩
    rfl
  have hopens := Opens.intro Sign.none hblanks (decimal_ne_nil n)
    (fun b => isDigit_of_mem_decimal) hends
  rwa [Sign.applied, ← ofDigits_eq_placeValue, ofDigits_decimal] at hopens

end Numeral

/-! ## A file that has been written -/

namespace FileTree

variable {tree tree' : FileTree} {v : Vantage} {path data : Bytes} {mode : Nat}

/-- Whatever stands at the end of a path, if anything does, is a file. -/
def HoldsFileIfAny (tree : FileTree) (cwd : Place) (path : Bytes) : Prop :=
  ∀ place entry, tree.stat cwd path = .ok (place, entry) → ∃ bits old, entry = .file bits old

/-- A file that has been written is where its path leads, and holds the data. -/
theorem stat_of_writeAt (regular : tree.HoldsFileIfAny v.cwd path)
    (h : tree.writeAt v path mode data = .ok tree') :
    ∃ place bits, tree'.stat v.cwd path = .ok (place, .file bits data) := by
  obtain ⟨⟨opened, place⟩, hopen, hwritten⟩ := bind_eq_ok.mp h
  cases hwritten
  obtain ⟨hslash, ⟨dir, name, ⟨hcheck, hleads⟩, rfl, rfl⟩ |
    ⟨entry, ⟨hcheck, hleads⟩, rfl, -⟩⟩ := openForWriting_cases hopen
  -- The path leads to a free name, and the file is made there.
  · have hnamed : dir ++ [name] ≠ [] := by simp
    have hmade := get?_put_here tree (.file (v.newMode mode) []) hnamed
    have hsame : SameBut (dir ++ [name]) tree
        ((tree.put (dir ++ [name]) (.file (v.newMode mode) [])).put (dir ++ [name])
          (.file (v.newMode mode) data)) := fun spot hspot =>
      (sameBut_put _ _ hnamed spot hspot).trans (sameBut_put _ _ hnamed spot hspot)
    have hpasses := hsame.passes (by
      intro entry hentry
      rw [hleads.get?_free.2] at hentry
      contradiction)
    rw [setContent, hmade]
    refine ⟨dir ++ [name], v.newMode mode, stat_eq_ok.mpr ⟨hcheck, ?_⟩⟩
    rw [hslash]
    exact hleads.appears hpasses (get?_put_here _ _ hnamed) rfl
  -- The path leads to a file, and the file is filled anew.
  · have hstat : opened.stat v.cwd path = .ok (place, entry) := by
      rw [stat_eq_ok, hslash]
      exact ⟨hcheck, hleads⟩
    obtain ⟨bits, old, rfl⟩ := regular _ _ hstat
    have hentry := hleads.get?_found
    have hnamed : place ≠ [] := by
      rintro rfl
      cases hentry
    have hfilled := get?_put_here opened (.file bits data) hnamed
    have hpasses := (sameBut_put opened (.file bits data) hnamed).passes (by
      intro entry hsome
      cases hentry.symm.trans hsome
      rfl)
    obtain ⟨entry', hagain⟩ := hleads.found_again hpasses fun _ => ⟨_, hfilled, rfl⟩
    cases hagain.get?_found.symm.trans hfilled
    rw [setContent, hentry]
    refine ⟨place, bits, stat_eq_ok.mpr ⟨hcheck, ?_⟩⟩
    rw [hslash]
    exact hagain

/-- What is found along a path is found by everybody who sets out in the same place. -/
theorem stat_of_origin {cwd cwd' place : Place} {entry : Entry}
    (same : origin cwd' path = origin cwd path) (h : tree.stat cwd path = .ok (place, entry)) :
    tree.stat cwd' path = .ok (place, entry) := by
  rw [stat_eq_ok, Reaches] at h ⊢
  rwa [same]

theorem contentAt_of_stat {place : Place} {bits : Nat}
    (h : tree.stat v.cwd path = .ok (place, .file bits data)) :
    tree.contentAt v path = .ok data := by
  have hentry := (stat_eq_ok.mp h).2.get?_found
  rw [contentAt, h]
  show Except.ok (tree.content place) = _
  rw [content, hentry]

end FileTree

namespace PidFile

variable {tree tree' : FileTree} {v v' : Vantage} {path : Bytes} {pid : Nat}
  {short : Option ShortWrite} {journal : Log.Journal}

/-- The number of a process is read from what is written for it. -/
theorem parse_content (positive : 0 < pid) (fits : pid < 2 ^ 31) :
    parse (content pid) = some (pid : Int) := by
  refine parse_eq_some.mpr ⟨pid, Numeral.opens_decimal pid, by omega, by omega, rfl, ?_, ?_⟩
  · omega
  · omega

theorem write_eq_true :
    write tree v path pid short = (true, tree', journal) ↔
      tree.writeAt v path 0o600 (content pid) = .ok tree' ∧
        ShortWrite.objection short (content pid) = none ∧ journal = [] := by
  unfold write
  cases hwrite : tree.writeAt v path 0o600 (ShortWrite.kept short (content pid)) with
  | error e =>
      refine ⟨nofun, fun ⟨hwritten, hunopposed, _⟩ => ?_⟩
      rw [ShortWrite.kept_of_objection hunopposed, hwritten] at hwrite
      contradiction
  | ok after =>
      dsimp only
      cases hobjection : ShortWrite.objection short (content pid) with
      | none =>
          rw [ShortWrite.kept_of_objection hobjection] at hwrite
          rw [hwrite]
          simp [eq_comm]
      | some reason => simp

/-- **A pid file reads back as the process that wrote it**, if the system took all that was
written. Whatever the file held, if there was one, has gone: it holds the number in decimal and a
newline. Wherever the path sets out from the same place, the number is read without a complaint,
and a command finds the process under it exactly if it is alive. -/
theorem written_pid_reads_back (process : 0 < pid ∧ pid < 2 ^ 31)
    (regular : tree.HoldsFileIfAny v.cwd path)
    (written : write tree v path pid short = (true, tree', journal)) :
    tree'.contentAt v path = .ok (decimal pid ++ [10]) ∧
      ∀ v' : Vantage, FileTree.origin v'.cwd path = FileTree.origin v.cwd path →
        read tree' v' path = (some (pid : Int), []) ∧
        ∀ m : Machine, m.host.tree = tree' → m.vantage = v' →
          m.runningPid path = (if m.alive pid then some (pid : Int) else none, []) := by
  obtain ⟨positive, fits⟩ := process
  obtain ⟨place, bits, hstat⟩ := FileTree.stat_of_writeAt regular (write_eq_true.mp written).1
  refine ⟨FileTree.contentAt_of_stat hstat, ?_⟩
  intro v' same
  have hread : read tree' v' path = (some (pid : Int), []) := by
    rw [read, FileTree.contentAt_of_stat (FileTree.stat_of_origin same hstat)]
    dsimp only
    rw [parse_content positive fits]
  refine ⟨hread, ?_⟩
  rintro m rfl rfl
  have hpositive : (0 : Int) < pid := by omega
  rw [Machine.runningPid, running, hread]
  dsimp only
  rw [Option.filter_some, decide_eq_true hpositive, Bool.true_and]

/-- The number 42 takes the place of a longer one, and process 42 is found by a command that is
given elsewhere. -/
theorem written_pid_reads_back_over_longer :
    (0 < 42 ∧ 42 < 2 ^ 31) ∧
      (withPidFile (text "4294967297\n")).host.tree.HoldsFileIfAny [] [47, 112] ∧
      ∃ tree', write (withPidFile (text "4294967297\n")).host.tree { cwd := [] } [47, 112] 42 =
          (true, tree', []) ∧
        read tree' { cwd := [[100]] } [47, 112] = (some 42, []) ∧
        ∀ signals, Machine.runningPid
          { host := { tree := tree' }, vantage := { cwd := [[100]] }, nextPid := 43,
            residents := [{ pid := 42, role := .standIn .wedged [47, 112] signals }] }
          [47, 112] = (some 42, []) := by
  have hprocess : 0 < 42 ∧ 42 < 2 ^ 31 := by decide
  have hregular : (withPidFile (text "4294967297\n")).host.tree.HoldsFileIfAny [] [47, 112] := by
    intro place entry hstat
    have hfile : (withPidFile (text "4294967297\n")).host.tree.stat [] [47, 112] =
        .ok ([[112]], .file 0o600 (text "4294967297\n")) := by
      cbv
    cases hfile.symm.trans hstat
    exact ⟨_, _, rfl⟩
  have hwritten : write (withPidFile (text "4294967297\n")).host.tree { cwd := [] } [47, 112] 42 =
      (true, ⟨[([[112]], .file 0o600 (text "42\n"))]⟩, []) := by
    cbv
  obtain ⟨-, hback⟩ := written_pid_reads_back hprocess hregular hwritten
  obtain ⟨hread, hrunning⟩ := hback { cwd := [[100]] } rfl
  exact ⟨hprocess, hregular, _, hwritten, hread, fun signals => hrunning _ rfl rfl⟩

end PidFile

end SearchDaemon
