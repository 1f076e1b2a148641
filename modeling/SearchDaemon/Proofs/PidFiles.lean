import SearchDaemon.Proofs.Numerals
import SearchDaemon.Proofs.StopCommand

/-!
# The process that a pid file names

The number read from a pid file is the number that stands in it, as long as it is a number that
a process can have. Of a longer one the 32 low-order bits are left: whether there is any
positive number is looked at before the cut, so that after it the process named is another one,
or none. A stop signals the process that is named so.
-/

namespace SearchDaemon

namespace PidFile

variable {tree : FileTree} {v : Vantage} {path : Bytes} {alive : Int → Bool} {n p : Int}

/-- The file at a path begins with a number. -/
def Holds (tree : FileTree) (v : Vantage) (path : Bytes) (n : Int) : Prop :=
  ∃ bs, tree.contentAt v path = .ok bs ∧ Numeral.Opens bs n

theorem Holds.unique {n' : Int} (h : Holds tree v path n) (h' : Holds tree v path n') :
    n = n' := by
  obtain ⟨bs, hbs, hopens⟩ := h
  obtain ⟨bs', hbs', hopens'⟩ := h'
  cases hbs.symm.trans hbs'
  exact hopens.unique hopens'

/-! ## Reading -/

theorem parse_eq_some {bs : Bytes} :
    parse bs = some p ↔
      ∃ n, Numeral.Opens bs n ∧ 0 < n ∧ n < 2 ^ 63 ∧ Numeral.Wraps n p := by
  have hlimit : Numeral.limit 64 = 2 ^ 63 := rfl
  have hfits (n : Int) : (Numeral.fits 64 n && decide (0 < n)) = true ↔ 0 < n ∧ n < 2 ^ 63 := by
    rw [Numeral.fits, hlimit, Bool.and_eq_true, Bool.and_eq_true, decide_eq_true_eq,
      decide_eq_true_eq, decide_eq_true_eq]
    omega
  unfold parse
  constructor
  · intro h
    split at h
    · rename_i n hn
      split_ifs at h with hgood
      cases h
      obtain ⟨hpositive, hupper⟩ := (hfits n).mp hgood
      exact ⟨n, Numeral.leading?_eq_some.mp hn, hpositive, hupper, Numeral.wraps_low32 n⟩
    · contradiction
  · rintro ⟨n, hopens, hpositive, hupper, hwraps⟩
    rw [Numeral.leading?_eq_some.mpr hopens]
    dsimp only
    rw [if_pos ((hfits n).mpr ⟨hpositive, hupper⟩), Numeral.wraps_iff.mp hwraps]

/-- What is read is the number in the file, cut to 32 bits. -/
theorem read_eq_some :
    (read tree v path).1 = some p ↔
      ∃ n, Holds tree v path n ∧ 0 < n ∧ n < 2 ^ 63 ∧ Numeral.Wraps n p := by
  have hread {bs : Bytes} (hbs : tree.contentAt v path = .ok bs) :
      (read tree v path).1 = parse bs := by
    rw [read, hbs]
    dsimp only
    split
    · rename_i h
      exact h.symm
    · rename_i h
      exact h.symm
  constructor
  · intro h
    cases hcontent : tree.contentAt v path with
    | error e =>
        rw [read, hcontent] at h
        contradiction
    | ok bs =>
        rw [hread hcontent] at h
        obtain ⟨n, hopens, hnumber⟩ := parse_eq_some.mp h
        exact ⟨n, ⟨bs, hcontent, hopens⟩, hnumber⟩
  · rintro ⟨n, ⟨bs, hcontent, hopens⟩, hnumber⟩
    rw [hread hcontent]
    exact parse_eq_some.mpr ⟨n, hopens, hnumber⟩

/-- The process that a pid file names is the one that was read, if it is alive. -/
theorem running_eq_some :
    (running tree v alive path).1 = some p ↔
      (read tree v path).1 = some p ∧ 0 < p ∧ alive p = true := by
  show ((read tree v path).1.filter fun pid => decide (0 < pid) && alive pid) = some p ↔ _
  rw [Option.filter_eq_some_iff, Bool.and_eq_true, decide_eq_true_eq]

/-- The process read is the number in the file exactly if a process can have that number. -/
theorem read_exact (holds : Holds tree v path n) (h : (read tree v path).1 = some p) :
    0 < p ∧ p = n ↔ n < 2 ^ 31 := by
  obtain ⟨n', hholds, hpositive, -, hwraps⟩ := read_eq_some.mp h
  cases hholds.unique holds
  constructor
  · rintro ⟨-, hsame⟩
    exact (hwraps.eq_iff hpositive).mp hsame
  · intro hfits
    have hsame := (hwraps.eq_iff hpositive).mpr hfits
    rw [hsame]
    exact ⟨hpositive, rfl⟩

end PidFile

namespace Control.Stopping

variable {o : Options} {m : Machine} {c : Console} {s : Step} {phase : Stopping}
  {past : List (Moment Step Act)} {p : Int}

/-- The command looks for the process that the pid file names, and finds one. -/
def Finds (o : Options) (p : Int) (m : Moment Step Act) : Prop :=
  m.act = .own ∧ m.before.phase = .looking ∧
    (m.before.machine.runningPid o.config.pidFile).1 = some p

theorem Progress.found_of_sent (progress : Progress o past phase) (signaled : p ∈ sent past) :
    found o past = some p := by
  have hnobody (hsent : sent past = []) : found o past = some p := by
    rw [hsent] at signaled
    contradiction
  have hnamed {pid : Int} (hfound : found o past = some pid) (hsent : Signaled o pid past) :
      found o past = some p := by
    have hmem : p ∈ [pid, pid] := by
      rcases hsent with honce | ⟨htwice, -⟩
      · rw [honce] at signaled
        exact List.mem_cons_of_mem _ signaled
      · rwa [htwice] at signaled
    rw [hfound]
    simp only [List.mem_cons, List.not_mem_nil, or_false, or_self] at hmem
    rw [hmem]
  cases phase with
  | looking | signaling => exact hnobody progress.2
  | checking | signalingAgain => exact hnamed progress.1 (.inl progress.2.1)
  | watching => exact hnamed progress.1 progress.2
  | clearingPidFile | clearingSocket =>
      obtain ⟨pid, hfound, hsignaled, -⟩ := progress
      exact hnamed hfound hsignaled
  | done status =>
      cases status with
      | zero =>
          obtain ⟨pid, hfound, hsignaled, -⟩ := progress
          exact hnamed hfound hsignaled
      | succ =>
          rcases progress with hnone | ⟨pid, hfound, hsignaled⟩
          · exact hnobody hnone
          · exact hnamed hfound hsignaled

/-- Whatever process is sent a signal was found in the pid file. -/
theorem finds_of_sent (run : Run (act? o) (begun m c) past s) (signaled : p ∈ sent past) :
    ∃ look ∈ past, Finds o p look := by
  obtain ⟨progress, -⟩ := progress_run run
  obtain ⟨look, hlook, hfinds⟩ := List.exists_of_findSome?_eq_some
    (progress.found_of_sent signaled)
  refine ⟨look, hlook, ?_⟩
  unfold foundIn at hfinds
  split at hfinds
  · rename_i hown hlooking
    exact ⟨hown, hlooking, hfinds⟩
  · contradiction

end Control.Stopping

/-! ## The number in the file -/

namespace PidFile

open Control.Stopping

/-- A daemon that is found to run has the number in its pid file exactly if a process can have
that number. -/
theorem running_exact {tree : FileTree} {v : Vantage} {path : Bytes} {alive : Int → Bool}
    {n p : Int} (holds : Holds tree v path n) (h : (running tree v alive path).1 = some p) :
    0 < p ∧ alive p = true ∧ (p = n ↔ n < 2 ^ 31) := by
  obtain ⟨hread, hpositive, halive⟩ := running_eq_some.mp h
  have hexact := read_exact holds hread
  rw [and_iff_right hpositive] at hexact
  exact ⟨hpositive, halive, hexact⟩

/-- **The process that a pid file names has the number in the file**, if that is less than
`2 ^ 31`. A pid file is read exactly if it begins with a positive number that 64 bits can hold.
What is read has the same 32 low-order bits, so that it is the number itself, and positive, for
the numbers of processes and for no other. A daemon is found to run only under the number that
was read, and a stop sends signals only to a process that it has found so. -/
theorem pid_is_number_in_file (tree : FileTree) (v : Vantage) (path : Bytes) (p : Int) :
    ((read tree v path).1 = some p ↔
        ∃ n, Holds tree v path n ∧ 0 < n ∧ n < 2 ^ 63 ∧ Numeral.Wraps n p) ∧
      (∀ n, Holds tree v path n →
        ((read tree v path).1 = some p → (0 < p ∧ p = n ↔ n < 2 ^ 31)) ∧
          ∀ alive : Int → Bool, (running tree v alive path).1 = some p →
            0 < p ∧ alive p = true ∧ (p = n ↔ n < 2 ^ 31)) ∧
      ∀ (o : Options) (m : Machine) (c : Console) (s : Step) (past : List (Moment Step Act)),
        Run (act? o) (begun m c) past s → p ∈ sent past →
          ∃ look ∈ past, Finds o p look ∧
            ∃ n, Holds look.before.machine.host.tree look.before.machine.vantage
                o.config.pidFile n ∧ (p = n ↔ n < 2 ^ 31) := by
  refine ⟨read_eq_some, ?_, ?_⟩
  · intro n holds
    exact ⟨read_exact holds, fun alive => running_exact holds⟩
  · intro o m c s past run signaled
    obtain ⟨look, hlook, hfinds⟩ := finds_of_sent run signaled
    obtain ⟨hread, -⟩ := running_eq_some.mp hfinds.2.2
    obtain ⟨n, hholds, -⟩ := read_eq_some.mp hread
    obtain ⟨-, -, hexact⟩ := running_exact hholds hfinds.2.2
    exact ⟨look, hlook, hfinds, n, hholds, hexact⟩

/-- A machine on which the file `/p` has the given content. -/
def withPidFile (data : Bytes) : Machine where
  host := { tree := ⟨[([[112]], .file 0o600 data)]⟩ }
  vantage := { cwd := [] }
  nextPid := 8

/-- The pid file is `/p`. -/
def pidFileAtRoot : Options where
  config := { pidFile := [47, 112] }

theorem contentAt_withPidFile (data : Bytes) :
    (withPidFile data).host.tree.contentAt (withPidFile data).vantage [47, 112] = .ok data := by
  have hstat : (withPidFile data).host.tree.stat [] [47, 112] =
      .ok ([[112]], .file 0o600 data) := by
    cbv
  show (withPidFile data).host.tree.stat [] [47, 112] >>= _ = _
  rw [hstat]
  rfl

/-- White space and a plus may stand before the number, and anything that is no digit after
it. -/
theorem pid_is_number_in_file_after_blanks :
    Holds (withPidFile [9, 32, 43, 52, 50, 120]).host.tree { cwd := [] } [47, 112] 42 ∧
      (read (withPidFile [9, 32, 43, 52, 50, 120]).host.tree { cwd := [] } [47, 112]).1 =
        some 42 ∧
      (0 < (42 : Int) ∧ (42 : Int) = 42) ∧
      ∃ past s, Run (act? byForce) (begun (stuck 0 0 none) {}) past s ∧ 7 ∈ sent past ∧
        ∃ look ∈ past, Finds byForce 7 look := by
  have hholds : Holds (withPidFile [9, 32, 43, 52, 50, 120]).host.tree { cwd := [] }
      [47, 112] 42 :=
    ⟨_, contentAt_withPidFile _, Numeral.leading?_eq_some.mp (by decide)⟩
  obtain ⟨hread, hexact, -⟩ := pid_is_number_in_file
    (withPidFile [9, 32, 43, 52, 50, 120]).host.tree { cwd := [] } [47, 112] 42
  have hforty := hread.mpr ⟨42, hholds, by decide, by decide, ⟨rfl, by decide, by decide⟩⟩
  have hlooked : act? byForce (begun (stuck 0 0 none) {}) .own =
      some ⟨.signaling 7, stuck 0 0 none, {}, none⟩ := by
    simp only [act?, begun, step, runningPid_stuck]
    rfl
  have hsignaled : act? byForce ⟨.signaling 7, stuck 0 0 none, {}, none⟩ .own =
      some ⟨.checking 7 0, stuck 1 200 none, {}, some 7⟩ := rfl
  have hrun := (Run.start.snoc hlooked).snoc hsignaled
  obtain ⟨look, hlook, hfinds, -⟩ :=
    (pid_is_number_in_file {} { cwd := [] } [] 7).2.2 _ _ _ _ _ hrun (List.mem_singleton.mpr rfl)
  exact ⟨hholds, hforty, ((hexact 42 hholds).1 hforty).mpr (by decide), _, _, hrun,
    List.mem_singleton.mpr rfl, look, hlook, hfinds⟩

/-- A number that is `2 ^ 32` too large is read as that of the first process, which a stop then
sends the termination signal. -/
theorem long_number_names_first_process :
    Holds (withPidFile (text "4294967297\n")).host.tree { cwd := [] } [47, 112] 4294967297 ∧
      (read (withPidFile (text "4294967297\n")).host.tree { cwd := [] } [47, 112]).1 = some 1 ∧
      ((withPidFile (text "4294967297\n")).runningPid [47, 112]).1 = some 1 ∧
      ∃ past s, Run (act? pidFileAtRoot) (begun (withPidFile (text "4294967297\n")) {}) past s ∧
        sent past = [1] := by
  have hholds : Holds (withPidFile (text "4294967297\n")).host.tree { cwd := [] } [47, 112]
      4294967297 :=
    ⟨_, contentAt_withPidFile _, Numeral.leading?_eq_some.mp (by decide)⟩
  have hread : (read (withPidFile (text "4294967297\n")).host.tree { cwd := [] }
      [47, 112]).1 = some 1 :=
    read_eq_some.mpr
      ⟨_, hholds, by decide, by decide, ⟨by decide, by decide, by decide⟩⟩
  have hrunning : ((withPidFile (text "4294967297\n")).runningPid [47, 112]).1 = some 1 :=
    running_eq_some.mpr ⟨hread, by decide, rfl⟩
  refine ⟨hholds, hread, hrunning, ?_⟩
  have hlooked : ∃ c, act? pidFileAtRoot (begun (withPidFile (text "4294967297\n")) {}) .own =
      some ⟨.signaling 1, withPidFile (text "4294967297\n"), c, none⟩ := by
    simp only [act?, begun, step, pidFileAtRoot, hrunning]
    exact ⟨_, rfl⟩
  obtain ⟨c, hlooked⟩ := hlooked
  have hsignaled : act? pidFileAtRoot
      ⟨.signaling 1, withPidFile (text "4294967297\n"), c, none⟩ .own =
        some ⟨.watching 1 0, withPidFile (text "4294967297\n"), c, some 1⟩ := rfl
  exact ⟨_, _, (Run.start.snoc hlooked).snoc hsignaled, rfl⟩

end PidFile

end SearchDaemon
