import SearchDaemon.Control
import SearchDaemon.Proofs.FileCalls
import SearchDaemon.Proofs.ForegroundStart
import SearchDaemon.Proofs.Run

/-!
# A stop from outside

Between any two steps of the stop command anything may happen on the machine: the process
ends or does not, its pid file is kept, removed or names another one. What the command does
about it is bounded all the same. `Progress` says, for every phase of the command, what has
happened until then; it is kept by each step, whatever the others do.
-/

namespace SearchDaemon

variable {m : Machine} {path : Bytes}

/-! ## What a knock leaves -/

/-- A log adds to files only, so that nothing comes to be where nothing was. -/
theorem Log.Routing.fewer_writeAll (r : Routing) (journal : Journal) :
    r.tree.Fewer (r.writeAll journal).tree := by
  have hentry {place : Place} {entry : Entry}
      (h : (r.writeAll journal).tree.get? place = some entry) :
      ∃ former data, r.tree.get? place = some former ∧ former.appended data = entry := by
    rw [get?_writeAll] at h
    split at h
    · obtain ⟨former, hformer, rfl⟩ := Option.map_eq_some_iff.mp h
      exact ⟨former, _, hformer, rfl⟩
    · exact ⟨entry, [], h, Entry.appended_nil entry⟩
  refine ⟨⟨?directory, ?link⟩, ?plain⟩
  case directory =>
    intro place mode h
    obtain ⟨former, data, hformer, hsame⟩ := hentry h
    cases former <;> cases hsame
    exact ⟨mode, hformer⟩
  case link =>
    intro place goal h
    obtain ⟨former, data, hformer, hsame⟩ := hentry h
    cases former <;> cases hsame
    exact hformer
  case plain =>
    intro place entry h plain
    obtain ⟨former, data, hformer, rfl⟩ := hentry h
    refine ⟨former, hformer, ?_⟩
    cases former <;> exact plain

/-- Serving a client makes a program log it. -/
theorem Program.fewer_serve {α : Type} (p : Program) (host : Host)
    (visit : FileTree → Daemon → α × Daemon × Log.Journal) :
    host.tree.Fewer (p.serve host visit).2.2.tree :=
  Log.Routing.fewer_writeAll
    { threshold := p.threshold, file := p.logFile, tree := host.tree, printed := p.printed }
    (visit host.tree p.daemon).2.2

namespace Machine

/-- Nobody listens, or the daemon that does is visited and nothing but its log is written. -/
theorem connect_cases {α : Type} (m : Machine) (path : Bytes)
    (visit : FileTree → Daemon → α × Daemon × Log.Journal) :
    m.connect path visit = (none, m) ∨
      (m.connect path visit).1.isSome = true ∧
        (m.connect path visit).2.vantage = m.vantage ∧
        m.host.tree.Fewer (m.connect path visit).2.host.tree := by
  unfold connect
  split
  · exact .inl rfl
  · split
    · exact .inl rfl
    · rename_i r p _
      exact .inr ⟨rfl, rfl, p.fewer_serve m.host visit⟩

/-- A knock that nobody hears changes nothing. -/
theorem knock_refused (refused : (m.knock path).1 = false) : (m.knock path).2.1 = m := by
  rcases connect_cases m path fun tree d => ((), d.acceptVisit tree) with hnobody | ⟨hheard, -⟩
  · rw [knock, hnobody]
  · exact absurd (hheard.symm.trans refused) (by decide)

/-- A knock that is heard makes the daemon log it. -/
theorem knock_leaves (m : Machine) (path : Bytes) :
    (m.knock path).2.1.vantage = m.vantage ∧
      m.host.tree.Fewer (m.knock path).2.1.host.tree := by
  rcases connect_cases m path fun tree d => ((), d.acceptVisit tree) with hnobody | ⟨-, hheard⟩
  · rw [knock, hnobody]
    exact ⟨rfl, .refl _⟩
  · exact hheard

/-- Nothing is at a path, not even a link. -/
def Lacks (m : Machine) (path : Bytes) : Prop := m.host.tree.Lacks m.vantage.cwd path

/-- What is at a path, if anything, can be removed. -/
def Removable (m : Machine) (path : Bytes) : Prop := m.host.tree.Removable m.vantage path

end Machine

namespace Control.Stopping

/-! ## The command and the others -/

/-- What happens while a stop command runs. -/
inductive Act where
  /-- The command takes its next step. -/
  | own
  /-- The others make this of the machine. -/
  | others (m : Machine)

/-- A command that is done takes no step. -/
def act? (o : Options) (s : Step) : Act → Option Step
  | .own =>
      match s.phase with
      | .done _ => none
      | phase => some (step o s.machine s.console phase)
  | .others m => some { s with machine := m, signaled := none }

/-- A stop command before its first step. -/
def begun (m : Machine) (c : Console) : Step := { phase := .looking, machine := m, console := c }

/-- The processes that the command has sent the termination signal. -/
def sent (past : List (Moment Step Act)) : List Int := past.filterMap (·.after.signaled)

/-- The process that the pid file names when the command takes its first step. -/
def foundIn (o : Options) (m : Moment Step Act) : Option Int :=
  match m.act, m.before.phase with
  | .own, .looking => (m.before.machine.runningPid o.config.pidFile).1
  | _, _ => none

/-- The process that the command has found at its start. -/
def found (o : Options) (past : List (Moment Step Act)) : Option Int :=
  past.findSome? (foundIn o)

/-- The command looks at the pid file again, which still names the process. -/
def Confirms (o : Options) (pid : Int) (m : Moment Step Act) : Prop :=
  m.act = .own ∧ (∃ since, m.before.phase = .checking pid since) ∧
    (m.before.machine.runningPid o.config.pidFile).1 = some pid

/-- The command looks whether the process is alive, and it is not. -/
def SeesDead (pid : Int) (m : Moment Step Act) : Prop :=
  m.act = .own ∧ (∃ since, m.before.phase = .watching pid since) ∧
    m.before.machine.alive pid = false

/-- The command removes the pid file. -/
def ClearsPidFile (o : Options) (m : Moment Step Act) : Prop :=
  m.act = .own ∧ m.before.phase = .clearingPidFile ∧
    (m.before.machine.Removable o.config.pidFile → m.after.machine.Lacks o.config.pidFile)

/-- The command removes what is at the socket path, unless somebody accepts there, and is
done. No pid file comes back by it. -/
def ClearsSocket (o : Options) (m : Moment Step Act) : Prop :=
  m.act = .own ∧ m.before.phase = .clearingSocket ∧ m.after.phase = .done 0 ∧
    ((m.before.machine.knock o.config.socketPath).1 = true ∨
      (m.before.machine.Removable o.config.socketPath →
        m.after.machine.Lacks o.config.socketPath)) ∧
    (m.before.machine.Lacks o.config.pidFile → m.after.machine.Lacks o.config.pidFile)

/-- Time passes, and a process that is sent the signal does what it does about it: that is all
the machine has of this step. -/
def Spares (m : Moment Step Act) : Prop :=
  ∃ pause, m.after.machine = Machine.wait
    (m.after.signaled.elim m.before.machine fun pid => (m.before.machine.terminate pid).2) pause

/-- There was a moment like this, with a past like that. -/
def Happened (past : List (Moment Step Act)) (earlier : List (Moment Step Act) → Prop)
    (now : Moment Step Act → Prop) : Prop :=
  ∃ before m later, past = before ++ m :: later ∧ earlier before ∧ now m

variable {o : Options} {phase : Stopping} {s s' : Step} {pid : Int} {since : Nat}
  {c : Console} {past : List (Moment Step Act)} {now : Moment Step Act}
  {earlier : List (Moment Step Act) → Prop} {this : Moment Step Act → Prop}

theorem sent_snoc : sent (past ++ [now]) = sent past ++ now.after.signaled.toList := by
  rw [sent, List.filterMap_append]
  cases h : now.after.signaled <;> simp [h, sent]

theorem found_snoc : found o (past ++ [now]) = (found o past).or (foundIn o now) := by
  rw [found, List.findSome?_append]
  cases h : foundIn o now <;> simp [h, found]

theorem Happened.snoc (happened : Happened past earlier this) :
    Happened (past ++ [now]) earlier this := by
  obtain ⟨before, m, later, rfl, hearlier, hthis⟩ := happened
  exact ⟨before, m, later ++ [now], by simp, hearlier, hthis⟩

theorem happened_last (hearlier : earlier past) (hthis : this now) :
    Happened (past ++ [now]) earlier this :=
  ⟨past, now, [], rfl, hearlier, hthis⟩

/-! ## What has happened until a phase -/

/-- The process was sent the signal once, or by force twice, with the pid file naming it
still after the first time. -/
def Signaled (o : Options) (pid : Int) (past : List (Moment Step Act)) : Prop :=
  sent past = [pid] ∨
    sent past = [pid, pid] ∧ o.force = true ∧
      Happened past (fun earlier => sent earlier = [pid]) (Confirms o pid)

/-- What has happened when the command has come to a phase. -/
def Progress (o : Options) (past : List (Moment Step Act)) : Stopping → Prop
  | .looking => found o past = none ∧ sent past = []
  | .signaling pid => found o past = some pid ∧ sent past = []
  | .checking pid _ => found o past = some pid ∧ sent past = [pid] ∧ o.force = true
  | .signalingAgain pid _ =>
      found o past = some pid ∧ sent past = [pid] ∧ o.force = true ∧
        Happened past (fun earlier => sent earlier = [pid]) (Confirms o pid)
  | .watching pid _ => found o past = some pid ∧ Signaled o pid past
  | .clearingPidFile =>
      ∃ pid, found o past = some pid ∧ Signaled o pid past ∧
        Happened past (fun _ => True) (SeesDead pid)
  | .clearingSocket =>
      ∃ pid, found o past = some pid ∧ Signaled o pid past ∧
        Happened past (fun earlier => Happened earlier (fun _ => True) (SeesDead pid))
          (ClearsPidFile o)
  | .done 0 =>
      ∃ pid, found o past = some pid ∧ Signaled o pid past ∧
        Happened past
          (fun earlier =>
            Happened earlier (fun earlier => Happened earlier (fun _ => True) (SeesDead pid))
              (ClearsPidFile o))
          (ClearsSocket o)
  | .done (_ + 1) => sent past = [] ∨ ∃ pid, found o past = some pid ∧ Signaled o pid past

theorem Signaled.snoc (signaled : Signaled o pid past) (quiet : now.after.signaled = none) :
    Signaled o pid (past ++ [now]) := by
  have hsent : sent (past ++ [now]) = sent past := by
    rw [sent_snoc, quiet, Option.toList_none, List.append_nil]
  rcases signaled with honce | ⟨htwice, hforce, hagain⟩
  · exact .inl (hsent.trans honce)
  · exact .inr ⟨hsent.trans htwice, hforce, hagain.snoc⟩

theorem found_of_some (h : found o past = some pid) : found o (past ++ [now]) = some pid := by
  rw [found_snoc, h, Option.some_or]

/-- What has happened stays so while no signal is sent and no process is found. -/
theorem Progress.snoc (progress : Progress o past phase) (quiet : now.after.signaled = none)
    (unfound : foundIn o now = none) : Progress o (past ++ [now]) phase := by
  have hsent : sent (past ++ [now]) = sent past := by
    rw [sent_snoc, quiet, Option.toList_none, List.append_nil]
  have hfound : found o (past ++ [now]) = found o past := by
    rw [found_snoc, unfound, Option.or_none]
  cases phase with
  | looking | signaling | checking =>
      rw [Progress, hsent, hfound]
      exact progress
  | signalingAgain =>
      rw [Progress, hsent, hfound]
      obtain ⟨hpid, honce, hforce, hagain⟩ := progress
      exact ⟨hpid, honce, hforce, hagain.snoc⟩
  | watching =>
      rw [Progress, hfound]
      obtain ⟨hpid, hsignaled⟩ := progress
      exact ⟨hpid, hsignaled.snoc quiet⟩
  | clearingPidFile | clearingSocket =>
      rw [Progress, hfound]
      obtain ⟨pid, hpid, hsignaled, hhappened⟩ := progress
      exact ⟨pid, hpid, hsignaled.snoc quiet, hhappened.snoc⟩
  | done status =>
      cases status with
      | zero =>
          rw [Progress, hfound]
          obtain ⟨pid, hpid, hsignaled, hhappened⟩ := progress
          exact ⟨pid, hpid, hsignaled.snoc quiet, hhappened.snoc⟩
      | succ status =>
          rw [Progress, hfound, hsent]
          rcases progress with hnone | ⟨pid, hpid, hsignaled⟩
          · exact .inl hnone
          · exact .inr ⟨pid, hpid, hsignaled.snoc quiet⟩

/-! ## One step of the command -/

/-- What a step does, by the phase it is taken in: the next phase, the machine after it and the
process that was sent the signal. -/
inductive Stepped (o : Options) (m : Machine) :
    Stopping → Stopping → Machine → Option Int → Prop
  | notFound (nobody : (m.runningPid o.config.pidFile).1 = none) :
      Stepped o m .looking (.done 1) m none
  | found {pid : Int} (named : (m.runningPid o.config.pidFile).1 = some pid) :
      Stepped o m .looking (.signaling pid) m none
  | signaledByForce {pid : Int} (force : o.force = true) :
      Stepped o m (.signaling pid) (.checking pid m.clock)
        ((m.terminate pid).2.wait signalGap) (some pid)
  | signaled {pid : Int} :
      Stepped o m (.signaling pid) (.watching pid m.clock) (m.terminate pid).2 (some pid)
  | unsignaled {pid : Int} : Stepped o m (.signaling pid) (.done 1) m none
  | confirmed {pid : Int} {since : Nat}
      (named : (m.runningPid o.config.pidFile).1 = some pid) :
      Stepped o m (.checking pid since) (.signalingAgain pid since) m none
  | unconfirmed {pid : Int} {since : Nat} :
      Stepped o m (.checking pid since) (.watching pid since) m none
  | signaledAgain {pid : Int} {since : Nat} :
      Stepped o m (.signalingAgain pid since) (.watching pid since) (m.terminate pid).2 (some pid)
  | unsignaledAgain {pid : Int} {since : Nat} :
      Stepped o m (.signalingAgain pid since) (.watching pid since) m none
  | expired {pid : Int} {since : Nat} : Stepped o m (.watching pid since) (.done 1) m none
  | waited {pid : Int} {since : Nat} (early : m.clock < since + 1000 * o.timeout) :
      Stepped o m (.watching pid since) (.watching pid since) (m.wait pollInterval) none
  | dead {pid : Int} {since : Nat} (dead : m.alive pid = false) :
      Stepped o m (.watching pid since) .clearingPidFile m none
  | clearedPidFile :
      Stepped o m .clearingPidFile .clearingSocket
        { m with host := (m.host.removeFile m.vantage o.config.pidFile).1 } none
  | heard (accepts : (m.knock o.config.socketPath).1 = true) :
      Stepped o m .clearingSocket (.done 0) (m.knock o.config.socketPath).2.1 none
  | clearedSocket :
      Stepped o m .clearingSocket (.done 0)
        { m with host := (m.host.removeFile m.vantage o.config.socketPath).1 } none

/-- A process that is not alive is sent nothing. -/
theorem terminate_cases (m : Machine) (pid : Int) :
    m.terminate pid = (true, (m.terminate pid).2) ∨ m.terminate pid = (false, m) := by
  unfold Machine.terminate
  by_cases halive : m.alive pid = true
  · rw [if_pos halive]
    exact .inl rfl
  · rw [if_neg halive]
    exact .inr rfl

theorem stepped_step (o : Options) (m : Machine) (c : Console)
    (undone : ∀ status, phase ≠ .done status) :
    Stepped o m phase (step o m c phase).phase (step o m c phase).machine
      (step o m c phase).signaled := by
  cases phase with
  | looking =>
      cases hnamed : (m.runningPid o.config.pidFile).1 with
      | none => simpa only [step, hnamed] using Stepped.notFound hnamed
      | some pid => simpa only [step, hnamed] using Stepped.found hnamed
  | signaling pid =>
      rw [step, sendFirst]
      rcases terminate_cases m pid with hsent | hgone
      · rw [hsent]
        dsimp only
        split
        · exact .signaledByForce ‹_›
        · exact .signaled
      · rw [hgone]
        exact .unsignaled
  | checking pid since =>
      by_cases hnamed : (m.runningPid o.config.pidFile).1 = some pid
      · simpa only [step, hnamed, if_true] using Stepped.confirmed hnamed
      · simpa only [step, hnamed, if_false] using Stepped.unconfirmed
  | signalingAgain pid since =>
      rw [step]
      rcases terminate_cases m pid with hsent | hgone
      · rw [hsent]
        exact .signaledAgain
      · rw [hgone]
        exact .unsignaledAgain
  | watching pid since =>
      rw [step, watch]
      split
      · split
        · exact .expired
        · exact .waited (by omega)
      · rename_i hdead
        exact .dead (Bool.eq_false_iff.mpr hdead)
  | clearingPidFile => exact .clearedPidFile
  | clearingSocket =>
      cases haccepts : (m.knock o.config.socketPath).1 with
      | true => simpa only [step, haccepts, if_true] using Stepped.heard haccepts
      | false =>
          have hsame := Machine.knock_refused haccepts
          simpa only [step, haccepts, hsame, clear, Bool.false_eq_true, if_false]
            using Stepped.clearedSocket
  | done status => exact absurd rfl (undone status)

/-- Progress is made by every step. -/
theorem Progress.stepped (progress : Progress o past s.phase)
    (stepped : Stepped o s.machine s.phase s'.phase s'.machine s'.signaled) :
    Progress o (past ++ [⟨s, .own, s'⟩]) s'.phase := by
  obtain ⟨phase, m, c, old⟩ := s
  obtain ⟨phase', m', c', new⟩ := s'
  dsimp only at stepped
  cases stepped with
  | notFound nobody =>
      obtain ⟨-, hsent⟩ := progress
      left
      rw [sent_snoc, hsent]
      rfl
  | found named =>
      obtain ⟨hfound, hsent⟩ := progress
      constructor
      · rw [found_snoc, hfound, Option.none_or]
        exact named
      · rw [sent_snoc, hsent]
        rfl
  | signaledByForce force =>
      obtain ⟨hfound, hsent⟩ := progress
      refine ⟨found_of_some hfound, ?_, force⟩
      rw [sent_snoc, hsent]
      rfl
  | signaled =>
      obtain ⟨hfound, hsent⟩ := progress
      refine ⟨found_of_some hfound, .inl ?_⟩
      rw [sent_snoc, hsent]
      rfl
  | unsignaled =>
      obtain ⟨-, hsent⟩ := progress
      left
      rw [sent_snoc, hsent]
      rfl
  | confirmed named =>
      obtain ⟨hfound, hsent, hforce⟩ := progress
      refine ⟨found_of_some hfound, ?_, hforce, happened_last hsent ⟨rfl, ⟨_, rfl⟩, named⟩⟩
      rw [sent_snoc, hsent]
      rfl
  | unconfirmed =>
      obtain ⟨hfound, hsent, -⟩ := progress
      refine ⟨found_of_some hfound, .inl ?_⟩
      rw [sent_snoc, hsent]
      rfl
  | signaledAgain =>
      obtain ⟨hfound, hsent, hforce, hagain⟩ := progress
      refine ⟨found_of_some hfound, .inr ⟨?_, hforce, hagain.snoc⟩⟩
      rw [sent_snoc, hsent]
      rfl
  | unsignaledAgain =>
      obtain ⟨hfound, hsent, -⟩ := progress
      refine ⟨found_of_some hfound, .inl ?_⟩
      rw [sent_snoc, hsent]
      rfl
  | expired =>
      obtain ⟨hfound, hsignaled⟩ := progress
      exact .inr ⟨_, found_of_some hfound, hsignaled.snoc rfl⟩
  | waited =>
      obtain ⟨hfound, hsignaled⟩ := progress
      exact ⟨found_of_some hfound, hsignaled.snoc rfl⟩
  | dead dead =>
      obtain ⟨hfound, hsignaled⟩ := progress
      exact ⟨_, found_of_some hfound, hsignaled.snoc rfl,
        happened_last trivial ⟨rfl, ⟨_, rfl⟩, dead⟩⟩
  | clearedPidFile =>
      obtain ⟨pid, hfound, hsignaled, hdead⟩ := progress
      exact ⟨pid, found_of_some hfound, hsignaled.snoc rfl,
        happened_last hdead ⟨rfl, rfl, FileTree.lacks_removeFile⟩⟩
  | heard accepts =>
      obtain ⟨pid, hfound, hsignaled, hcleared⟩ := progress
      refine ⟨pid, found_of_some hfound, hsignaled.snoc rfl,
        happened_last hcleared ⟨rfl, rfl, rfl, .inl accepts, fun hlacks => ?_⟩⟩
      obtain ⟨hvantage, hfewer⟩ := m.knock_leaves o.config.socketPath
      show FileTree.Lacks _ _ _
      rw [hvantage]
      exact hlacks.fewer hfewer
  | clearedSocket =>
      obtain ⟨pid, hfound, hsignaled, hcleared⟩ := progress
      exact ⟨pid, found_of_some hfound, hsignaled.snoc rfl,
        happened_last hcleared ⟨rfl, rfl, rfl, .inr FileTree.lacks_removeFile,
          fun hlacks => hlacks.fewer (FileTree.fewer_removeFile _ _ _)⟩⟩

/-- Until the pid file is removed, a step removes nothing. -/
theorem Stepped.spares
    (stepped : Stepped o s.machine s.phase s'.phase s'.machine s'.signaled)
    (kept : s'.phase ≠ .clearingSocket ∧ s'.phase ≠ .done 0) :
    Spares ⟨s, .own, s'⟩ ∧ s.phase ≠ .clearingSocket ∧ s.phase ≠ .done 0 := by
  obtain ⟨phase, m, c, old⟩ := s
  obtain ⟨phase', m', c', new⟩ := s'
  dsimp only at stepped kept
  cases stepped with
  | signaledByForce => exact ⟨⟨signalGap, rfl⟩, nofun, nofun⟩
  | waited => exact ⟨⟨pollInterval, rfl⟩, nofun, nofun⟩
  | clearedPidFile => exact absurd rfl kept.1
  | heard | clearedSocket => exact absurd rfl kept.2
  | _ => exact ⟨⟨0, rfl⟩, nofun, nofun⟩

theorem stepped_of_act? (h : act? o s .own = some s') :
    Stepped o s.machine s.phase s'.phase s'.machine s'.signaled := by
  unfold act? at h
  split at h
  rename_i hown
  · split at h
    · contradiction
    · rename_i hundone
      cases h
      exact stepped_step o s.machine s.console hundone
  · contradiction

/-! ## A whole run -/

theorem progress_run {m₀ : Machine} {c₀ : Console} (run : Run (act? o) (begun m₀ c₀) past s) :
    Progress o past s.phase ∧
      (s.phase ≠ .clearingSocket ∧ s.phase ≠ .done 0 →
        ∀ m ∈ past, m.act = .own → Spares m) := by
  induction run with
  | start => exact ⟨⟨rfl, rfl⟩, fun _ _ hm => absurd hm List.not_mem_nil⟩
  | @snoc past s s' act run step ih =>
      obtain ⟨progress, spares⟩ := ih
      cases act with
      | own =>
          have stepped := stepped_of_act? step
          refine ⟨progress.stepped stepped, fun kept => ?_⟩
          obtain ⟨hlast, hbefore⟩ := stepped.spares kept
          rw [List.forall_mem_append]
          refine ⟨spares hbefore, ?_⟩
          rintro m hm -
          rw [List.mem_singleton.mp hm]
          exact hlast
      | others machine =>
          cases step
          refine ⟨progress.snoc rfl rfl, fun kept => ?_⟩
          rw [List.forall_mem_append]
          refine ⟨spares kept, ?_⟩
          rintro m hm hown
          rw [List.mem_singleton.mp hm] at hown
          contradiction

/-- **A stop signals what it found, and removes what is dead.** Whatever becomes of the process
and of its pid file between any two steps of the command: it sends no signal, or one to the
process it found at its start, or by force a second one to the same process, which the pid
file named again in between. It ends with 0 only when it has seen that process dead and has
then removed the pid file and what is at the socket path, if nobody accepts there. When it
ends with 1, it has removed nothing itself. -/
theorem stop_signals_found_process {m₀ : Machine} {c₀ : Console}
    (run : Run (act? o) (begun m₀ c₀) past s) :
    (sent past = [] ∨ ∃ pid, found o past = some pid ∧ Signaled o pid past) ∧
    (s.phase = .done 0 →
      ∃ pid, found o past = some pid ∧ Signaled o pid past ∧
        Happened past
          (fun earlier =>
            Happened earlier (fun earlier => Happened earlier (fun _ => True) (SeesDead pid))
              (ClearsPidFile o))
          (ClearsSocket o)) ∧
    (s.phase = .done 1 → ∀ m ∈ past, m.act = .own → Spares m) := by
  obtain ⟨progress, spares⟩ := progress_run run
  refine ⟨?signals, ?cleared, ?spared⟩
  case signals =>
    generalize s.phase = phase at progress
    cases phase with
    | looking | signaling => exact .inl progress.2
    | checking | signalingAgain => exact .inr ⟨_, progress.1, .inl progress.2.1⟩
    | watching => exact .inr ⟨_, progress⟩
    | clearingPidFile | clearingSocket =>
        obtain ⟨pid, hfound, hsignaled, -⟩ := progress
        exact .inr ⟨pid, hfound, hsignaled⟩
    | done status =>
        cases status with
        | zero =>
            obtain ⟨pid, hfound, hsignaled, -⟩ := progress
            exact .inr ⟨pid, hfound, hsignaled⟩
        | succ => exact progress
  case cleared =>
    intro hdone
    rwa [hdone] at progress
  case spared =>
    intro hdone
    apply spares
    rw [hdone]
    exact ⟨nofun, nofun⟩

/-- A process that does nothing about the first signal, after some signals, at some time. -/
def stuck (signals clock : Nat) (ending : Option (Nat × Nat)) : Machine where
  host := { tree := ⟨[([[112]], .file 0o600 [55, 10]), ([[115]], .socket 0o600 1)]⟩ }
  vantage := { cwd := [] }
  residents := [{ pid := 7, role := .standIn .wedged [47, 112] signals, ending }]
  clock
  nextPid := 8

/-- Its pid file is `/p` and its socket `/s`. -/
def byForce : Options where
  config := { socketPath := [47, 115], pidFile := [47, 112] }
  force := true

theorem runningPid_stuck (signals clock : Nat) :
    (stuck signals clock none).runningPid byForce.config.pidFile = (some 7, []) := by
  have hcontent : (stuck signals clock none).host.tree.contentAt
      (stuck signals clock none).vantage [47, 112] = .ok [55, 10] := by cbv
  have hparse : PidFile.parse [55, 10] = some 7 := by decide
  simp only [Machine.runningPid, PidFile.running, PidFile.read, byForce, hcontent, hparse]
  rfl

/-- By force it is sent a second signal, and when it is dead, its files are removed. -/
theorem stop_signals_found_process_by_force :
    ∃ past s, Run (act? byForce) (begun (stuck 0 0 none) {}) past s ∧ s.phase = .done 0 ∧
      sent past = [7, 7] ∧
      Happened past (fun earlier => sent earlier = [7]) (Confirms byForce 7) ∧
      Happened past
        (fun earlier =>
          Happened earlier (fun earlier => Happened earlier (fun _ => True) (SeesDead 7))
            (ClearsPidFile byForce))
        (ClearsSocket byForce) := by
  have hlooked : act? byForce (begun (stuck 0 0 none) {}) .own =
      some ⟨.signaling 7, stuck 0 0 none, {}, none⟩ := by
    simp only [act?, begun, step, runningPid_stuck]
    rfl
  have hsignaled : act? byForce ⟨.signaling 7, stuck 0 0 none, {}, none⟩ .own =
      some ⟨.checking 7 0, stuck 1 200 none, {}, some 7⟩ := rfl
  have hchecked : act? byForce ⟨.checking 7 0, stuck 1 200 none, {}, some 7⟩ .own =
      some ⟨.signalingAgain 7 0, stuck 1 200 none, {}, none⟩ := by
    simp only [act?, step, runningPid_stuck]
    rfl
  obtain ⟨c, hwatched⟩ : ∃ c, perform? (act? byForce)
      ⟨.signalingAgain 7 0, stuck 1 200 none, {}, none⟩ [.own, .own] =
        some (_, ⟨.clearingPidFile, stuck 2 200 (some (200, 2)), c, none⟩) := ⟨_, rfl⟩
  obtain ⟨m₁, c₁, hcleared⟩ : ∃ m₁ c₁, act? byForce
      ⟨.clearingPidFile, stuck 2 200 (some (200, 2)), c, none⟩ .own =
        some ⟨.clearingSocket, m₁, c₁, none⟩ := ⟨_, _, rfl⟩
  obtain ⟨m₂, c₂, hdone⟩ : ∃ m₂ c₂, act? byForce ⟨.clearingSocket, m₁, c₁, none⟩ .own =
      some ⟨.done 0, m₂, c₂, none⟩ := by
    simp only [act?, step]
    split <;> exact ⟨_, _, rfl⟩
  obtain ⟨past, run, hsent⟩ : ∃ past, Run (act? byForce) (begun (stuck 0 0 none) {}) past
      ⟨.done 0, m₂, c₂, none⟩ ∧ sent past = [7, 7] :=
    ⟨_, (((((Run.start.snoc hlooked).snoc hsignaled).snoc hchecked).append
      (Run.of_perform? hwatched)).snoc hcleared).snoc hdone, rfl⟩
  obtain ⟨-, hends, -⟩ := stop_signals_found_process run
  obtain ⟨pid, -, hpid, hhappened⟩ := hends rfl
  rw [Signaled, hsent] at hpid
  rcases hpid with honce | ⟨htwice, -, hagain⟩
  · exact absurd (congrArg List.length honce) (Nat.succ_ne_self 1)
  · cases htwice
    exact ⟨past, _, run, rfl, hsent, hagain, hhappened⟩

/-! ## The command comes to an end -/

/-- The looks at a process that are left before the time is up. -/
def looksLeft (o : Options) (since : Nat) (m : Machine) : Nat :=
  (since + 1000 * o.timeout - m.clock + (pollInterval - 1)) / pollInterval

/-- The steps that are left at most. -/
def stepsLeft (o : Options) (m : Machine) : Stopping → Nat
  | .looking => 20 * o.timeout + 7
  | .signaling _ => 20 * o.timeout + 6
  | .checking _ since => looksLeft o since m + 5
  | .signalingAgain _ since => looksLeft o since m + 4
  | .watching _ since => looksLeft o since m + 3
  | .clearingPidFile => 2
  | .clearingSocket => 1
  | .done _ => 0

/-- Signals take no time. -/
theorem clock_terminate (m : Machine) (pid : Int) : (m.terminate pid).2.clock = m.clock := by
  unfold Machine.terminate
  split
  · dsimp only
    split
    · rfl
    · split
      · unfold Machine.signalDaemon
        split <;> rfl
      · unfold Machine.signalStandIn
        dsimp only
        split
        · rfl
        · split <;> rfl
  · rfl

theorem Stepped.stepsLeft_lt {m m' : Machine} {phase' : Stopping} {new : Option Int}
    (stepped : Stepped o m phase phase' m' new) :
    stepsLeft o m' phase' < stepsLeft o m phase := by
  cases stepped with
  | signaledByForce =>
      have hclock : ∀ pid, ((m.terminate pid).2.wait signalGap).clock = m.clock + 200 :=
        fun pid => congrArg (· + 200) (clock_terminate m pid)
      simp only [stepsLeft, looksLeft, pollInterval, hclock]
      omega
  | signaled | signaledAgain =>
      simp only [stepsLeft, looksLeft, pollInterval, clock_terminate]
      omega
  | waited early =>
      simp only [stepsLeft, looksLeft, pollInterval, Machine.wait]
      omega
  | _ =>
      simp only [stepsLeft]
      omega

/-- With that many steps the command gets to its end. -/
theorem run_of_runWithin {steps : Nat} (s : Step)
    (enough : stepsLeft o s.machine s.phase < steps) :
    ∃ past last status, Run (act? o) s past last ∧ (∀ m ∈ past, m.act = .own) ∧
      last.phase = .done status ∧
      runWithin o steps s.phase s.machine s.console = (status, last.machine, last.console) := by
  induction steps generalizing s with
  | zero => contradiction
  | succ steps ih =>
      by_cases hdone : ∃ status, s.phase = .done status
      · obtain ⟨status, hphase⟩ := hdone
        refine ⟨[], s, status, .start, fun _ hm => absurd hm List.not_mem_nil, hphase, ?_⟩
        rw [hphase, runWithin]
      · have hundone : ∀ status, s.phase ≠ .done status := fun status h => hdone ⟨status, h⟩
        have hact : act? o s .own = some (step o s.machine s.console s.phase) := by
          unfold act?
          cases hphase : s.phase with
          | done status => exact absurd hphase (hundone status)
          | _ => rfl
        have hless := (stepped_of_act? hact).stepsLeft_lt
        obtain ⟨past, last, status, run, own, hlast, hresult⟩ :=
          ih (step o s.machine s.console s.phase) (by omega)
        refine ⟨⟨s, .own, _⟩ :: past, last, status, (Run.start.snoc hact).append run, ?_, hlast, ?_⟩
        · exact List.forall_mem_cons.mpr ⟨rfl, own⟩
        · rw [← hresult]
          cases hphase : s.phase with
          | done status => exact absurd hphase (hundone status)
          | _ => rw [runWithin]; exact nofun

end Control.Stopping

/-- The command as it is given is one of these runs, in which the others do nothing, and gets
to its end. -/
theorem Control.run_of_stop (o : Options) (m : Machine) (c : Console) :
    ∃ past last status, Run (Stopping.act? o) (Stopping.begun m c) past last ∧
      (∀ m ∈ past, m.act = .own) ∧ last.phase = .done status ∧
      stop o m c = (status, last.machine, last.console) :=
  Stopping.run_of_runWithin (Stopping.begun m c)
    (show 20 * o.timeout + 7 < 20 * o.timeout + 20 by omega)

end SearchDaemon
