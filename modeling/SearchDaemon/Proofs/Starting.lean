import SearchDaemon.Daemon.Starting
import SearchDaemon.Proofs.Tickets

/-!
# How far a start gets

A start goes through its stages until one of them fails. `BroughtUp` lists where it can
end, with the daemon and the site it leaves there; `start_new` says what the first start
of a daemon makes of that. Before the first client connects no thread has anything to do,
so a daemon that is up has the service that `launch` gives.
-/

namespace SearchDaemon

namespace Service

variable {process : Processing} {s : Service}

/-- Where nothing can be done, nothing is. -/
theorem settle_of_settled (settled : s.Settled process) : s.settle process = (s, []) := by
  have hnone : s.threads.findSome? (s.step? process) = none := by
    rw [List.findSome?_eq_none_iff]
    exact fun thread _ => settled thread
  unfold settle
  cases s.stepBound with
  | zero => rfl
  | succ steps => rw [settleWithin, hnone]

/-- A service whose workers and scheduler are started. -/
def manned (n inbound queue : Nat) : Service where
  inbound := { capacity := inbound }
  scheduler := { phase := .selecting }
  workers := crew n queue

theorem startPool_eq (n inbound queue : Nat) :
    ({ inbound := { capacity := inbound }, workers := Worker.pool n queue } :
      Service).startWorkers.1.startScheduler.1 = manned n inbound queue := by
  rw [startWorkers_pool]
  rfl

theorem startMonitor_manned (n inbound queue : Nat) :
    (manned n inbound queue).startMonitor.1 = launch n inbound queue := by
  rw [launch_eq]
  rfl

/-- Before the first client connects all threads wait. -/
theorem settled_without_clients {n inbound queue : Nat} {monitor : Monitor}
    (waits : monitor.phase = .idle ∨ monitor.phase = .receiving) :
    ({ manned n inbound queue with monitor } : Service).Settled process := by
  intro thread
  cases thread with
  | monitor =>
      show ({ manned n inbound queue with monitor } : Service).monitorStep? = none
      unfold monitorStep?
      rcases waits with h | h
      · rw [h]
      · rw [h]
        rfl
  | writer => rfl
  | scheduler => rfl
  | handler => rfl
  | worker i =>
      show ({ manned n inbound queue with monitor } : Service).workerStep? process i = none
      unfold workerStep?
      cases hw : (crew n queue)[i]? with
      | none => simp [manned, hw]
      | some w =>
          rw [crew, List.getElem?_map] at hw
          obtain ⟨j, -, rfl⟩ := Option.map_eq_some_iff.mp hw
          simp [manned, crew, List.getElem?_map, *, Channel.receive?, Channel.isReady]

end Service

/-- The site with another file tree. -/
def Site.withTree (site : Site) (tree : FileTree) : Site :=
  { site with host := { site.host with tree } }

/-- The signal handler that a start builds and starts, if it is to handle signals, and the
table afterwards. -/
inductive SignalTable.Taken (wanted : Bool) (t : SignalTable) :
    Bool → Option Nat → SignalTable → Prop
  | unwanted : wanted = false → Taken wanted t true none t
  | installed : wanted = true → t.active = none →
      Taken wanted t true (some t.handlers.length)
        { dispositions := .all .caught
          active := some t.handlers.length
          count := 0
          handlers := t.handlers ++ [{ running := true, previous := t.dispositions }] }
  | refused : wanted = true → t.active ≠ none →
      Taken wanted t false (some t.handlers.length) { t with handlers := t.handlers ++ [{}] }

namespace Daemon

variable {d d' : Daemon} {site site' : Site} {ok : Bool} {journal : Log.Journal}

/-! ## Stages -/

/-- The directories of the socket and of the pid file are there, in this tree. -/
def Housed (d : Daemon) (site : Site) (tree : FileTree) : Prop :=
  ∃ first lines more,
    site.host.tree.ensureDirectory site.process.vantage (parentDirectory d.config.socketPath)
      0o700 = (true, first, lines) ∧
    first.ensureDirectory site.process.vantage (parentDirectory d.config.pidFile) 0o700 =
      (true, tree, more)

/-- What binding the socket in a tree comes to. -/
def binding (d : Daemon) (site : Site) (tree : FileTree) : Listener.Binding :=
  ({ path := d.config.socketPath } : Listener).bind { site.host with tree } site.process.vantage

/-- The site after an attempt to bind the socket. -/
def boundSite (d : Daemon) (site : Site) (tree : FileTree) : Site :=
  { site with
    host := (d.binding site tree).host
    probed := site.probed ++ (d.binding site tree).probed.toList }

/-- The daemon after an attempt to bind the socket. -/
def boundDaemon (d : Daemon) (site : Site) (tree : FileTree) : Daemon :=
  { d with listener := some (d.binding site tree).listener }

/-- Where a start can end once the socket is bound. -/
inductive Entered (d : Daemon) (site : Site) : Bool → Daemon → Site → Prop
  | noPidFile {e : FileError} :
      site.host.tree.writeAt site.process.vantage d.config.pidFile 0o600
        (ShortWrite.kept site.host.shortWrite (PidFile.content site.process.pid)) = .error e →
      Entered d site false { d with pidFileWritten := false } site
  /-- The pid file is opened, and the system does not take all that is written to it. -/
  | cutShort {tree : FileTree} {reason : Bytes} :
      site.host.tree.writeAt site.process.vantage d.config.pidFile 0o600
        (ShortWrite.kept site.host.shortWrite (PidFile.content site.process.pid)) = .ok tree →
      ShortWrite.objection site.host.shortWrite (PidFile.content site.process.pid) =
        some reason →
      Entered d site false { d with pidFileWritten := false } (site.withTree tree)
  | noSignals {tree : FileTree} {handler : Option Nat} {signals : SignalTable} :
      site.host.tree.writeAt site.process.vantage d.config.pidFile 0o600
        (PidFile.content site.process.pid) = .ok tree →
      SignalTable.Taken d.config.handleSignals site.process.signals false handler signals →
      Entered d site false
        { d with
          pidFileWritten := true
          signalHandler := handler
          service :=
            .manned d.config.workers d.config.inboundCapacity d.config.queueCapacity }
        { site.withTree tree with process := { site.process with signals } }
  | up {tree : FileTree} {handler : Option Nat} {signals : SignalTable} :
      site.host.tree.writeAt site.process.vantage d.config.pidFile 0o600
        (PidFile.content site.process.pid) = .ok tree →
      SignalTable.Taken d.config.handleSignals site.process.signals true handler signals →
      Entered d site true
        { d with
          pidFileWritten := true
          signalHandler := handler
          service :=
            .launch d.config.workers d.config.inboundCapacity d.config.queueCapacity
          running := true }
        { site.withTree tree with process := { site.process with signals } }

/-- Where bringing up a daemon can end. -/
inductive BroughtUp (d : Daemon) (site : Site) : Bool → Daemon → Site → Prop
  | noSocketDirectory {tree : FileTree} {lines : Log.Journal} :
      site.host.tree.ensureDirectory site.process.vantage (parentDirectory d.config.socketPath)
        0o700 = (false, tree, lines) →
      BroughtUp d site false d (site.withTree tree)
  | noPidDirectory {first tree : FileTree} {lines more : Log.Journal} :
      site.host.tree.ensureDirectory site.process.vantage (parentDirectory d.config.socketPath)
        0o700 = (true, first, lines) →
      first.ensureDirectory site.process.vantage (parentDirectory d.config.pidFile) 0o700 =
        (false, tree, more) →
      BroughtUp d site false d (site.withTree tree)
  | noSocket {tree : FileTree} : Housed d site tree → (d.binding site tree).ok = false →
      BroughtUp d site false (d.boundDaemon site tree) (d.boundSite site tree)
  | bound {tree : FileTree} {ok : Bool} {d' : Daemon} {site' : Site} :
      Housed d site tree → (d.binding site tree).ok = true →
      Entered (d.boundDaemon site tree) (d.boundSite site tree) ok d' site' →
      BroughtUp d site ok d' site'

/-- Two stages in a row: the first fails, or the second goes on from where it ended. -/
theorem andThen_cases {a b : Stage} (h : a.andThen b d site = (ok, d', site', journal)) :
    (ok = false ∧ ∃ lines, a d site = (false, d', site', lines)) ∨
      ∃ d₁ site₁ lines more, a d site = (true, d₁, site₁, lines) ∧
        b d₁ site₁ = (ok, d', site', more) := by
  unfold Stage.andThen at h
  split at h
  · rename_i d₁ site₁ lines ha
    right
    obtain ⟨ok', d₂, site₂, more, hb⟩ : ∃ ok' d₂ site₂ more, b d₁ site₁ = (ok', d₂, site₂, more) :=
      ⟨_, _, _, _, rfl⟩
    rw [hb] at h
    cases h
    exact ⟨d₁, site₁, lines, more, ha, hb⟩
  · rename_i hfailed
    left
    obtain ⟨ok', d₁, site₁, lines, ha⟩ : ∃ ok' d₁ site₁ lines, a d site = (ok', d₁, site₁, lines) :=
      ⟨_, _, _, _, rfl⟩
    rw [ha] at h hfailed
    cases h
    cases ok with
    | true => exact (hfailed _ _ _ rfl).elim
    | false => exact ⟨rfl, _, ha⟩

theorem makeParent_eq {path : Daemon → Bytes}
    (h : makeParent path d site = (ok, d', site', journal)) :
    ∃ tree lines, site.host.tree.ensureDirectory site.process.vantage
        (parentDirectory (path d)) 0o700 = (ok, tree, lines) ∧
      d' = d ∧ site' = site.withTree tree := by
  unfold makeParent at h
  obtain ⟨ok', tree, lines, hmade⟩ : ∃ ok' tree lines, site.host.tree.ensureDirectory
      site.process.vantage (parentDirectory (path d)) 0o700 = (ok', tree, lines) :=
    ⟨_, _, _, rfl⟩
  rw [hmade] at h
  cases h
  exact ⟨tree, lines, hmade, rfl, rfl⟩

theorem writePidFile_cases (h : writePidFile d site = (ok, d', site', journal)) :
    ok = false ∧ Entered d site false d' site' ∨
      ∃ written, site.host.tree.writeAt site.process.vantage d.config.pidFile 0o600
        (PidFile.content site.process.pid) = .ok written ∧ ok = true ∧
        d' = { d with pidFileWritten := true } ∧ site' = site.withTree written := by
  unfold writePidFile PidFile.write at h
  dsimp only at h
  cases hwrite : site.host.tree.writeAt site.process.vantage d.config.pidFile 0o600
      (ShortWrite.kept site.host.shortWrite (PidFile.content site.process.pid)) with
  | error e =>
      rw [hwrite] at h
      cases h
      exact Or.inl ⟨rfl, .noPidFile hwrite⟩
  | ok written =>
      rw [hwrite] at h
      dsimp only at h
      cases hcut : ShortWrite.objection site.host.shortWrite
          (PidFile.content site.process.pid) with
      | none =>
          rw [hcut] at h
          cases h
          rw [ShortWrite.kept_of_objection hcut] at hwrite
          exact Or.inr ⟨written, hwrite, rfl, rfl, rfl⟩
      | some reason =>
          rw [hcut] at h
          cases h
          exact Or.inl ⟨rfl, .cutShort hwrite hcut⟩

theorem startSignals_taken (unhandled : d.signalHandler = none)
    (h : startSignals d site = (ok, d', site', journal)) :
    ∃ handler signals,
      SignalTable.Taken d.config.handleSignals site.process.signals ok handler signals ∧
      d' = { d with signalHandler := handler } ∧
      site' = { site with process := { site.process with signals } } := by
  unfold startSignals at h
  split at h
  · rename_i hwanted
    have hlast : (site.process.signals.handlers ++ [({} : SignalHandler)])[
        site.process.signals.handlers.length]? = some {} := List.getElem?_concat_length
    cases hactive : site.process.signals.active with
    | none =>
        simp only [SignalTable.start, hactive, hlast] at h
        cases h
        refine ⟨_, _, .installed hwanted hactive, rfl, ?_⟩
        simp [SignalTable.setHandler]
    | some i =>
        have hbusy : site.process.signals.active ≠ none := by
          rw [hactive]
          exact nofun
        simp only [SignalTable.start, hactive] at h
        cases h
        refine ⟨_, _, .refused hwanted hbusy, rfl, ?_⟩
        rw [hactive]
  · rename_i hwanted
    cases h
    exact ⟨none, site.process.signals, .unwanted (Bool.eq_false_iff.mpr hwanted),
      by rw [← unhandled], rfl⟩

theorem settle_eq {tree : FileTree} (settled : d.service.Settled (d.processor tree).processing) :
    d.settle tree = (d, []) := by
  rw [settle, Service.settle_of_settled settled]

theorem startThreads_eq
    (fresh : d.service = { inbound := { capacity := d.config.inboundCapacity } })
    (h : startThreads d site = (ok, d', site', journal)) :
    ok = true ∧ site' = site ∧
      d' =
        { d with
          service :=
            .manned d.config.workers d.config.inboundCapacity d.config.queueCapacity } := by
  have hmanned := Service.startPool_eq d.config.workers d.config.inboundCapacity
    d.config.queueCapacity
  unfold startThreads at h
  dsimp only at h
  rw [fresh, hmanned, settle_eq (Service.settled_without_clients (Or.inl rfl))] at h
  cases h
  exact ⟨rfl, rfl, rfl⟩

theorem openDoor_eq {n inbound queue : Nat} (manned : d.service = .manned n inbound queue)
    (h : openDoor d site = (ok, d', site', journal)) :
    ok = true ∧ site' = site ∧
      d' = { d with service := .launch n inbound queue, running := true } := by
  unfold openDoor at h
  dsimp only at h
  rw [manned, settle_eq (Service.settled_without_clients (Or.inr rfl))] at h
  cases h
  rw [Service.startMonitor_manned]
  exact ⟨rfl, rfl, rfl⟩

theorem bindListener_eq {tree : FileTree}
    (h : bindListener d (site.withTree tree) = (ok, d', site', journal)) :
    (d.binding site tree).ok = ok ∧ d' = d.boundDaemon site tree ∧
      site' = d.boundSite site tree := by
  obtain ⟨hok, hafter⟩ := Prod.mk.inj h
  cases hafter
  exact ⟨hok, rfl, rfl⟩

/-- Every end that the stages behind the socket's can come to. -/
theorem entered_of_stages
    (fresh : d.service = { inbound := { capacity := d.config.inboundCapacity } })
    (unhandled : d.signalHandler = none)
    (h : Stage.andThen writePidFile (Stage.andThen startThreads
      (Stage.andThen startSignals openDoor)) d site = (ok, d', site', journal)) :
    Entered d site ok d' site' := by
  rcases andThen_cases h with ⟨rfl, lines, h₁⟩ | ⟨d₁, site₁, lines, more, h₁, h⟩
  · rcases writePidFile_cases h₁ with ⟨-, hended⟩ | ⟨tree, -, hno, -⟩
    · exact hended
    · contradiction
  rcases writePidFile_cases h₁ with ⟨hno, -⟩ | ⟨tree, hwrite, -, hd₁, hsite₁⟩
  · contradiction
  have hfresh : d₁.service = { inbound := { capacity := d₁.config.inboundCapacity } } := by
    rw [hd₁, fresh]
  rcases andThen_cases h with ⟨rfl, lines, h₂⟩ | ⟨d₂, site₂, lines, more, h₂, h⟩
  · exact absurd (startThreads_eq hfresh h₂).1 Bool.false_ne_true
  obtain ⟨-, hsite₂, hd₂⟩ := startThreads_eq hfresh h₂
  have hunhandled : d₂.signalHandler = none := by
    rw [hd₂, hd₁]
    exact unhandled
  have hmanned : d₂.service =
      .manned d₁.config.workers d₁.config.inboundCapacity d₁.config.queueCapacity := by
    rw [hd₂]
  rcases andThen_cases h with ⟨rfl, lines, h₃⟩ | ⟨d₃, site₃, lines, more, h₃, h⟩
  · obtain ⟨handler, signals, htaken, hd', hsite'⟩ := startSignals_taken hunhandled h₃
    subst hd' hsite' hd₂ hsite₂ hd₁ hsite₁
    exact .noSignals hwrite htaken
  · obtain ⟨handler, signals, htaken, hd₃, hsite₃⟩ := startSignals_taken hunhandled h₃
    have hmanned' : d₃.service =
        .manned d₁.config.workers d₁.config.inboundCapacity d₁.config.queueCapacity := by
      rw [hd₃]
      exact hmanned
    obtain ⟨rfl, hsite', hd'⟩ := openDoor_eq hmanned' h
    subst hd' hsite' hd₃ hsite₃ hd₂ hsite₂ hd₁ hsite₁
    exact .up hwrite htaken

/-- Every end that the stages can come to. -/
theorem broughtUp_of_bringUp
    (fresh : d.service = { inbound := { capacity := d.config.inboundCapacity } })
    (unhandled : d.signalHandler = none)
    (h : d.bringUp site = (ok, d', site', journal)) : BroughtUp d site ok d' site' := by
  rcases andThen_cases h with ⟨rfl, lines, h₁⟩ | ⟨d₁, site₁, lines, more, h₁, h⟩
  · obtain ⟨tree, lines, hmade, rfl, rfl⟩ := makeParent_eq h₁
    exact .noSocketDirectory hmade
  obtain ⟨first, lines, hfirst, rfl, rfl⟩ := makeParent_eq h₁
  rcases andThen_cases h with ⟨rfl, lines, h₂⟩ | ⟨d₂, site₂, lines, more, h₂, h⟩
  · obtain ⟨tree, lines, hmade, rfl, rfl⟩ := makeParent_eq h₂
    exact .noPidDirectory hfirst hmade
  obtain ⟨tree, lines', hsecond, rfl, rfl⟩ := makeParent_eq h₂
  have housed : Housed d₂ site tree := ⟨first, _, _, hfirst, hsecond⟩
  rcases andThen_cases h with ⟨rfl, lines, h₃⟩ | ⟨d₃, site₃, lines, more, h₃, h⟩
  · obtain ⟨hok, rfl, rfl⟩ := bindListener_eq h₃
    exact .noSocket housed hok
  obtain ⟨hok, rfl, rfl⟩ := bindListener_eq h₃
  exact .bound housed hok (entered_of_stages fresh unhandled h)

/-! ## The first start -/

/-- A new daemon that starts, with all its paths. -/
def opening (config : Config) (processor : FileTree → Processor) (site : Site) : Daemon :=
  (new config processor).opened site

/-- The first start of a daemon: it is refused without workers and where no home is known,
succeeds as far as all stages do, and is undone by a stop if one of them fails. -/
theorem start_new {config : Config} {processor : FileTree → Processor}
    (h : (new config processor).start site = (ok, d', site', journal)) :
    ((∃ objection, (new config processor).objection? site = some objection) ∧ ok = false ∧
        d' = { new config processor with started := true } ∧ site' = site) ∨
      (new config processor).objection? site = none ∧ ∃ reached found,
        BroughtUp (opening config processor site) site ok reached found ∧
        if ok then d' = reached ∧ site' = found
        else ∃ lines, reached.stop found = (d', site', lines) := by
  unfold start at h
  rw [if_neg (by exact Bool.false_ne_true)] at h
  split at h
  · rename_i objection hobjection
    cases h
    exact Or.inl ⟨⟨objection, hobjection⟩, rfl, rfl, rfl⟩
  · rename_i hnone
    right
    refine ⟨hnone, ?_⟩
    split at h
    · rename_i hbrought
      cases h
      exact ⟨_, _, broughtUp_of_bringUp rfl rfl hbrought, rfl, rfl⟩
    · rename_i hbrought
      cases h
      exact ⟨_, _, broughtUp_of_bringUp rfl rfl hbrought, _, rfl⟩

theorem workers_of_objection (none : d.objection? site = none) : 0 < d.config.workers := by
  unfold objection? at none
  split at none
  · contradiction
  · rename_i hsome
    exact Nat.pos_of_ne_zero hsome

/-- A daemon that is up has the service of a launch, and at least one worker. -/
theorem service_of_start {config : Config} {processor : FileTree → Processor}
    (h : (new config processor).start site = (true, d', site', journal)) :
    0 < config.workers ∧
      d'.service = .launch config.workers config.inboundCapacity config.queueCapacity := by
  rcases start_new h with ⟨-, hno, -⟩ | ⟨hnone, reached, found, hbrought, hafter⟩
  · contradiction
  · obtain ⟨rfl, rfl⟩ := hafter
    cases hbrought with
    | bound _ _ hentered =>
        cases hentered with
        | up => exact ⟨workers_of_objection hnone, rfl⟩

end Daemon

end SearchDaemon
