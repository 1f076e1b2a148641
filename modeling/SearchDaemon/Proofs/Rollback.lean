import SearchDaemon.Proofs.Premises

/-!
# Starts that fail

A start can fail at each of its stages, with more or less already built, and one shutdown
undoes them all. `RolledBack` is what it leaves: only directories are new, nobody listens who
did not before, and of what was there only a stale socket, or a pid file that was written
over, is gone. The bits of files are as they were unless the way to one of the daemon's
directories climbs. Only a pid file of which the system has not taken all stays.
-/

namespace SearchDaemon

open FileTree (Furnished Placed Less Passes)

/-- What a failed start may take away: a socket on which nobody listened, at the path of the
daemon's own, and the pid file, if all but the signals had been taken. -/
inductive Spent (config : Config) (site : Site) (tree : FileTree) (place : Place) :
    Entry → Prop
  | stale {bits number : Nat} : number ∉ site.host.listening →
      tree.Names site.process.vantage.cwd config.socketPath place →
      Spent config site tree place (.socket bits number)
  | pidFile {bits : Nat} {data : Bytes} : config.handleSignals = true →
      site.process.signals.active ≠ none →
      tree.Names site.process.vantage.cwd config.pidFile place →
      Spent config site tree place (.file bits data)

/-- What a failed start may leave: its pid file, if the system has not taken all that was
written to it. -/
structure CutShort (config : Config) (site : Site) (tree : FileTree) (place : Place)
    (bits : Nat) : Prop where
  opposed : ∃ reason, ShortWrite.objection site.host.shortWrite
    (PidFile.content site.process.pid) = some reason
  names : tree.Names site.process.vantage.cwd config.pidFile place
  left : tree.get? place =
    some (.file bits (ShortWrite.kept site.host.shortWrite (PidFile.content site.process.pid)))

/-- What a failed start leaves of a site. -/
structure RolledBack (config : Config) (site site' : Site) : Prop where
  listening : site'.host.listening = site.host.listening
  /-- Nothing but directories is new, and a pid file that was cut short. -/
  made : ∀ place entry, site.host.tree.get? place = none →
    site'.host.tree.get? place = some entry →
    entry.isDirectory = true ∨ ∃ bits, CutShort config site site'.host.tree place bits
  directories : ∀ place, site.host.tree.isDirectory place = true →
    site'.host.tree.isDirectory place = true
  /-- What is no directory stays as it is, but for the bits if a path climbs. -/
  kept : ∀ place entry, site.host.tree.get? place = some entry → entry.isDirectory = false →
    site'.host.tree.get? place = some entry ∨
      config.Climbs ∧ site'.host.tree.get? place = some (entry.withMode 0o700) ∨
      site'.host.tree.get? place = none ∧ Spent config site site'.host.tree place entry ∨
      ∃ bits old, entry = .file bits old ∧
        (CutShort config site site'.host.tree place bits ∨
          config.Climbs ∧ CutShort config site site'.host.tree place 0o700)
  /-- Signals are answered as before; a handler that was not started may have been added. -/
  signals : ∃ more, (∀ h ∈ more, h = ({} : SignalHandler)) ∧
    site'.process.signals =
      { site.process.signals with handlers := site.process.signals.handlers ++ more }

section

variable {config : Config} {site : Site} {tree tree' : FileTree} {place : Place} {entry : Entry}

theorem Spent.plain (spent : Spent config site tree place entry) : entry.isPlain = true := by
  cases spent <;> rfl

theorem Spent.of_withMode {mode : Nat}
    (spent : Spent config site tree place (entry.withMode mode)) :
    Spent config site tree place entry := by
  cases entry with
  | socket =>
      cases spent with
      | stale unheard names => exact .stale unheard names
  | file =>
      cases spent with
      | pidFile wanted active names => exact .pidFile wanted active names
  | _ => cases spent

/-- The paths name the same places once they are free. -/
theorem Spent.freed (spent : Spent config site tree place entry) (rooted : tree.Rooted)
    (start : tree.isDirectory site.process.vantage.cwd = true) (passes : Passes tree tree')
    (plain : ∀ entry, tree.get? place = some entry → entry.isPlain = true)
    (free : tree'.get? place = none) : Spent config site tree' place entry := by
  have hnames {path : Bytes} (names : tree.Names site.process.vantage.cwd path place) :
      tree'.Names site.process.vantage.cwd path place :=
    names.kept rooted start passes plain fun _ hentry => by
      rw [free] at hentry
      contradiction
  cases spent with
  | stale unheard names => exact .stale unheard (hnames names)
  | pidFile wanted active names => exact .pidFile wanted active (hnames names)

theorem spent_stale (stale : Host.Stale { site.host with tree } site.process.vantage
      config.socketPath place) (there : tree.get? place = some entry) :
    Spent config site tree place entry := by
  obtain ⟨hnames, bits, number, hsocket, hnumber⟩ := stale
  rw [show tree.get? place = _ from hsocket] at there
  cases there
  exact .stale hnumber hnames

/-- What is left of a tree: some files are gone, and some are pid files that were cut short. -/
structure Remains (config : Config) (site : Site) (gone cut : Place → Prop)
    (tree tree' : FileTree) : Prop where
  free : ∀ place, gone place → tree'.get? place = none
  short : ∀ place, cut place → ∃ bits, CutShort config site tree' place bits ∧
    ∀ entry, tree.get? place = some entry → ∃ old, entry = .file bits old
  same : ∀ place, ¬gone place → ¬cut place → tree'.get? place = tree.get? place

theorem Remains.of_less {gone : Place → Prop} (less : Less gone tree tree') :
    Remains config site gone (fun _ => False) tree tree' where
  free := less.free
  short := fun _ h => h.elim
  same := fun place hgone _ => less.same place hgone

/-- Walks pass as before if only plain files are gone. -/
theorem Remains.passes {gone cut : Place → Prop} (remains : Remains config site gone cut tree tree')
    (plain : ∀ place entry, gone place → tree.get? place = some entry → entry.isPlain = true) :
    Passes tree tree' := by
  have hsame {place : Place} {entry : Entry} (hentry : tree.get? place = some entry)
      (hplain : entry.isPlain = false) : tree'.get? place = some entry := by
    rw [remains.same place, hentry]
    · exact fun hgone => Bool.false_ne_true (hplain.symm.trans (plain _ _ hgone hentry))
    · intro hcut
      obtain ⟨bits, -, hfile⟩ := remains.short place hcut
      obtain ⟨old, rfl⟩ := hfile entry hentry
      contradiction
  exact ⟨fun hentry => ⟨_, hsame hentry rfl⟩, fun hentry => hsame hentry rfl⟩

end

theorem RolledBack.refl (config : Config) (site : Site) : RolledBack config site site where
  listening := rfl
  made := by
    intro place entry hnone hentry
    rw [hnone] at hentry
    contradiction
  directories := fun _ h => h
  kept := fun _ _ h _ => Or.inl h
  signals := ⟨[], nofun, by rw [List.append_nil]⟩

namespace Daemon

variable {config : Config} {site site' : Site} {ground : FileTree}

/-- Directories are added, and of that tree some files are gone or cut short. -/
theorem rolledBack_of_remains {touched gone cut : Place → Prop} (rooted : site.host.tree.Rooted)
    (start : site.host.tree.isDirectory site.process.vantage.cwd = true)
    (furnished : Furnished 0o700 touched site.host.tree ground)
    (climbs : ∀ place, touched place → config.Climbs)
    (remains : Remains config site gone cut ground site'.host.tree)
    (spent : ∀ place entry, gone place → ground.get? place = some entry →
      Spent config site ground place entry)
    (listening : site'.host.listening = site.host.listening)
    (signals : ∃ more, (∀ h ∈ more, h = ({} : SignalHandler)) ∧
      site'.process.signals =
        { site.process.signals with handlers := site.process.signals.handlers ++ more }) :
    RolledBack config site site' := by
  have hplain : ∀ place entry, gone place → ground.get? place = some entry →
      entry.isPlain = true := fun place entry hgone hentry => (spent place entry hgone hentry).plain
  have hpasses := remains.passes hplain
  have hspent {place : Place} {entry : Entry} (hgone : gone place)
      (hentry : ground.get? place = some entry) :
      Spent config site site'.host.tree place entry :=
    (spent place entry hgone hentry).freed (furnished.rooted rooted)
      (furnished.passes.isDirectory start) hpasses (fun entry => hplain place entry hgone)
      (remains.free place hgone)
  -- A place is free in the end, or cut short, or as the making of directories left it.
  refine ⟨listening, ?_, ?_, ?_, signals⟩
  · intro place entry hnone hentry
    by_cases hgone : gone place
    · rw [remains.free place hgone] at hentry
      contradiction
    · by_cases hcut : cut place
      · obtain ⟨bits, hshort, -⟩ := remains.short place hcut
        exact Or.inr ⟨bits, hshort⟩
      · rw [remains.same place hgone hcut] at hentry
        exact Or.inl (furnished.made hnone hentry).1
  · intro place hdirectory
    exact hpasses.isDirectory (furnished.passes.isDirectory hdirectory)
  · intro place entry hentry hfile
    have hkept := furnished.kept hentry
    by_cases hgone : gone place
    · right
      right
      left
      refine ⟨remains.free place hgone, ?_⟩
      rcases hkept with hsame | ⟨hset, -⟩
      · exact hspent hgone hsame
      · exact (hspent hgone hset).of_withMode
    · by_cases hcut : cut place
      · right
        right
        right
        obtain ⟨bits, hshort, hover⟩ := remains.short place hcut
        rcases hkept with hsame | ⟨hset, htouched⟩
        · obtain ⟨old, rfl⟩ := hover entry hsame
          exact ⟨bits, old, rfl, Or.inl hshort⟩
        · obtain ⟨old, hold⟩ := hover _ hset
          cases entry with
          | file before old =>
              cases hold
              exact ⟨before, old, rfl, Or.inr ⟨climbs place (htouched rfl), hshort⟩⟩
          | _ => contradiction
      · rw [remains.same place hgone hcut]
        rcases hkept with hsame | ⟨hset, htouched⟩
        · exact Or.inl hsame
        · by_cases hplain : entry.isPlain = true
          · exact Or.inr (Or.inl ⟨climbs place (htouched hplain), hset⟩)
          · -- A link has no bits of its own.
            left
            cases entry <;> first | contradiction | exact hset

theorem climbs_of_inTheWay {d : Daemon} {tree : FileTree} {place : Place}
    (h : d.InTheWay site tree place) : d.config.Climbs := by
  obtain ⟨path, rfl | rfl, hclimbs, -⟩ := h
  · exact Or.inl hclimbs
  · exact Or.inr hclimbs

/-- A new daemon has bound, written and taken over nothing. -/
structure Blank (d : Daemon) : Prop where
  service : d.service = { inbound := { capacity := d.config.inboundCapacity } }
  listener : d.listener = none
  pidFileWritten : d.pidFileWritten = false
  signalHandler : d.signalHandler = none

theorem Blank.emptyHanded {d : Daemon} (blank : d.Blank) : d.EmptyHanded where
  hungUp := fun _ => hungUp_unbound (by rw [blank.listener]; rfl)
  tidied := fun _ _ => tidied_nothing (by rw [blank.listener]; exact nofun) blank.pidFileWritten

theorem Lodged.spent {d : Daemon} {tree : FileTree} {place : Place} {entry : Entry}
    (lodged : d.Lodged site tree place) (there : tree.get? place = some entry) :
    Spent d.config site tree place entry := by
  rcases lodged.covers with hnone | hstale
  · rw [hnone] at there
    contradiction
  · exact spent_stale hstale there

/-- A daemon that has not come to its signals adds no handler. -/
theorem signals_unhandled {d d' : Daemon} {found : Site} (unhandled : d.signalHandler = none)
    (stopped : Stopped d found d' site')
    (same : found.process.signals = site.process.signals) :
    ∃ more, (∀ h ∈ more, h = ({} : SignalHandler)) ∧
      site'.process.signals =
        { site.process.signals with handlers := site.process.signals.handlers ++ more } := by
  refine ⟨[], nofun, ?_⟩
  rw [stopped.signals, released_unhandled unhandled, List.append_nil]
  exact same

section

variable {d d' : Daemon} {tree : FileTree}
  (rooted : site.host.tree.Rooted)
  (start : site.host.tree.isDirectory site.process.vantage.cwd = true)
include rooted start

/-- A start that does not get as far as the socket. -/
theorem rolledBack_without_socket (blank : d.Blank)
    (furnished : Furnished 0o700 (fun _ => d.config.Climbs) site.host.tree tree)
    (stopped : Stopped d (site.withTree tree) d' site') : RolledBack d.config site site' := by
  obtain ⟨hlistening, htree⟩ := stopped.untouched blank.emptyHanded
  have hless : Less (fun _ => False) tree site'.host.tree := by
    rw [htree]
    exact ⟨fun _ h => h.elim, fun _ _ => rfl⟩
  exact rolledBack_of_remains rooted start furnished (fun _ h => h) (.of_less hless)
    (fun _ _ h => h.elim) hlistening (signals_unhandled blank.signalHandler stopped rfl)

/-- A start that cannot bind its socket. -/
theorem rolledBack_unbound (blank : d.Blank) (housed : Housed d site tree)
    (failed : (d.binding site tree).ok = false)
    (stopped : Stopped (d.boundDaemon site tree) (d.boundSite site tree) d' site') :
    RolledBack d.config site site' := by
  obtain ⟨hfurnished, hrooted, hstart⟩ := housed.ground rooted start
  obtain ⟨hlistener, hlistening, gone, hless, hstale⟩ := unbound_of_binding hrooted hstart failed
  have hunwritten : (d.boundDaemon site tree).pidFileWritten = false := blank.pidFileWritten
  have hunhandled : (d.boundDaemon site tree).signalHandler = none := blank.signalHandler
  obtain ⟨hlistening', htree⟩ := stopped.untouched (emptyHanded_unbound hlistener hunwritten)
  rw [← htree] at hless
  refine rolledBack_of_remains rooted start hfurnished (fun _ => climbs_of_inTheWay)
    (.of_less hless) ?_
    (hlistening'.trans hlistening) (signals_unhandled hunhandled stopped rfl)
  exact fun place entry hplace hentry => spent_stale (hstale place hplace) hentry

/-- A start that cannot write its pid file. -/
theorem rolledBack_without_pidFile (blank : d.Blank)
    (numbered : ∀ number ∈ site.host.listening, number < site.host.nextSocket)
    (housed : Housed d site tree) (ok : (d.binding site tree).ok = true)
    (stopped : Stopped { d.boundDaemon site tree with pidFileWritten := false }
      (d.boundSite site tree) d' site') : RolledBack d.config site site' := by
  obtain ⟨hfurnished, hrooted, hstart⟩ := housed.ground rooted start
  obtain ⟨place, hlodged⟩ := lodged_of_binding hrooted hstart ok
  have htree : site'.host.tree = _ := stopped.tree.trans (tidied_socket hlodged.listener rfl)
  have hless : Less (· = place) tree site'.host.tree := by
    rw [htree]
    exact hlodged.placed.less hrooted hstart
  refine rolledBack_of_remains rooted start hfurnished (fun _ => climbs_of_inTheWay)
    (.of_less hless) ?_ ?_
    (signals_unhandled (by exact blank.signalHandler) stopped rfl)
  · rintro _ entry rfl hentry
    exact hlodged.spent hentry
  · rw [stopped.listening, hlodged.listening]
    exact hungUp_own (by rw [hlodged.listener]; rfl) numbered

/-- A start whose pid file the system does not take in full: it stays as it is. -/
theorem rolledBack_cut_short {written : FileTree} {reason : Bytes} (blank : d.Blank)
    (numbered : ∀ number ∈ site.host.listening, number < site.host.nextSocket)
    (housed : Housed d site tree) (ok : (d.binding site tree).ok = true)
    (ordinary : ¬tree.NamesLinkOrPipe site.process.vantage.cwd d.config.pidFile)
    (writes : (d.boundSite site tree).host.tree.writeAt site.process.vantage d.config.pidFile
      0o600 (ShortWrite.kept site.host.shortWrite (PidFile.content site.process.pid)) =
        .ok written)
    (opposed : ShortWrite.objection site.host.shortWrite (PidFile.content site.process.pid) =
      some reason)
    (stopped : Stopped { d.boundDaemon site tree with pidFileWritten := false }
      ((d.boundSite site tree).withTree written) d' site') : RolledBack d.config site site' := by
  obtain ⟨hfurnished, hrooted, hstart⟩ := housed.ground rooted start
  obtain ⟨place, hlodged⟩ := lodged_of_binding hrooted hstart ok
  obtain ⟨other, bits, hplaced, hdistinct, hnames, hleft, hfile⟩ :=
    hlodged.placed_pidFile hrooted hstart ordinary writes
  -- The socket is removed, the pid file is not.
  have htree : site'.host.tree = written.erase place := by
    have hremoved := stopped.tree.trans (tidied_socket hlodged.listener rfl)
    exact hremoved.trans (hlodged.placed.removeFile hrooted hstart hplaced.passes
      (hplaced.same place hdistinct))
  have hnamed := hlodged.placed.named hrooted hstart
  have herased := FileTree.sameBut_erase written hnamed
  have hsocket : ∀ entry, written.get? place = some entry → entry.isPlain = true := by
    intro entry hentry
    rw [hplaced.same place hdistinct, hlodged.here] at hentry
    cases hentry
    rfl
  have hpasses := (hlodged.placed.passes.trans hplaced.passes).trans (herased.passes hsocket)
  have hstays : (written.erase place).get? other = some (.file bits
      (ShortWrite.kept site.host.shortWrite (PidFile.content site.process.pid))) := by
    rw [herased other hdistinct.symm, hleft]
  have hremains : Remains d.config site (· = place) (· = other) tree site'.host.tree := by
    rw [htree]
    refine ⟨?_, ?_, ?_⟩
    · rintro _ rfl
      exact FileTree.get?_erase_here _ hnamed
    · rintro _ rfl
      refine ⟨bits, ⟨⟨reason, opposed⟩, hnames.kept hrooted hstart hpasses ?_ ?_, hstays⟩, hfile⟩
      · intro entry hentry
        obtain ⟨old, rfl⟩ := hfile entry hentry
        rfl
      · intro entry hentry
        rw [hstays] at hentry
        cases hentry
        rfl
    · intro spot hsocket hpid
      rw [herased spot hsocket, hplaced.same spot hpid, hlodged.placed.same spot hsocket]
  refine rolledBack_of_remains rooted start hfurnished (fun _ => climbs_of_inTheWay) hremains ?_ ?_
    (signals_unhandled (by exact blank.signalHandler) stopped rfl)
  · rintro _ entry rfl hentry
    exact hlodged.spent hentry
  · rw [stopped.listening]
    exact (congrArg _ hlodged.listening).trans
      (hungUp_own (by exact congrArg (Option.bind · _) hlodged.listener) numbered)

/-- A start that finds another handler of signals active. -/
theorem rolledBack_without_signals {written : FileTree} {handler : Option Nat}
    {signals : SignalTable} {service : Service}
    (numbered : ∀ number ∈ site.host.listening, number < site.host.nextSocket)
    (housed : Housed d site tree) (ok : (d.binding site tree).ok = true)
    (ordinary : ¬tree.NamesLinkOrPipe site.process.vantage.cwd d.config.pidFile)
    (writes : (d.boundSite site tree).host.tree.writeAt site.process.vantage d.config.pidFile
      0o600 (PidFile.content site.process.pid) = .ok written)
    (taken : SignalTable.Taken d.config.handleSignals site.process.signals false handler signals)
    (stopped : Stopped
      { d.boundDaemon site tree with pidFileWritten := true, signalHandler := handler, service }
      { (d.boundSite site tree).withTree written with process := { site.process with signals } }
      d' site') : RolledBack d.config site site' := by
  obtain ⟨hfurnished, hrooted, hstart⟩ := housed.ground rooted start
  obtain ⟨place, hlodged⟩ := lodged_of_binding hrooted hstart ok
  obtain ⟨other, bits, hplaced, hdistinct, hnames, -, hfile⟩ :=
    hlodged.placed_pidFile hrooted hstart ordinary writes
  have htree : site'.host.tree = _ := stopped.tree.trans (tidied_both hlodged.listener rfl)
  have hless : Less (fun spot => spot = place ∨ spot = other) tree site'.host.tree := by
    rw [htree]
    exact hlodged.placed.less_both hrooted hstart hplaced hdistinct
  obtain ⟨hwanted, hactive, hreleased⟩ : d.config.handleSignals = true ∧
      site.process.signals.active ≠ none ∧ site'.process.signals =
        { site.process.signals with handlers := site.process.signals.handlers ++ [{}] } := by
    cases taken with
    | refused hwanted hactive => exact ⟨hwanted, hactive, stopped.signals.trans (released_idle rfl)⟩
  refine rolledBack_of_remains rooted start hfurnished (fun _ => climbs_of_inTheWay)
    (.of_less hless) ?_ ?_
    ⟨[{}], ?_, hreleased⟩
  · rintro _ entry (rfl | rfl) hentry
    · exact hlodged.spent hentry
    · obtain ⟨old, rfl⟩ := hfile entry hentry
      exact .pidFile hwanted hactive hnames
  · have hown : (d.boundDaemon site tree).listener.bind (·.socket) = some site.host.nextSocket := by
      rw [hlodged.listener]
      rfl
    exact (stopped.listening.trans (congrArg _ hlodged.listening)).trans
      (hungUp_own (by exact hown) numbered)
  · intro h hmem
    exact List.mem_singleton.mp hmem

end

/-! ## Every stage -/

/-- **A start that fails at any stage is undone.** -/
theorem BroughtUp.rolledBack {d d' reached : Daemon} {found : Site} (blank : d.Blank)
    (sound : site.Sound)
    (ordinary : ∀ tree, Housed d site tree →
      ¬tree.NamesLinkOrPipe site.process.vantage.cwd d.config.pidFile)
    (brought : BroughtUp d site false reached found) (stopped : Stopped reached found d' site') :
    RolledBack d.config site site' := by
  have hrooted := sound.tree.rooted
  cases brought with
  | noSocketDirectory hfirst =>
      obtain ⟨hfurnished, -⟩ := FileTree.furnished_ensureDirectory hfirst hrooted sound.workplace
      exact rolledBack_without_socket hrooted sound.workplace blank
        (hfurnished.weaken fun _ h => Or.inl h.1) stopped
  | noPidDirectory hfirst hsecond =>
      obtain ⟨hfurnished, -⟩ := FileTree.furnished_ensureDirectory hfirst hrooted sound.workplace
      obtain ⟨hfurnished', -⟩ := FileTree.furnished_ensureDirectory hsecond
        (hfurnished.rooted hrooted) (hfurnished.passes.isDirectory sound.workplace)
      exact rolledBack_without_socket hrooted sound.workplace blank
        ((hfurnished.weaken fun _ h => Or.inl h.1).trans
          (hfurnished'.weaken fun _ h => Or.inr h.1)) stopped
  | noSocket housed failed =>
      exact rolledBack_unbound hrooted sound.workplace blank housed failed stopped
  | bound housed hok entered =>
      cases entered with
      | noPidFile =>
          exact rolledBack_without_pidFile hrooted sound.workplace blank sound.numbered housed hok
            stopped
      | cutShort hwrites hopposed =>
          obtain ⟨-, hground, hstart⟩ := housed.ground hrooted sound.workplace
          rw [shortWrite_boundSite hground hstart] at hwrites hopposed
          exact rolledBack_cut_short hrooted sound.workplace blank sound.numbered housed hok
            (ordinary _ housed) hwrites hopposed stopped
      | noSignals hwrites htaken =>
          exact rolledBack_without_signals hrooted sound.workplace sound.numbered housed hok
            (ordinary _ housed) hwrites htaken stopped

/-- However far a failing start has come, no client has connected. -/
theorem BroughtUp.windingDown {d reached : Daemon} {found : Site} (blank : d.Blank)
    (brought : BroughtUp d site false reached found) :
    Service.WindingDown reached.service.monitor.registered reached.service.monitor.registered []
      reached.service := by
  have hfresh : Service.WindingDown d.service.monitor.registered d.service.monitor.registered []
      d.service := by
    rw [blank.service]
    exact Service.windingDown_without_clients (Or.inl ⟨rfl, rfl⟩)
  cases brought with
  | noSocketDirectory | noPidDirectory | noSocket => exact hfresh
  | bound _ _ entered =>
      cases entered with
      | noPidFile | cutShort => exact hfresh
      | noSignals =>
          refine Service.windingDown_without_clients (Or.inr ⟨rfl, ?_⟩)
          intro w hw
          obtain ⟨i, -, rfl⟩ := List.mem_map.mp hw
          exact ⟨rfl, rfl⟩

theorem BroughtUp.unstopped {d reached : Daemon} {found : Site} {ok : Bool}
    (brought : BroughtUp d site ok reached found) (unstopped : d.stopped = false) :
    reached.stopped = false := by
  cases brought with
  | noSocketDirectory | noPidDirectory | noSocket => exact unstopped
  | bound _ _ entered => cases entered <;> exact unstopped

theorem BroughtUp.started {d reached : Daemon} {found : Site} {ok : Bool}
    (brought : BroughtUp d site ok reached found) : reached.started = d.started := by
  cases brought with
  | noSocketDirectory | noPidDirectory | noSocket => rfl
  | bound _ _ entered => cases entered <;> rfl

/-- What the first start of a daemon can come to, in whatever order its threads end if it is
undone. -/
inductive Starts (config : Config) (processor : FileTree → Processor) (site : Site) :
    Bool → Daemon → Site → Prop
  | refused {objection : Bytes} : (new config processor).objection? site = some objection →
      Starts config processor site false { new config processor with started := true } site
  | up {reached : Daemon} {found : Site} : (new config processor).objection? site = none →
      BroughtUp (opening config processor site) site true reached found →
      Starts config processor site true reached found
  | undone {reached d : Daemon} {found site' : Site} :
      (new config processor).objection? site = none →
      BroughtUp (opening config processor site) site false reached found →
      Stops reached found d site' → Starts config processor site false d site'

section

variable {processor : FileTree → Processor} {d : Daemon} {ok : Bool} {journal : Log.Journal}

theorem blank_opening : (opening config processor site).Blank := ⟨rfl, rfl, rfl, rfl⟩

/-- What a new daemon does to start is one of the ways in which it can. -/
theorem starts_of_start (h : (new config processor).start site = (ok, d, site', journal)) :
    Starts config processor site ok d site' := by
  rcases start_new h with ⟨⟨objection, hobjection⟩, rfl, rfl, rfl⟩ |
    ⟨hnone, reached, found, hbrought, hafter⟩
  · exact .refused hobjection
  · cases ok with
    | true =>
        obtain ⟨rfl, rfl⟩ := hafter
        exact .up hnone hbrought
    | false =>
        obtain ⟨lines, hstop⟩ := hafter
        exact .undone hnone hbrought
          (stops_of_stop (hbrought.unstopped rfl) (hbrought.windingDown blank_opening) hstop)

/-- **A first start that fails leaves nothing behind** but directories, and all queues of the
workers closed, in whatever order the threads end; what `start` does is one of those orders.
A daemon that has been started is not started again. -/
theorem failed_start_rolls_back (sound : site.Sound)
    (ordinary : ∀ tree, Housed (opening config processor site) site tree →
      ¬tree.NamesLinkOrPipe site.process.vantage.cwd (config.resolve site.process.home).pidFile) :
    (∀ ok d site' journal, (new config processor).start site = (ok, d, site', journal) →
      Starts config processor site ok d site') ∧
      (∀ d site', Starts config processor site false d site' →
        RolledBack (config.resolve site.process.home) site site' ∧
        ∀ w ∈ d.service.workers, w.queue.closed = true) ∧
      (∀ ok d site', Starts config processor site ok d site' → d.started = true) ∧
      ∀ (d : Daemon) (other : Site), d.started = true → d.start other =
        (false, d, other, [Log.warning (text "Coordinator already started")]) := by
  refine ⟨fun _ _ _ _ => starts_of_start, ?_, ?_, ?_⟩
  · intro d site' hstarts
    cases hstarts with
    | refused => exact ⟨.refl _ _, nofun⟩
    | undone _ hbrought hstops =>
        -- One shutdown for all stages: what it undoes depends on what was reached.
        have hstopped := stopped_of_stops hstops
        obtain ⟨hwound, -⟩ := hstopped.wound_down (hbrought.windingDown blank_opening)
        exact ⟨hbrought.rolledBack blank_opening sound ordinary hstopped,
          fun w hw => (hwound.workers w hw).2.1⟩
  · intro ok d site' hstarts
    cases hstarts with
    | refused => rfl
    | up _ hbrought => exact hbrought.started
    | undone _ hbrought hstops =>
        exact (stopped_of_stops hstops).flags.2.2.trans hbrought.started
  · intro d other hstarted
    rw [start, if_pos hstarted]

end

/-- The stale socket was taken for the daemon's own and the old pid file was written over when
the signals could not be had. Both are gone. -/
theorem failed_start_rolls_back_handler_active :
    ∃ d site' journal, (new (atTheRoot true) fun _ => failsOnSeven).start leftBehind =
        (false, d, site', journal) ∧
      RolledBack (atTheRoot true) leftBehind site' ∧
      (∀ w ∈ d.service.workers, w.queue.closed = true) ∧ site'.host.tree.entries = [] := by
  have hfails : ((new (atTheRoot true) fun _ => failsOnSeven).start leftBehind).1 = false := by
    cbv
  have hempty : ((new (atTheRoot true) fun _ => failsOnSeven).start
      leftBehind).2.2.1.host.tree.entries = [] := by
    cbv
  obtain ⟨d, site', journal, hstart⟩ : ∃ d site' journal, (new (atTheRoot true) fun _ =>
      failsOnSeven).start leftBehind = (false, d, site', journal) :=
    ⟨_, _, _, Prod.ext hfails rfl⟩
  obtain ⟨hstarts, hundone, -⟩ := @failed_start_rolls_back (atTheRoot true) leftBehind
    (fun _ => failsOnSeven) sound_leftBehind (fun _ => ordinary_leftBehind)
  obtain ⟨hback, hclosed⟩ := hundone d site' (hstarts false d site' journal hstart)
  rw [hstart] at hempty
  exact ⟨d, site', journal, hstart, hback, hclosed, hempty⟩

/-! ## A file that is taken for a directory -/

/-- A file `f`, and nothing else. -/
def withFile : Site where
  host := { tree := ⟨[([[102]], .file 0o644 [])]⟩ }
  process := { pid := 5, vantage := { cwd := [] } }

/-- The socket is to be `m/../f/s`. -/
def throughFile : Config where
  socketPath := [109, 47, 46, 46, 47, 102, 47, 115]
  pidFile := [47, 112]
  workers := 1

/-- Directories are made with the bits of a private one, and a file that stands where the last
of them is to be gets the same bits, although the start fails. -/
theorem failed_start_sets_bits_of_file :
    ((new throughFile fun _ => failsOnSeven).start withFile).1 = false ∧
      withFile.host.tree.get? [[102]] = some (.file 0o644 []) ∧
      ((new throughFile fun _ => failsOnSeven).start withFile).2.2.1.host.tree.get? [[102]] =
        some (.file 0o700 []) := by
  refine ⟨?_, ?_, ?_⟩ <;> cbv

/-- The same site, on a system that takes one byte of what is written to a file. -/
def almostFull : Site :=
  { withFile with host := { withFile.host with shortWrite := some { taken := 1, reason := [] } } }

/-- A pid file that was cut short stays although the start fails. -/
theorem failed_start_leaves_pid_file :
    ((new (atTheRoot false) fun _ => failsOnSeven).start almostFull).1 = false ∧
      almostFull.host.tree.get? [[112]] = none ∧
      ((new (atTheRoot false) fun _ => failsOnSeven).start almostFull).2.2.1.host.tree.get?
        [[112]] = some (.file 0o600 [53]) := by
  refine ⟨?_, ?_, ?_⟩ <;> cbv

end Daemon

end SearchDaemon
