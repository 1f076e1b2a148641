import SearchDaemon.Proofs.Binding
import SearchDaemon.Proofs.Teardown

/-!
# What a stop comes to

The first stop of a daemon closes its socket, ends the threads of its service, gives the
signals back and removes the files that the daemon has made. `Stops` lets the threads end in
any order; what `stop` does is one of them, if the service is ready for it. `Stopped` says what
all of them come to, for every daemon, however far it had come. Every later stop does nothing.
-/

namespace SearchDaemon.Daemon

variable {d d' : Daemon} {site site' : Site} {journal : Log.Journal}

/-- The sockets that still accept connections when the daemon's own is closed. -/
def hungUp (d : Daemon) (listening : List Nat) : List Nat :=
  match d.listener.bind (·.socket) with
  | some number => listening.filter (· ≠ number)
  | none => listening

/-- The tree without the files that the daemon has made. -/
def tidied (d : Daemon) (v : Vantage) (tree : FileTree) : FileTree :=
  let tree := match d.listener with
    | some l => if l.createdFile then (tree.removeFile v l.path).2.1 else tree
    | none => tree
  if d.pidFileWritten then (tree.removeFile v d.config.pidFile).2.1 else tree

/-- How signals are answered when the daemon's handler is stopped. -/
def released (d : Daemon) (signals : SignalTable) : SignalTable :=
  match d.signalHandler with
  | some i => (signals.stop i).1
  | none => signals

theorem hungUp_unbound {listening : List Nat} (unbound : d.listener.bind (·.socket) = none) :
    d.hungUp listening = listening := by
  rw [hungUp, unbound]

/-- The daemon's own socket is the only one that is closed. -/
theorem hungUp_own {number : Nat} {listening : List Nat}
    (own : d.listener.bind (·.socket) = some number)
    (new : ∀ other ∈ listening, other < number) :
    d.hungUp (number :: listening) = listening := by
  rw [hungUp, own]
  dsimp only
  rw [List.filter_cons_of_neg (by simp), List.filter_eq_self]
  intro other hother
  exact decide_eq_true (Nat.ne_of_lt (new other hother))

theorem tidied_nothing {v : Vantage} {tree : FileTree}
    (unmade : ∀ l, d.listener = some l → l.createdFile = false)
    (unwritten : d.pidFileWritten = false) : d.tidied v tree = tree := by
  rw [tidied, unwritten, if_neg Bool.false_ne_true]
  split
  · rename_i l hl
    rw [unmade l hl, if_neg Bool.false_ne_true]
  · rfl

theorem tidied_socket {v : Vantage} {tree : FileTree} {path : Bytes} {socket : Option Nat}
    (listener : d.listener = some { path, socket, createdFile := true })
    (unwritten : d.pidFileWritten = false) : d.tidied v tree = (tree.removeFile v path).2.1 := by
  rw [tidied, listener, unwritten]
  rfl

theorem tidied_both {v : Vantage} {tree : FileTree} {path : Bytes} {socket : Option Nat}
    (listener : d.listener = some { path, socket, createdFile := true })
    (written : d.pidFileWritten = true) :
    d.tidied v tree = ((tree.removeFile v path).2.1.removeFile v d.config.pidFile).2.1 := by
  rw [tidied, listener, written]
  rfl

/-- A daemon whose stop would close no socket and remove no file. -/
structure EmptyHanded (d : Daemon) : Prop where
  hungUp : ∀ listening, d.hungUp listening = listening
  tidied : ∀ v tree, d.tidied v tree = tree

/-- A listener that was never bound has nothing. -/
theorem emptyHanded_unbound {path : Bytes} (listener : d.listener = some { path })
    (unwritten : d.pidFileWritten = false) : d.EmptyHanded where
  hungUp := fun _ => hungUp_unbound (by rw [listener]; rfl)
  tidied := by
    refine fun _ _ => tidied_nothing ?_ unwritten
    rw [listener]
    rintro l ⟨⟩
    rfl

theorem released_unhandled {signals : SignalTable} (unhandled : d.signalHandler = none) :
    d.released signals = signals := by
  rw [released, unhandled]

/-- A handler that was never started leaves the signals alone. -/
theorem released_idle {t : SignalTable} (own : d.signalHandler = some t.handlers.length) :
    d.released { t with handlers := t.handlers ++ [{}] } =
      { t with handlers := t.handlers ++ [{}] } := by
  have hlast : (t.handlers ++ [({} : SignalHandler)])[t.handlers.length]? = some {} :=
    List.getElem?_concat_length
  rw [released, own]
  simp [SignalTable.stop]

/-- The threads of a service act in some order until the one that stops it is done. -/
def Ends (process : Processing) (s s' : Service) : Prop :=
  ∃ past, Run (Teardown.act? process) { service := s } past { service := s', stopper := .done }

/-- What the first stop of a daemon can come to. -/
inductive Stops (d : Daemon) (site : Site) : Daemon → Site → Prop
  | intro {closed last : Daemon} {closedSite lastSite : Site} {s : Service}
      {lines more : Log.Journal} :
      d.stopped = false → d.closeListener site = (closed, closedSite, lines) →
      Ends (closed.processor closedSite.host.tree).processing closed.service s →
      ({ closed with running := false, service := s } : Daemon).tidyUp closedSite =
        (last, lastSite, more) →
      Stops d site { last with stopped := true }.requestShutdown lastSite

/-- What every first stop makes of a daemon and its site. -/
structure Stopped (d : Daemon) (site : Site) (d' : Daemon) (site' : Site) : Prop where
  service : ∃ s, Ends (d.processor site.host.tree).processing d.service s ∧
    d'.service = s.requestShutdown
  flags : d'.running = false ∧ d'.stopped = true ∧ d'.started = d.started
  listening : site'.host.listening = d.hungUp site.host.listening
  tree : site'.host.tree = d.tidied site.process.vantage site.host.tree
  signals : site'.process.signals = d.released site.process.signals

theorem closeListener_eq (d : Daemon) (site : Site) :
    ∃ listener, (d.closeListener site).1 = { d with listener } ∧
      ({ d with listener } : Daemon).tidied = d.tidied ∧
      (d.closeListener site).2.1 =
        { site with host := { site.host with listening := d.hungUp site.host.listening } } := by
  unfold closeListener hungUp tidied
  cases hlistener : d.listener with
  | none => exact ⟨d.listener, rfl, by rw [hlistener], rfl⟩
  | some l =>
      refine ⟨some (l.stop.close site.host).1, rfl, ?_, ?_⟩
      · unfold Listener.close
        cases hsocket : l.socket <;> simp only [Listener.stop, hsocket]
      · unfold Listener.close
        cases hsocket : l.socket <;> simp only [Listener.stop, hsocket, Option.bind_some]; rfl

theorem stopSignals_eq (d : Daemon) (site : Site) :
    (d.stopSignals site).1 =
      { site with
        process := { site.process with signals := d.released site.process.signals } } := by
  unfold stopSignals released
  cases d.signalHandler <;> rfl

theorem removeFiles_eq (d : Daemon) (site : Site) :
    (∃ listener, (d.removeFiles site).1 = { d with listener, pidFileWritten := false }) ∧
      (d.removeFiles site).2.1 =
        site.withTree (d.tidied site.process.vantage site.host.tree) := by
  unfold removeFiles tidied Site.withTree
  cases d.listener with
  | none => cases d.pidFileWritten <;> exact ⟨⟨_, rfl⟩, rfl⟩
  | some l =>
      dsimp only [Listener.removeSocketFile]
      cases l.createdFile <;> cases d.pidFileWritten <;> exact ⟨⟨_, rfl⟩, rfl⟩

/-- Tidying up removes the files and gives the signals back. -/
theorem tidyUp_eq (d : Daemon) (site : Site) :
    (∃ listener, (d.tidyUp site).1 = { d with listener, pidFileWritten := false }) ∧
      (d.tidyUp site).2.1 =
        { site.withTree (d.tidied site.process.vantage site.host.tree) with
          process := { site.process with signals := d.released site.process.signals } } := by
  obtain ⟨hremoved, htree⟩ := removeFiles_eq d (d.stopSignals site).1
  have hfirst : (d.tidyUp site).1 = (d.removeFiles (d.stopSignals site).1).1 := rfl
  have hsecond : (d.tidyUp site).2.1 = (d.removeFiles (d.stopSignals site).1).2.1 := rfl
  rw [hfirst, hsecond, htree, stopSignals_eq] at *
  exact ⟨hremoved, rfl⟩

/-- **The first stop** closes, winds down, gives back and removes. -/
theorem stopped_of_stops (stops : Stops d site d' site') : Stopped d site d' site' := by
  cases stops with
  | @intro closed last closedSite lastSite s lines more _ hclose hends htidy =>
      obtain ⟨listener, hlistener, htidied, hclosed⟩ := closeListener_eq d site
      rw [hclose] at hlistener hclosed
      dsimp only at hlistener hclosed
      subst hlistener hclosed
      obtain ⟨⟨left, hleft⟩, hsite⟩ := tidyUp_eq
        ({ d with listener, running := false, service := s } : Daemon)
        { site with host := { site.host with listening := d.hungUp site.host.listening } }
      rw [htidy] at hleft hsite
      dsimp only at hleft hsite
      subst hleft hsite
      refine ⟨⟨s, hends, rfl⟩, ⟨rfl, rfl, rfl⟩, rfl, ?_, rfl⟩
      rw [← htidied]
      rfl

/-- What a daemon does to stop is one of the ways in which it can, if its service is ready to
be wound down. -/
theorem stops_of_stop {streams : List Bytes} (first : d.stopped = false)
    (down : Service.WindingDown d.service.monitor.registered d.service.monitor.registered streams
      d.service)
    (h : d.stop site = (d', site', journal)) : Stops d site d' site' := by
  rw [stop, if_neg (by rw [first]; exact Bool.false_ne_true)] at h
  obtain ⟨listener, hlistener, -, hclosed⟩ := closeListener_eq d site
  obtain ⟨closed, closedSite, lines, hclose⟩ : ∃ closed closedSite lines,
      d.closeListener site = (closed, closedSite, lines) := ⟨_, _, _, rfl⟩
  have hservice : closed.service = d.service := by
    rw [hclose] at hlistener
    rw [show closed = _ from hlistener]
  obtain ⟨past, hrun, hdone⟩ := Teardown.finish_run
    (closed.processor closedSite.host.tree).processing
    (Teardown.Winds.of_windingDown (s := closed.service) (hservice ▸ down))
  unfold shutDown endThreads at h
  rw [hclose] at h
  dsimp only at h
  generalize Teardown.finish _ _ = finished at hrun hdone h
  obtain ⟨⟨s, stopper⟩, worked⟩ := finished
  obtain rfl : stopper = .done := hdone
  dsimp only at h
  obtain ⟨last, lastSite, more, htidy⟩ : ∃ last lastSite more,
      ({ closed with running := false, service := s } : Daemon).tidyUp closedSite =
        (last, lastSite, more) := ⟨_, _, _, rfl⟩
  rw [htidy] at h
  cases h
  exact .intro first hclose ⟨past, hrun⟩ htidy

theorem Stopped.untouched (stopped : Stopped d site d' site') (empty : d.EmptyHanded) :
    site'.host.listening = site.host.listening ∧ site'.host.tree = site.host.tree :=
  ⟨stopped.listening.trans (empty.hungUp _), stopped.tree.trans (empty.tidied _ _)⟩

/-- The first stop winds the service down and leaves a request for a shutdown. -/
theorem Stopped.wound_down {streams : List Bytes} (stopped : Stopped d site d' site')
    (down : Service.WindingDown d.service.monitor.registered d.service.monitor.registered streams
      d.service) :
    Teardown.WoundDown streams d'.service ∧ d'.shutdownRequested = true := by
  obtain ⟨s, ⟨past, hrun⟩, hservice⟩ := stopped.service
  have hwound := ((Teardown.Winds.of_windingDown down).run hrun).1.wound_down
  rw [shutdownRequested, hservice]
  exact ⟨{ hwound with }, rfl⟩

/-- **Every later stop** does nothing. -/
theorem Stopped.stop_again (stopped : Stopped d site d' site') (other : Site) :
    d'.stop other = (d', other, []) := by
  obtain ⟨s, -, hservice⟩ := stopped.service
  have hasked : d'.service.requestShutdown = d'.service := by
    rw [hservice]
    rfl
  rw [stop, if_pos stopped.flags.2.1, requestShutdown, hasked]

end SearchDaemon.Daemon
