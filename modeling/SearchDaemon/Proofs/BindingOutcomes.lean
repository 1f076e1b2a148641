import Mathlib
import SearchDaemon.Proofs.Binding

/-!
# When a listener is bound

A listener without a socket is bound exactly if its path is a possible one and names a place
where nothing stands, or a socket that refuses connections. Then it has a socket of its own
there, which accepts connections, and the rest of the tree is as before. Otherwise nothing has
changed at all: what is removed is removed only when the bind succeeds.
-/

namespace SearchDaemon

open FileTree (SameBut Names Rooted)

variable {host : Host} {v : Vantage} {path : Bytes} {place : Place} {l : Listener}

/-- A socket can be bound to the path, at the place that it names. -/
structure Host.Bindable (host : Host) (v : Vantage) (path : Bytes) (place : Place) : Prop where
  good : Host.isBadSocketPath path = false
  named : host.tree.Names v.cwd path place
  clear : host.tree.get? place = none ∨ host.Stale v path place

theorem Host.Bindable.plain (bindable : host.Bindable v path place) :
    ∀ entry, host.tree.get? place = some entry → entry.isPlain = true := by
  obtain hfree | hstale := bindable.clear
  · intro entry hentry
    exact absurd (hfree.symm.trans hentry) nofun
  · exact hstale.plain

namespace Listener

/-! ## What stands in the way -/

theorem obstacle_of_free (names : host.tree.Names v.cwd path place)
    (free : host.tree.get? place = none) : obstacle host v path = .nothing := by
  obtain ⟨dir, name, -, hfree⟩ := names.free free
  have hlocate : host.tree.locate v.cwd false path = .ok (.free dir name false) := by
    rw [FileTree.locate_eq_ok, names.2.1]
    exact hfree
  rw [obstacle, FileTree.stat, hlocate]
  rfl

theorem obstacle_of_stale (stale : host.Stale v path place) :
    obstacle host v path = .stale := by
  obtain ⟨hnames, bits, number, hsocket, -⟩ := id stale
  rw [obstacle, hnames.stat hsocket rfl false]
  dsimp only
  rw [stale.refuses]

/-! ## The two outcomes -/

/-- The outcome of a bind that succeeds, with the tree that it leaves. -/
def boundIn (l : Listener) (host : Host) (tree : FileTree) (journal : Log.Journal) : Binding where
  ok := true
  listener := { l with socket := some host.nextSocket, broken := false, createdFile := true }
  host :=
    { host with
      tree
      listening := host.nextSocket :: host.listening
      nextSocket := host.nextSocket + 1 }
  journal

section

variable (rooted : host.tree.Rooted) (start : host.tree.isDirectory v.cwd = true)
include rooted start

/-- A path that can be bound is bound, the stale socket there being removed first. -/
theorem bind_of_bindable (unbound : l.isBound = false) (bindable : host.Bindable v l.path place) :
    ∃ tree journal, SameBut place host.tree tree ∧
      tree.get? place = some (.socket 0o600 host.nextSocket) ∧
      l.bind host v = l.boundIn host tree journal := by
  obtain ⟨hgood, hnames, hfree | hstale⟩ := bindable
  · obtain ⟨tree, hsame, hmade, hbind⟩ := bindClear_of_free rooted start hnames hfree
    refine ⟨tree, [Log.info (text "Listening on " ++ l.path)], hsame, hmade, ?_⟩
    rw [bind, unbound, if_neg Bool.false_ne_true, hgood, if_neg Bool.false_ne_true,
      obstacle_of_free hnames hfree]
    exact hbind
  · obtain ⟨-, bits, number, hsocket, -⟩ := id hstale
    have hplain := hstale.plain
    obtain ⟨hnamed, -⟩ := hnames.inDirectory rooted start hplain
    have hgone := FileTree.get?_erase_here host.tree hnamed
    have hsame := FileTree.sameBut_erase host.tree hnamed
    have hpasses := hsame.passes hplain
    have hrooted := hsame.rooted hpasses rooted fun h => absurd hgone h
    -- With the stale socket gone, the path still names its place, where now nothing stands.
    have hkept := hnames.kept rooted start hpasses hplain fun entry hentry =>
      absurd (hgone.symm.trans hentry) nofun
    obtain ⟨tree, hsame', hmade, hbind⟩ :=
      @bindClear_of_free { host with tree := host.tree.erase place } v place hrooted
        (hpasses.isDirectory start) l hkept hgone
    refine ⟨tree, [Log.info (text "Removing stale socket file " ++ l.path),
      Log.info (text "Listening on " ++ l.path)], ?_, hmade, ?_⟩
    · intro other hother
      exact (hsame' other hother).trans (hsame other hother)
    · rw [bind, unbound, if_neg Bool.false_ne_true, hgood, if_neg Bool.false_ne_true,
        obstacle_of_stale hstale]
      dsimp only
      rw [hnames.removeFile hsocket rfl]
      dsimp only
      rw [hbind]
      rfl

/-- A path that cannot be bound is refused with nothing changed. -/
theorem bind_refused (unbound : l.isBound = false)
    (taken : ¬∃ place, host.Bindable v l.path place) :
    ∃ probed journal, l.bind host v = { ok := false, listener := l, host, probed, journal } := by
  unfold bind
  rw [if_neg (by rw [unbound]; exact Bool.false_ne_true)]
  split
  · exact ⟨_, _, rfl⟩
  · rename_i hgood
    have hgood : Host.isBadSocketPath l.path = false := Bool.eq_false_iff.mpr hgood
    split
    · have htaken : ∀ place, host.tree.Names v.cwd l.path place → host.tree.get? place ≠ none :=
        fun place hnames hfree => taken ⟨place, hgood, hnames, Or.inl hfree⟩
      obtain ⟨journal, hbind⟩ := bindClear_refused htaken
      exact ⟨_, journal, hbind⟩
    · exact ⟨_, _, rfl⟩
    · exact ⟨_, _, rfl⟩
    · exact ⟨_, _, rfl⟩
    · rename_i hobstacle
      obtain ⟨place, hstale⟩ := stale_of_obstacle rooted start hobstacle
      exact absurd ⟨place, hgood, hstale.1, Or.inr hstale⟩ taken

end

/-- The listener stands bound where its path leads, on a socket that it made. -/
structure BoundAt (host : Host) (v : Vantage) (l : Listener) (place : Place) (b : Binding) :
    Prop where
  bindable : host.Bindable v l.path place
  /-- What stood at the place before was a socket, and it refused connections. -/
  removed : ∀ entry, host.tree.get? place = some entry →
    (∃ bits number, entry = .socket bits number ∧ number ∉ host.listening) ∧
      host.connect v l.path = .error .connectionRefused
  rest : SameBut place host.tree b.host.tree
  named : b.host.tree.Names v.cwd l.path place
  made : b.host.tree.get? place = some (.socket 0o600 host.nextSocket)
  listening : b.host.listening = host.nextSocket :: host.listening
  reached : b.host.connect v l.path = .ok host.nextSocket
  listener : b.listener =
    { l with socket := some host.nextSocket, broken := false, createdFile := true }
  /-- To bind once more changes nothing. -/
  again : ∀ host' v', b.listener.bind host' v' =
    { ok := true, listener := b.listener, host := host' }

/-- What the path names after a successful bind. -/
theorem boundAt_boundIn {tree : FileTree} {journal : Log.Journal} (rooted : host.tree.Rooted)
    (start : host.tree.isDirectory v.cwd = true) (bindable : host.Bindable v l.path place)
    (rest : SameBut place host.tree tree)
    (made : tree.get? place = some (.socket 0o600 host.nextSocket)) :
    BoundAt host v l place (l.boundIn host tree journal) := by
  have hbefore := bindable.plain
  have hafter : ∀ entry, tree.get? place = some entry → entry.isPlain = true := by
    intro entry hentry
    cases made.symm.trans hentry
    rfl
  have hnamed : tree.Names v.cwd l.path place :=
    bindable.named.kept rooted start (rest.passes hbefore) hbefore hafter
  refine
    { bindable, rest, named := hnamed, made, listening := rfl, listener := rfl
      removed := ?_, reached := ?_, again := fun _ _ => rfl }
  · intro entry hentry
    obtain hfree | hstale := bindable.clear
    · exact absurd (hfree.symm.trans hentry) nofun
    · obtain ⟨-, bits, number, hsocket, hdead⟩ := id hstale
      cases hsocket.symm.trans hentry
      exact ⟨⟨bits, number, rfl, hdead⟩, hstale.refuses⟩
  · have hconnect := @Host.connect_of_socket (l.boundIn host tree journal).host v l.path place
      0o600 host.nextSocket hnamed made
    rw [hconnect]
    exact if_pos List.mem_cons_self

/-- **Binding is all or nothing and removes only dead sockets.** A listener without a socket is
bound exactly if its path is neither empty nor too long and names a place where nothing stands,
or a socket that refuses connections. If it is not bound, host and listener are as before. If it
is, it stands at that place, on a socket of mode 0600 that it made and that accepts connections,
all other entries are as before, and binding it once more changes nothing. -/
theorem bind_all_or_nothing (rooted : host.tree.Rooted)
    (start : host.tree.isDirectory v.cwd = true) (unbound : l.isBound = false) :
    ((l.bind host v).ok = true ↔ ∃ place, host.Bindable v l.path place) ∧
      ((l.bind host v).ok = false →
        (l.bind host v).host = host ∧ (l.bind host v).listener = l) ∧
      ((l.bind host v).ok = true → ∃ place, BoundAt host v l place (l.bind host v)) := by
  by_cases hbindable : ∃ place, host.Bindable v l.path place
  · obtain ⟨place, hplace⟩ := hbindable
    obtain ⟨tree, journal, hrest, hmade, hbind⟩ := bind_of_bindable rooted start unbound hplace
    rw [hbind]
    refine ⟨iff_of_true rfl ⟨place, hplace⟩, nofun, fun _ => ⟨place, ?_⟩⟩
    exact boundAt_boundIn rooted start hplace hrest hmade
  · obtain ⟨probed, journal, hbind⟩ := bind_refused rooted start unbound hbindable
    rw [hbind]
    exact ⟨iff_of_false nofun hbindable, fun _ => ⟨rfl, rfl⟩, nofun⟩

/-- A daemon listens at `/s`, and `/t` is a socket that one has left behind. -/
private def twoSockets : Host where
  tree := ⟨[([text "s"], .socket 0o600 2), ([text "t"], .socket 0o755 1)]⟩
  listening := [2]
  nextSocket := 3

private def atRoot : Vantage where
  cwd := []

theorem bind_all_or_nothing_stale_and_live :
    twoSockets.tree.Rooted ∧ twoSockets.tree.isDirectory atRoot.cwd = true ∧
      (∃ place, BoundAt twoSockets atRoot { path := text "/t" } place
        (({ path := text "/t" } : Listener).bind twoSockets atRoot)) ∧
      (({ path := text "/s" } : Listener).bind twoSockets atRoot).host = twoSockets := by
  have hrooted : twoSockets.tree.Rooted :=
    FileTree.WellFormed.rooted ⟨by decide, by decide, by decide⟩
  have hstale := @bind_all_or_nothing twoSockets atRoot { path := text "/t" } hrooted rfl rfl
  have hlive := @bind_all_or_nothing twoSockets atRoot { path := text "/s" } hrooted rfl rfl
  exact ⟨hrooted, rfl, hstale.2.2 (by cbv), (hlive.2.1 (by cbv)).1⟩

end Listener

end SearchDaemon
