import SearchDaemon.Proofs.Rollback

/-!
# Paths that are taken

A daemon that finds its socket path held, by a socket that accepts connections or by
something that is no socket, gets no further than the directories: it binds nothing, so its
stop has nothing to remove.
-/

namespace SearchDaemon

open FileTree (Extends Passes)

/-- A path stands for an entry that is no socket, or a socket that accepts connections. A link
at the end of the path is the entry itself. -/
structure Host.Held (host : Host) (v : Vantage) (path : Bytes) (place : Place) (entry : Entry) :
    Prop where
  there : host.tree.stat v.cwd path false = .ok (place, entry)
  accepts : ∀ bits number, entry = .socket bits number → number ∈ host.listening

/-! ## Binding -/

namespace Listener

variable {host : Host} {v : Vantage} {path : Bytes} {place : Place} {entry : Entry}

/-- What holds a path is seen as it is. -/
theorem obstacle_held (held : host.Held v path place entry) (rooted : host.tree.Rooted)
    (start : host.tree.isDirectory v.cwd = true) :
    obstacle host v path = .notSocket ∨ ∃ number, obstacle host v path = .live number := by
  obtain ⟨hthere, haccepts⟩ := held
  rw [obstacle, hthere]
  cases entry with
  | socket bits number =>
      rw [connect_of_stat rooted start hthere (haccepts _ _ rfl)]
      exact Or.inr ⟨number, rfl⟩
  | _ => exact Or.inl rfl

/-- A path that is held is not bound, and nothing is removed there. -/
theorem bind_held (held : host.Held v path place entry) (rooted : host.tree.Rooted)
    (start : host.tree.isDirectory v.cwd = true) :
    ∃ probed journal, ({ path } : Listener).bind host v =
      { ok := false, listener := { path }, host, probed, journal } := by
  unfold bind
  rw [if_neg (by exact Bool.false_ne_true)]
  split
  · exact ⟨_, _, rfl⟩
  · rcases obstacle_held held rooted start with h | ⟨number, h⟩ <;>
      · simp only [h]
        exact ⟨_, _, rfl⟩

end Listener

/-! ## What the directories leave -/

/-- Every entry stays as it is, but for the bits of some if a path climbs. -/
def Config.Preserves (c : Config) (tree tree' : FileTree) : Prop :=
  ∀ place entry, tree.get? place = some entry →
    ∃ entry', tree'.get? place = some entry' ∧
      (entry' = entry ∨ c.Climbs ∧ entry' = entry.withMode 0o700)

namespace Config.Preserves

variable {c : Config} {tree tree' tree'' : FileTree}

theorem of_extends (h : Extends tree tree') : c.Preserves tree tree' :=
  fun place entry there => ⟨entry, h place entry there, Or.inl rfl⟩

theorem trans (h : c.Preserves tree tree') (h' : c.Preserves tree' tree'') :
    c.Preserves tree tree'' := by
  intro place entry hentry
  obtain ⟨between, hbetween, hfirst⟩ := h _ _ hentry
  obtain ⟨after, hafter, hsecond⟩ := h' _ _ hbetween
  refine ⟨after, hafter, ?_⟩
  rcases hfirst with rfl | ⟨hclimbs, rfl⟩
  · exact hsecond
  · rcases hsecond with rfl | ⟨-, rfl⟩
    · exact Or.inr ⟨hclimbs, rfl⟩
    · exact Or.inr ⟨hclimbs, FileTree.withMode_withMode _ _⟩

theorem passes (h : c.Preserves tree tree') : Passes tree tree' := by
  constructor
  · intro place mode hentry
    obtain ⟨_, hafter, rfl | ⟨-, rfl⟩⟩ := h _ _ hentry
    · exact ⟨mode, hafter⟩
    · exact ⟨_, hafter⟩
  · intro place goal hentry
    obtain ⟨_, hafter, rfl | ⟨-, rfl⟩⟩ := h _ _ hentry <;> exact hafter

/-- A path that is held is still held. -/
theorem held {host : Host} {v : Vantage} {path : Bytes} {place : Place} {entry : Entry}
    (h : c.Preserves host.tree tree') (held : host.Held v path place entry) :
    ∃ entry', ({ host with tree := tree' } : Host).Held v path place entry' := by
  obtain ⟨hthere, haccepts⟩ := held
  obtain ⟨hcheck, hleads⟩ := FileTree.stat_eq_ok.mp hthere
  obtain ⟨entry', hafter, hsame⟩ := h _ _ hleads.get?_found
  obtain ⟨found, hfound⟩ := hleads.found_again h.passes fun hplain => by
    refine ⟨entry', hafter, ?_⟩
    rcases hsame with rfl | ⟨-, rfl⟩
    · exact hplain
    · rw [FileTree.isPlain_withMode, hplain]
  cases hafter.symm.trans hfound.get?_found
  refine ⟨entry', FileTree.stat_eq_ok.mpr ⟨hcheck, hfound⟩, ?_⟩
  rintro bits number rfl
  rcases hsame with rfl | ⟨-, hset⟩
  · exact haccepts _ _ rfl
  · cases entry with
    | socket =>
        cases hset
        exact haccepts _ _ rfl
    | _ => contradiction

end Config.Preserves

/-- The directory in which one of the daemon's files is to be. -/
theorem preserves_ensureDirectory {c : Config} {tree tree' : FileTree} {v : Vantage}
    {path : Bytes} {ok : Bool} {journal : Log.Journal}
    (h : tree.ensureDirectory v (parentDirectory path) 0o700 = (ok, tree', journal))
    (own : path = c.socketPath ∨ path = c.pidFile) (rooted : tree.Rooted)
    (start : tree.isDirectory v.cwd = true) : c.Preserves tree tree' ∧ tree'.Rooted := by
  obtain ⟨hfurnished, -⟩ := FileTree.furnished_ensureDirectory h rooted start
  refine ⟨?_, hfurnished.rooted rooted⟩
  by_cases hclimbs : PathText.Climbs (parentDirectory path)
  · have hconfig : c.Climbs := by
      rcases own with rfl | rfl
      · exact Or.inl hclimbs
      · exact Or.inr hclimbs
    intro place entry hentry
    rcases hfurnished.kept hentry with hsame | ⟨hset, -⟩
    · exact ⟨_, hsame, Or.inl rfl⟩
    · exact ⟨_, hset, Or.inr ⟨hconfig, rfl⟩⟩
  · exact .of_extends (FileTree.extends_ensureDirectory h rooted start hclimbs).1

/-! ## Starting -/

namespace Daemon

variable {d d' reached : Daemon} {site site' found : Site} {place : Place} {entry : Entry}
  {ok : Bool} {journal : Log.Journal}

section

variable (rooted : site.host.tree.Rooted)
  (start : site.host.tree.isDirectory site.process.vantage.cwd = true)
  (held : site.host.Held site.process.vantage d.config.socketPath place entry)
include rooted start held

/-- The directories can be made, and the socket cannot be bound. -/
theorem Housed.refused {tree : FileTree} (blank : d.Blank) (housed : Housed d site tree) :
    d.config.Preserves site.host.tree tree ∧ (d.binding site tree).ok = false ∧
      (d.boundDaemon site tree).EmptyHanded ∧
      (d.boundSite site tree).host = { site.host with tree } := by
  obtain ⟨first, lines, more, hsocket, hpid⟩ := housed
  obtain ⟨hfirst, hrooted⟩ := preserves_ensureDirectory hsocket (Or.inl rfl) rooted start
  obtain ⟨hsecond, hrooted'⟩ := preserves_ensureDirectory hpid (Or.inr rfl) hrooted
    (hfirst.passes.isDirectory start)
  have hpreserved := hfirst.trans hsecond
  obtain ⟨entry', hheld⟩ := hpreserved.held held
  obtain ⟨probed, journal, hbind⟩ := Listener.bind_held hheld hrooted'
    (hpreserved.passes.isDirectory start)
  have hbinding : d.binding site tree = _ := hbind
  refine ⟨hpreserved, by rw [hbinding], ?_, by rw [boundSite, hbinding]⟩
  rw [boundDaemon, hbinding]
  exact emptyHanded_unbound rfl blank.pidFileWritten

/-- A daemon whose path is held does not come up. -/
theorem BroughtUp.refused (blank : d.Blank) (brought : BroughtUp d site ok reached found) :
    ok = false ∧ reached.EmptyHanded ∧ found.host.listening = site.host.listening ∧
      d.config.Preserves site.host.tree found.host.tree := by
  cases brought with
  | noSocketDirectory hfirst =>
      exact ⟨rfl, blank.emptyHanded, rfl,
        (preserves_ensureDirectory hfirst (Or.inl rfl) rooted start).1⟩
  | noPidDirectory hfirst hsecond =>
      obtain ⟨hpreserved, hrooted⟩ :=
        preserves_ensureDirectory hfirst (Or.inl rfl) rooted start
      exact ⟨rfl, blank.emptyHanded, rfl, hpreserved.trans
        (preserves_ensureDirectory hsecond (Or.inr rfl) hrooted
          (hpreserved.passes.isDirectory start)).1⟩
  | noSocket housed =>
      obtain ⟨hpreserved, -, hempty, hhost⟩ := housed.refused rooted start held blank
      exact ⟨rfl, hempty, by rw [hhost], by rw [hhost]; exact hpreserved⟩
  | bound housed hok =>
      obtain ⟨-, hfailed, -⟩ := housed.refused rooted start held blank
      rw [hfailed] at hok
      contradiction

end

/-- **A first start whose path is held** fails, and all sockets and entries are left. -/
theorem start_held {config : Config} {processor : FileTree → Processor}
    (starts : Starts config processor site ok d' site')
    (rooted : site.host.tree.Rooted)
    (start : site.host.tree.isDirectory site.process.vantage.cwd = true)
    (held : site.host.Held site.process.vantage (config.resolve site.process.home).socketPath
      place entry) :
    ok = false ∧ site'.host.listening = site.host.listening ∧
      (config.resolve site.process.home).Preserves site.host.tree site'.host.tree := by
  cases starts with
  | refused => exact ⟨rfl, rfl, .of_extends (.refl _)⟩
  | up _ hbrought =>
      have hno := (hbrought.refused rooted start held blank_opening).1
      contradiction
  | undone _ hbrought hstops =>
      obtain ⟨-, hempty, hlistening, hpreserved⟩ :=
        hbrought.refused rooted start held blank_opening
      obtain ⟨hlistening', htree⟩ := (stopped_of_stops hstops).untouched hempty
      rw [htree]
      exact ⟨rfl, hlistening'.trans hlistening, hpreserved⟩

end Daemon

end SearchDaemon
