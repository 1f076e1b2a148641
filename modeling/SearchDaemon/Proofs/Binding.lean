import SearchDaemon.Listener
import SearchDaemon.Proofs.FileCalls

/-!
# What binding a socket comes to

A listener that is not bound yet changes the tree at one place at most, the one that its
path names: where nothing stands, or a socket on which nobody listens, it leaves a socket of
its own. If it fails, such a stale socket may be gone, and nothing else has changed.
-/

namespace SearchDaemon

open FileTree (SameBut Names Rooted Less)

variable {host : Host} {v : Vantage} {path : Bytes} {place : Place}

/-- The path names a socket on which nobody listens. -/
def Host.Stale (host : Host) (v : Vantage) (path : Bytes) (place : Place) : Prop :=
  host.tree.Names v.cwd path place ∧ ∃ bits number,
    host.tree.get? place = some (.socket bits number) ∧ number ∉ host.listening

theorem Host.Stale.plain (stale : host.Stale v path place) :
    ∀ entry, host.tree.get? place = some entry → entry.isPlain = true := by
  obtain ⟨-, bits, number, hsocket, -⟩ := stale
  intro entry hentry
  rw [hsocket] at hentry
  cases hentry
  rfl

/-- A stale socket that is removed is all that is removed. -/
theorem Host.Stale.less (stale : host.Stale v path place) (rooted : host.tree.Rooted)
    (start : host.tree.isDirectory v.cwd = true) :
    Less (· = place) host.tree (host.tree.erase place) := by
  obtain ⟨hnamed, -⟩ := stale.1.inDirectory rooted start stale.plain
  refine ⟨?_, FileTree.sameBut_erase _ hnamed⟩
  rintro _ rfl
  exact FileTree.get?_erase_here _ hnamed

/-- Whether a path that names a socket connects depends on that socket only. -/
theorem Host.connect_of_socket {bits number : Nat} (names : host.tree.Names v.cwd path place)
    (here : host.tree.get? place = some (.socket bits number)) :
    host.connect v path =
      if number ∈ host.listening then .ok number else .error .connectionRefused := by
  have hsocket : host.tree.socketAt v path = .ok number := by
    rw [FileTree.socketAt, names.stat here rfl true]
    rfl
  rw [Host.connect, hsocket]
  rfl

/-- Where nothing stands, there is no socket to connect to. -/
theorem Host.connect_of_free {number : Nat} (names : host.tree.Names v.cwd path place)
    (free : host.tree.get? place = none) : host.connect v path ≠ .ok number := by
  intro hconnect
  obtain ⟨_, hsocket, -⟩ := bind_eq_ok.mp hconnect
  obtain ⟨found, hstat, -⟩ := bind_eq_ok.mp hsocket
  have hfound := (FileTree.stat_eq_ok.mp hstat).2
  rw [names.2.1] at hfound
  obtain ⟨dir, name, -, -, hfree⟩ := names.free free
  cases hfound.unique (hfree.following nofun)

/-- A stale socket refuses connections. -/
theorem Host.Stale.refuses (stale : host.Stale v path place) :
    host.connect v path = .error .connectionRefused := by
  obtain ⟨hnames, bits, number, hsocket, hdead⟩ := stale
  rw [Host.connect_of_socket hnames hsocket, if_neg hdead]

namespace Listener

/-- What an attempt to bind a new listener comes to. -/
inductive Bound (host : Host) (v : Vantage) (path : Bytes) : Binding → Prop
  | refused {probed : Option Nat} {journal : Log.Journal} :
      Bound host v path { ok := false, listener := { path }, host, probed, journal }
  /-- The stale socket is removed, and then the path cannot be bound. -/
  | swept {place : Place} {probed : Option Nat} {journal : Log.Journal} :
      host.Stale v path place →
      Bound host v path
        { ok := false, listener := { path }, host := { host with tree := host.tree.erase place }
          probed, journal }
  | bound {place : Place} {tree : FileTree} {probed : Option Nat} {journal : Log.Journal} :
      host.tree.Names v.cwd path place →
      host.tree.get? place = none ∨ host.Stale v path place →
      SameBut place host.tree tree →
      tree.get? place = some (.socket 0o600 host.nextSocket) →
      Bound host v path
        { ok := true
          listener := { path, socket := some host.nextSocket, createdFile := true }
          host :=
            { host with
              tree
              listening := host.nextSocket :: host.listening
              nextSocket := host.nextSocket + 1 }
          probed, journal }

section

variable (rooted : host.tree.Rooted) (start : host.tree.isDirectory v.cwd = true)
include rooted start

/-- A path at which nothing stands is bound. -/
theorem bindClear_of_free {l : Listener} (names : host.tree.Names v.cwd l.path place)
    (free : host.tree.get? place = none) :
    ∃ tree, SameBut place host.tree tree ∧
      tree.get? place = some (.socket 0o600 host.nextSocket) ∧
      l.bindClear host v =
        { ok := true
          listener :=
            { l with socket := some host.nextSocket, broken := false, createdFile := true }
          host :=
            { host with
              tree
              listening := host.nextSocket :: host.listening
              nextSocket := host.nextSocket + 1 }
          journal := [Log.info (text "Listening on " ++ l.path)] } := by
  have hbefore : ∀ entry, host.tree.get? place = some entry → entry.isPlain = true :=
    fun _ hentry => absurd (free.symm.trans hentry) nofun
  obtain ⟨hnamed, -⟩ := names.inDirectory rooted start hbefore
  have hbind : host.tree.bindSocket v l.path host.nextSocket =
      .ok (host.tree.put place (.socket (v.newMode 0o777) host.nextSocket)) := by
    obtain ⟨dir, name, rfl, hfree⟩ := names.free free
    exact FileTree.bindSocket_eq_ok.mpr ⟨names.1, names.2.1, dir, name, hfree, rfl⟩
  have hmade := FileTree.get?_put_here host.tree
    (.socket (v.newMode 0o777) host.nextSocket) hnamed
  have hsame := FileTree.sameBut_put host.tree
    (.socket (v.newMode 0o777) host.nextSocket) hnamed
  unfold bindClear Host.bindSocket
  rw [hbind]
  generalize host.tree.put place (.socket (v.newMode 0o777) host.nextSocket) = tree at *
  have hafter : ∀ entry, tree.get? place = some entry → entry.isPlain = true := by
    intro entry hentry
    rw [hmade] at hentry
    cases hentry
    rfl
  -- The path leads to the socket just made, so its bits can be set.
  have hset := (names.kept rooted start (hsame.passes hbefore) hbefore hafter).setMode hmade
    rfl hnamed 0o600
  refine ⟨tree.put place (.socket 0o600 host.nextSocket), ?_,
    FileTree.get?_put_here _ _ hnamed, ?_⟩
  · intro other hother
    exact (FileTree.sameBut_put _ _ hnamed _ hother).trans (hsame _ hother)
  · simp only [ok_bind, hset]
    rfl

omit rooted start in
/-- Where a path does not name a free place, nothing changes. -/
theorem bindClear_refused {l : Listener}
    (taken : ∀ place, host.tree.Names v.cwd l.path place → host.tree.get? place ≠ none) :
    ∃ journal, l.bindClear host v = { ok := false, listener := l, host, journal } := by
  unfold bindClear Host.bindSocket
  cases hbind : host.tree.bindSocket v l.path host.nextSocket with
  | error e => exact ⟨_, rfl⟩
  | ok tree =>
      obtain ⟨place, hnames, hnone, -⟩ := FileTree.names_of_bindSocket hbind
      exact absurd hnone (taken place hnames)

/-- A path at which nothing stands is bound, or nothing changes. -/
theorem bindClear_cases :
    (∃ journal, ({ path } : Listener).bindClear host v =
        { ok := false, listener := { path }, host, journal }) ∨
      ∃ place tree journal, host.tree.Names v.cwd path place ∧ host.tree.get? place = none ∧
        SameBut place host.tree tree ∧
        tree.get? place = some (.socket 0o600 host.nextSocket) ∧
        ({ path } : Listener).bindClear host v =
          { ok := true
            listener := { path, socket := some host.nextSocket, createdFile := true }
            host :=
              { host with
                tree
                listening := host.nextSocket :: host.listening
                nextSocket := host.nextSocket + 1 }
            journal } := by
  by_cases hfree : ∃ place, host.tree.Names v.cwd path place ∧ host.tree.get? place = none
  · obtain ⟨place, hnames, hnone⟩ := hfree
    obtain ⟨tree, hsame, hmade, hbind⟩ :=
      @bindClear_of_free host v place rooted start { path } hnames hnone
    exact Or.inr ⟨place, tree, _, hnames, hnone, hsame, hmade, hbind⟩
  · exact Or.inl (bindClear_refused fun place hnames hnone => hfree ⟨place, hnames, hnone⟩)

/-- A socket that accepts connections is reached by the path that it stands at. -/
theorem connect_of_stat {bits number : Nat}
    (there : host.tree.stat v.cwd path false = .ok (place, .socket bits number))
    (accepts : number ∈ host.listening) : host.connect v path = .ok number := by
  obtain ⟨hnames, hentry⟩ := FileTree.names_of_stat rooted start there rfl
  rw [Host.connect_of_socket hnames hentry, if_pos accepts]

/-- A path that does not lead to a listening socket leads to a stale one, or to none. -/
theorem stale_of_obstacle (h : obstacle host v path = .stale) :
    ∃ place, host.Stale v path place := by
  unfold obstacle at h
  split at h
  · contradiction
  · contradiction
  · rename_i place bits number hstat
    obtain ⟨hnames, hentry⟩ := FileTree.names_of_stat rooted start hstat rfl
    refine ⟨place, hnames, bits, number, hentry, ?_⟩
    intro hlistening
    rw [connect_of_stat rooted start hstat hlistening] at h
    contradiction
  · contradiction

theorem bound_of_bind : Bound host v path (({ path } : Listener).bind host v) := by
  have hclear := @bindClear_cases host v path rooted start
  unfold bind
  rw [if_neg (by exact Bool.false_ne_true)]
  split
  · exact .refused
  · split
    · rcases hclear with ⟨journal, h⟩ | ⟨place, tree, journal, hnames, hnone, hsame, hmade, h⟩
      · rw [h]
        exact .refused
      · rw [h]
        exact .bound hnames (Or.inl hnone) hsame hmade
    · exact .refused
    · exact .refused
    · exact .refused
    · rename_i hobstacle
      obtain ⟨place, hstale⟩ := stale_of_obstacle rooted start hobstacle
      obtain ⟨hnames, bits, number, hsocket, -⟩ := id hstale
      have hplain := hstale.plain
      obtain ⟨hnamed, -⟩ := hnames.inDirectory rooted start hplain
      have hgone := FileTree.get?_erase_here host.tree hnamed
      have hsame := FileTree.sameBut_erase host.tree hnamed
      have hpasses := hsame.passes hplain
      have hrooted := hsame.rooted hpasses rooted fun h => absurd hgone h
      -- The path is tried once more where the stale socket was.
      rw [hnames.removeFile hsocket rfl]
      rcases @bindClear_cases { host with tree := host.tree.erase place } v path hrooted
          (hpasses.isDirectory start) with
        ⟨journal, h⟩ | ⟨again, tree, journal, hagain, hnone, hsame', hmade, h⟩
      · simp only [h]
        exact .swept hstale
      · have hkept := hnames.kept rooted start hpasses hplain fun entry hentry =>
          absurd (hgone.symm.trans hentry) nofun
        cases hagain.unique hkept
        simp only [h]
        refine .bound hnames (Or.inr hstale) ?_ hmade
        intro other hother
        exact (hsame' other hother).trans (hsame other hother)

end

end Listener

end SearchDaemon
