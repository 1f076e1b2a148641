import SearchDaemon.Proofs.Directories
import SearchDaemon.Proofs.Starting
import SearchDaemon.Proofs.Stopping

/-!
# The premises of a daemon

What a start makes of the file tree: directories for the socket and the pid file, then the
socket, then the pid file. Each of these can be told from what was there before, and what a
stop removes is what the start has put there.
-/

namespace SearchDaemon

open FileTree (Furnished Placed Less)

/-- A site on which a daemon can be started: its tree is one, the working directory is there,
and no number is given to two sockets. -/
structure Site.Sound (site : Site) : Prop where
  tree : site.host.tree.WellFormed
  workplace : site.host.tree.isDirectory site.process.vantage.cwd = true
  numbered : ∀ number ∈ site.host.listening, number < site.host.nextSocket

/-- The way to one of the daemon's directories leads back up. -/
def Config.Climbs (c : Config) : Prop :=
  PathText.Climbs (parentDirectory c.socketPath) ∨ PathText.Climbs (parentDirectory c.pidFile)

namespace Daemon

variable {d : Daemon} {site : Site} {tree : FileTree}

/-- The files whose bits a start may set while it makes its directories. -/
def InTheWay (d : Daemon) (site : Site) (tree : FileTree) (place : Place) : Prop :=
  ∃ path, (path = d.config.socketPath ∨ path = d.config.pidFile) ∧
    PathText.Climbs (parentDirectory path) ∧
    tree.Blocked site.process.vantage.cwd (parentDirectory path) place

section

variable (rooted : site.host.tree.Rooted)
  (start : site.host.tree.isDirectory site.process.vantage.cwd = true)
include rooted start

theorem Housed.ground (housed : Housed d site tree) :
    Furnished 0o700 (d.InTheWay site tree) site.host.tree tree ∧ tree.Rooted ∧
      tree.isDirectory site.process.vantage.cwd = true := by
  obtain ⟨first, lines, more, hsocket, hpid⟩ := housed
  obtain ⟨hfirst, -⟩ := FileTree.furnished_ensureDirectory hsocket rooted start
  have hrooted := hfirst.rooted rooted
  have hstart := hfirst.passes.isDirectory start
  obtain ⟨hsecond, -⟩ := FileTree.furnished_ensureDirectory hpid hrooted hstart
  refine ⟨Furnished.trans (hfirst.weaken ?_) (hsecond.weaken ?_), hsecond.rooted hrooted,
    hsecond.passes.isDirectory hstart⟩
  · rintro place ⟨hclimbs, hblocked⟩
    exact ⟨_, Or.inl rfl, hclimbs, (hblocked rfl).kept hsecond⟩
  · rintro place ⟨hclimbs, hblocked⟩
    exact ⟨_, Or.inr rfl, hclimbs, hblocked rfl⟩

end

/-- What the socket is bound over. -/
theorem placed_socket {host : Host} {v : Vantage} {path : Bytes} {place : Place}
    {after : FileTree} (names : host.tree.Names v.cwd path place)
    (covers : host.tree.get? place = none ∨ host.Stale v path place)
    (same : FileTree.SameBut place host.tree after) {bits number : Nat}
    (here : after.get? place = some (.socket bits number)) :
    Placed v path place host.tree after where
  names := names
  covers := by
    intro entry hentry
    rcases covers with hnone | hstale
    · rw [hnone] at hentry
      contradiction
    · exact hstale.plain entry hentry
  same := same
  here := ⟨_, here, rfl⟩

/-- The socket of a daemon stands at a place, over nothing or over a stale one. -/
structure Lodged (d : Daemon) (site : Site) (tree : FileTree) (place : Place) : Prop where
  listener : (d.boundDaemon site tree).listener =
    some
      { path := d.config.socketPath, socket := some site.host.nextSocket, createdFile := true }
  listening : (d.boundSite site tree).host.listening =
    site.host.nextSocket :: site.host.listening
  covers : tree.get? place = none ∨
    Host.Stale { site.host with tree } site.process.vantage d.config.socketPath place
  placed : Placed site.process.vantage d.config.socketPath place tree
    (d.boundSite site tree).host.tree
  here : (d.boundSite site tree).host.tree.get? place =
    some (.socket 0o600 site.host.nextSocket)

section

variable (rooted : tree.Rooted) (start : tree.isDirectory site.process.vantage.cwd = true)
include rooted start

/-- Binding a socket does not change how much the system takes of what is written. -/
theorem shortWrite_boundSite :
    (d.boundSite site tree).host.shortWrite = site.host.shortWrite := by
  have hbound := @Listener.bound_of_bind { site.host with tree } site.process.vantage
    d.config.socketPath rooted start
  change Listener.Bound _ _ _ (d.binding site tree) at hbound
  generalize hbinding : d.binding site tree = binding at hbound
  rw [boundSite, hbinding]
  cases hbound <;> rfl

theorem lodged_of_binding (ok : (d.binding site tree).ok = true) :
    ∃ place, d.Lodged site tree place := by
  have hbound := @Listener.bound_of_bind { site.host with tree } site.process.vantage
    d.config.socketPath rooted start
  change Listener.Bound _ _ _ (d.binding site tree) at hbound
  generalize hbinding : d.binding site tree = binding at hbound ok
  cases hbound with
  | refused | swept => contradiction
  | @bound place after _ _ hnames hover hsame hhere =>
      refine ⟨place, ?_, ?_, hover, ?_, ?_⟩
      · rw [boundDaemon, hbinding]
      · rw [boundSite, hbinding]
      · rw [boundSite, hbinding]
        exact placed_socket hnames hover hsame hhere
      · rw [boundSite, hbinding]
        exact hhere

/-- A socket that cannot be bound is not there; a stale one may be gone. -/
theorem unbound_of_binding (failed : (d.binding site tree).ok = false) :
    (d.boundDaemon site tree).listener = some { path := d.config.socketPath } ∧
      (d.boundSite site tree).host.listening = site.host.listening ∧
      ∃ gone, Less gone tree (d.boundSite site tree).host.tree ∧ ∀ place, gone place →
        Host.Stale { site.host with tree } site.process.vantage d.config.socketPath place := by
  have hbound := @Listener.bound_of_bind { site.host with tree } site.process.vantage
    d.config.socketPath rooted start
  change Listener.Bound _ _ _ (d.binding site tree) at hbound
  generalize hbinding : d.binding site tree = binding at hbound failed
  rw [boundDaemon, boundSite, hbinding]
  cases hbound with
  | refused =>
      exact ⟨rfl, rfl, fun _ => False, ⟨fun _ h => h.elim, fun _ _ => rfl⟩, fun _ h => h.elim⟩
  | swept hstale => exact ⟨rfl, rfl, _, hstale.less rooted start, fun _ h => h ▸ hstale⟩
  | bound => contradiction

/-- The pid file is put at a place of its own, and into the file that is there, if one is. -/
theorem Lodged.placed_pidFile {place : Place} {written : FileTree} {data : Bytes}
    (lodged : d.Lodged site tree place)
    (ordinary : ¬tree.NamesLinkOrPipe site.process.vantage.cwd d.config.pidFile)
    (h : (d.boundSite site tree).host.tree.writeAt site.process.vantage d.config.pidFile 0o600
      data = .ok written) :
    ∃ other bits, Placed site.process.vantage d.config.pidFile other
        (d.boundSite site tree).host.tree written ∧ place ≠ other ∧
      tree.Names site.process.vantage.cwd d.config.pidFile other ∧
      written.get? other = some (.file bits data) ∧
      ∀ entry, tree.get? other = some entry → ∃ old, entry = .file bits old := by
  have hordinary := lodged.placed.same.ordinary lodged.here ordinary
  obtain ⟨other, bits, hnames, -, hover, hhere, hsame⟩ := FileTree.names_of_writeAt
    (lodged.placed.rooted_after rooted start) (lodged.placed.passes.isDirectory start)
    hordinary h
  -- The pid file cannot be the socket: a socket is not opened for writing.
  have hdistinct : place ≠ other := by
    rintro rfl
    obtain ⟨old, hfile⟩ := hover _ lodged.here
    contradiction
  have hfile : ∀ entry, tree.get? other = some entry → ∃ old, entry = .file bits old := by
    intro entry hentry
    rw [← lodged.placed.same other hdistinct.symm] at hentry
    exact hover _ hentry
  have hplain {t : FileTree} (hfile : ∀ entry, t.get? other = some entry →
      ∃ old, entry = .file bits old) :
      ∀ entry, t.get? other = some entry → entry.isPlain = true := by
    intro entry hentry
    obtain ⟨old, rfl⟩ := hfile _ hentry
    rfl
  refine ⟨other, bits, ⟨hnames, hplain hover, hsame, _, hhere, rfl⟩, hdistinct, ?_, hhere, hfile⟩
  -- The path leads there without the socket as well.
  have hback : FileTree.SameBut place (d.boundSite site tree).host.tree tree :=
    fun o ho => (lodged.placed.same o ho).symm
  have hpasses := hback.passes fun entry hentry => by
    rw [lodged.here] at hentry
    cases hentry
    rfl
  exact hnames.kept (lodged.placed.rooted_after rooted start)
    (lodged.placed.passes.isDirectory start) hpasses (hplain hover) (hplain hfile)

end

/-! ## A site with leftovers -/

/-- A stale socket `/s`, the pid file `/p` of a daemon that is gone, and an active handler of
signals. -/
def leftBehind : Site where
  host :=
    { tree := ⟨[([[115]], .socket 0o600 3), ([[112]], .file 0o600 [57, 10])]⟩
      nextSocket := 4 }
  process :=
    { pid := 5
      vantage := { cwd := [] }
      signals :=
        { dispositions := .all .caught
          active := some 0
          handlers := [{ running := true }] } }

/-- One worker, the socket `/s` and the pid file `/p`. -/
def atTheRoot (handleSignals : Bool) : Config where
  socketPath := [47, 115]
  pidFile := [47, 112]
  workers := 1
  handleSignals := handleSignals

/-- A processor that fails on the request with number seven. -/
def failsOnSeven : Processor := .scripted [7] [] []

theorem sound_leftBehind : leftBehind.Sound where
  tree := ⟨by decide, by decide, by decide⟩
  workplace := rfl
  numbered := nofun

theorem ordinary_leftBehind {processor : FileTree → Processor} {handleSignals : Bool}
    (housed : Housed (opening (atTheRoot handleSignals) processor leftBehind) leftBehind tree) :
    ¬tree.NamesLinkOrPipe leftBehind.process.vantage.cwd
      ((atTheRoot handleSignals).resolve leftBehind.process.home).pidFile := by
  have hroot : leftBehind.host.tree.ensureDirectory leftBehind.process.vantage [47] 0o700 =
      (true, leftBehind.host.tree, []) := by cbv
  have hpid : leftBehind.host.tree.stat leftBehind.process.vantage.cwd [47, 112] false =
      .ok ([[112]], .file 0o600 [57, 10]) := by cbv
  obtain ⟨first, lines, more, hfirst, hsecond⟩ := housed
  cases hroot.symm.trans hfirst
  cases hroot.symm.trans hsecond
  rintro ⟨place, entry, hstat, hkind⟩
  cases hpid.symm.trans hstat
  rcases hkind with ⟨_, h⟩ | ⟨_, h⟩ <;> contradiction

end Daemon

end SearchDaemon
