import SearchDaemon.Control
import SearchDaemon.Proofs.TakenPaths

/-!
# A start in the foreground

The command opens its log and starts the daemon. If the socket path is held, the start is
refused, and what it logs is all that it adds to a file. Only the clean-up of a forced start
takes no notice of what it removes.
-/

namespace SearchDaemon

open FileTree (Extends)

namespace Entry

/-- The entry with more data, if it is a file. -/
def appended (entry : Entry) (data : Bytes) : Entry :=
  match entry with
  | .file mode old => .file mode (old ++ data)
  | entry => entry

@[simp] theorem appended_nil (entry : Entry) : entry.appended [] = entry := by
  cases entry <;> simp [appended]

@[simp] theorem appended_appended (entry : Entry) (first second : Bytes) :
    (entry.appended first).appended second = entry.appended (first ++ second) := by
  cases entry <;> simp [appended]

theorem appended_directory {entry : Entry} (directory : entry.isDirectory = true)
    (data : Bytes) : entry.appended data = entry := by
  cases entry <;> first | rfl | contradiction

end Entry

/-! ## What a log does to the files -/

/-- Data are added to a file, or nothing is changed. -/
theorem FileTree.get?_append (tree : FileTree) (place spot : Place) (data : Bytes) :
    (tree.setContent place (tree.content place ++ data)).get? spot =
      if place = spot then (tree.get? spot).map (·.appended data) else tree.get? spot := by
  by_cases hfile : ∃ mode old, tree.get? place = some (.file mode old)
  · obtain ⟨mode, old, hentry⟩ := hfile
    have hnamed : place ≠ [] := by
      rintro rfl
      cases hentry
    rw [setContent, content, hentry]
    dsimp only
    rw [get?_put tree place _ spot hnamed]
    by_cases hspot : spot = place
    · subst hspot
      rw [if_pos rfl, if_pos rfl, hentry]
      rfl
    · rw [if_neg hspot, if_neg (Ne.symm hspot)]
  · have hsame : tree.setContent place (tree.content place ++ data) = tree := by
      unfold setContent
      split
      · rename_i hentry
        exact absurd ⟨_, _, hentry⟩ hfile
      · rfl
    rw [hsame]
    split
    · rename_i hspot
      subst hspot
      cases hentry : tree.get? place with
      | none => rfl
      | some entry =>
          cases entry with
          | file => exact absurd ⟨_, _, hentry⟩ hfile
          | _ => rfl
    · rfl

namespace Log

/-- The lines that pass a threshold, as they are written. -/
def rendered (threshold : Level) (journal : Journal) : Bytes :=
  (passing threshold journal).flatMap fun line => line.render ++ [10]

theorem rendered_append (threshold : Level) (first second : Journal) :
    rendered threshold (first ++ second) =
      rendered threshold first ++ rendered threshold second := by
  simp only [rendered, passing, List.filter_append, List.flatMap_append]

theorem rendered_singleton (threshold : Level) (line : Line) :
    rendered threshold [line] =
      if line.level.rank < threshold.rank then [] else line.render ++ [10] := by
  by_cases hbelow : line.level.rank < threshold.rank
  · simp [rendered, passing, hbelow]
  · simp [rendered, passing, hbelow, Int.not_lt.mp hbelow]

namespace Routing

theorem write_frame (r : Routing) (line : Line) :
    (r.write line).file = r.file ∧ (r.write line).threshold = r.threshold := by
  unfold write
  split
  · exact ⟨rfl, rfl⟩
  · cases r.file <;> exact ⟨rfl, rfl⟩

/-- A line is added to the file that the log goes to. -/
theorem get?_write (r : Routing) (line : Line) (spot : Place) :
    (r.write line).tree.get? spot =
      if r.file = some spot then (r.tree.get? spot).map (·.appended (rendered r.threshold [line]))
      else r.tree.get? spot := by
  unfold write
  rw [rendered_singleton]
  by_cases hbelow : line.level.rank < r.threshold.rank
  · simp [hbelow]
  · rw [if_neg hbelow, if_neg hbelow]
    cases hfile : r.file with
    | none => rw [if_neg nofun]
    | some place =>
        dsimp only
        rw [FileTree.get?_append]
        simp only [Option.some.injEq]

/-- The log adds its lines to the file that it goes to, and changes nothing else. -/
theorem get?_writeAll (r : Routing) (journal : Journal) (spot : Place) :
    (r.writeAll journal).tree.get? spot =
      if r.file = some spot then (r.tree.get? spot).map (·.appended (rendered r.threshold journal))
      else r.tree.get? spot := by
  induction journal generalizing r with
  | nil => simp [writeAll, rendered, passing]
  | cons line journal ih =>
      obtain ⟨hfile, hthreshold⟩ := write_frame r line
      have hboth : rendered r.threshold (line :: journal) = _ :=
        rendered_append r.threshold [line] journal
      rw [writeAll, List.foldl_cons, ← writeAll, ih, get?_write, hfile, hthreshold, hboth]
      split
      · simp only [Option.map_map, Function.comp_def, Entry.appended_appended]
      · rfl

end Routing

end Log

/-! ## Starting the daemon -/

/-- What the log of a daemon is opened on: nothing but a new file is made for it, and a file
that was there is the one that the path leads to. -/
structure FileTree.Opened (v : Vantage) (path : Bytes) (tree tree' : FileTree)
    (file : Option Place) : Prop where
  extended : Extends tree tree'
  rooted : tree'.Rooted
  leads : ∀ place entry, file = some place → tree.get? place = some entry →
    tree.stat v.cwd path = .ok (place, entry)

theorem FileTree.opened_openForWriting {v : Vantage} {path : Bytes} {mode : Nat}
    {tree tree' : FileTree} {place : Place}
    (h : tree.openForWriting v path mode = .ok (tree', place)) (rooted : tree.Rooted)
    (start : tree.isDirectory v.cwd = true) : Opened v path tree tree' (some place) := by
  obtain ⟨hslash, ⟨dir, name, hreaches, rfl, rfl⟩ | ⟨found, hreaches, rfl, -⟩⟩ :=
    openForWriting_cases h
  · have hfree := hreaches.2.get?_free.2
    have hnamed : dir ++ [name] ≠ [] := by simp
    have hsame := sameBut_put tree (.file (v.newMode mode) []) hnamed
    refine ⟨(Extends.refl tree).put hfree hnamed _, ?_, ?_⟩
    · refine hsame.rooted (hsame.passes fun _ there => ?_) rooted fun _ => ?_
      · exact absurd (hfree.symm.trans there) nofun
      · rw [List.dropLast_concat]
        exact hreaches.2.free_inDirectory rooted (isDirectory_cwd start)
    · rintro _ entry ⟨⟩ there
      exact absurd (hfree.symm.trans there) nofun
  · refine ⟨.refl _, rooted, ?_⟩
    rintro _ entry ⟨⟩ there
    cases there.symm.trans hreaches.2.get?_found
    exact stat_eq_ok.mpr (by rw [hslash]; exact hreaches)

/-- A program that starts its daemon logs what the start has to say. -/
theorem Program.launch_logs {p : Program} {host : Host} {ok : Bool} {d : Daemon} {site : Site}
    {journal : Log.Journal}
    (h : p.daemon.start { host, process := p.process } = (ok, d, site, journal)) :
    (p.launch host).1 = ok ∧ (p.launch host).2.2.listening = site.host.listening ∧
      ∃ lines, ∀ spot, (p.launch host).2.2.tree.get? spot =
        if p.logFile = some spot then
          (site.host.tree.get? spot).map (·.appended (Log.rendered p.threshold lines))
        else site.host.tree.get? spot := by
  unfold launch act
  dsimp only
  rw [h]
  exact ⟨rfl, rfl, _, fun spot => Log.Routing.get?_writeAll _ _ spot⟩

namespace Control

variable {o : Options} {m m' : Machine} {c c' : Console} {place : Place} {entry : Entry}

/-- The program that a start in the foreground runs once its log is open. -/
def foregroundProgram (o : Options) (m : Machine) (c : Console) (logFile : Option Place) :
    Program where
  daemon := Daemon.new o.config fun tree => .standard tree m.vantage.cwd
  process := { pid := m.nextPid, vantage := m.vantage, home := m.home }
  threshold := c.threshold
  logFile

/-- The rest of a start in the foreground once its log is open. -/
def startOpened (o : Options) (m : Machine) (c : Console) (tree : FileTree)
    (logFile : Option Place) : Outcome × Machine × Console :=
  let (ok, p, host) := (foregroundProgram o m c logFile).launch { m.host with tree }
  let m := { m with host, nextPid := m.nextPid + 1 }
  if ok then (.serving p, m, c) else (.exited 1, m, { c with out := c.out ++ p.printed })

theorem startHere_eq (o : Options) (c : Console) (rooted : m.host.tree.Rooted)
    (workplace : m.host.tree.isDirectory m.vantage.cwd = true) :
    ∃ tree file c', FileTree.Opened m.vantage o.logFile m.host.tree tree file ∧
      c'.threshold = c.threshold ∧ startHere o m c = startOpened o m c' tree file := by
  have hunopened : FileTree.Opened m.vantage o.logFile m.host.tree m.host.tree none :=
    ⟨.refl _, rooted, nofun⟩
  unfold startHere
  dsimp only
  by_cases hempty : o.logFile.isEmpty = true
  · rw [if_pos hempty]
    exact ⟨_, _, _, hunopened, rfl, rfl⟩
  · rw [if_neg hempty]
    cases hopen : m.host.tree.openForWriting m.vantage o.logFile 0o666 with
    | ok opened =>
        exact ⟨_, _, _, FileTree.opened_openForWriting hopen rooted workplace, rfl, rfl⟩
    | error e =>
        exact ⟨_, _, c.complain (text "Cannot open log file " ++ o.logFile ++
          text ", logging to stdout"), hunopened, rfl, rfl⟩

/-- What a start that is refused leaves of an entry: the entry, with the bits of a private
directory if a path climbs, and with more lines if the log goes there. -/
def Leaves (o : Options) (threshold : Log.Level) (m m' : Machine) (place : Place)
    (entry : Entry) : Prop :=
  ∃ entry', (entry' = entry ∨ o.config.Climbs ∧ entry' = entry.withMode 0o700) ∧
    (m'.host.tree.get? place = some entry' ∨
      m.host.tree.stat m.vantage.cwd o.logFile = .ok (place, entry) ∧
        ∃ lines, m'.host.tree.get? place =
          some (entry'.appended (Log.rendered threshold lines)))

/-- A log adds nothing to a directory. -/
theorem Leaves.of_directory {threshold : Log.Level} {between : Machine}
    (h : Leaves o threshold between m' place entry) (directory : entry.isDirectory = true) :
    Leaves o threshold m m' place entry := by
  obtain ⟨entry', hsame, hleft⟩ := h
  refine ⟨entry', hsame, Or.inl ?_⟩
  have hdirectory : entry'.isDirectory = true := by
    rcases hsame with rfl | ⟨-, rfl⟩
    · exact directory
    · rw [FileTree.isDirectory_withMode, directory]
  rcases hleft with hleft | ⟨-, lines, hleft⟩
  · exact hleft
  · rw [hleft, Entry.appended_directory hdirectory]

/-- **A start whose path is held** is refused. -/
theorem startHere_held (c : Console) (rooted : m.host.tree.Rooted)
    (workplace : m.host.tree.isDirectory m.vantage.cwd = true)
    (resolved : o.config.resolve m.home = o.config)
    (held : m.host.Held m.vantage o.config.socketPath place entry) :
    ∃ m' c', startHere o m c = (.exited 1, m', c') ∧
      m'.host.listening = m.host.listening ∧ Leaves o c.threshold m m' place entry := by
  obtain ⟨tree, file, c', hopened, hthreshold, hopening⟩ := startHere_eq o c rooted workplace
  have hopened' : o.config.Preserves m.host.tree tree := .of_extends hopened.extended
  obtain ⟨found, hheld⟩ := hopened'.held held
  obtain ⟨ok, d, site, journal, hstart⟩ : ∃ ok d site journal,
      (foregroundProgram o m c' file).daemon.start
        { host := { m.host with tree }, process := (foregroundProgram o m c' file).process } =
        (ok, d, site, journal) := ⟨_, _, _, _, rfl⟩
  obtain ⟨rfl, hlistening, hpreserved⟩ := Daemon.start_held (Daemon.starts_of_start hstart)
    hopened.rooted (hopened'.passes.isDirectory workplace)
    (by rw [← resolved] at hheld; exact hheld)
  obtain ⟨hfails, hlistening', lines, hentries⟩ := Program.launch_logs hstart
  obtain ⟨p, host, hlaunch⟩ : ∃ p host,
      (foregroundProgram o m c' file).launch { m.host with tree } = (false, p, host) :=
    ⟨_, _, Prod.ext hfails rfl⟩
  rw [hlaunch] at hlistening' hentries
  rw [hopening, startOpened, hlaunch]
  refine ⟨_, _, rfl, hlistening'.trans hlistening, ?_⟩
  -- The log of the start is written after everything else.
  have hthere := (FileTree.stat_eq_ok.mp held.there).2.get?_found
  obtain ⟨entry', hentry, hsame⟩ := hpreserved _ _ (hopened.extended _ _ hthere)
  refine ⟨entry', by rw [← resolved]; exact hsame, ?_⟩
  specialize hentries place
  by_cases hfile : file = some place
  · rw [if_pos (by exact hfile), hentry] at hentries
    exact Or.inr ⟨hopened.leads _ _ hfile hthere, lines, by rw [← hthreshold]; exact hentries⟩
  · rw [if_neg (by exact hfile)] at hentries
    exact Or.inl (hentries.trans hentry)

/-! ## The clean-up by force -/

theorem clearLeftovers_eq (o : Options) (m : Machine) (c : Console) :
    (clearLeftovers o m c).1 =
        { m with
          host :=
            { m.host with
              tree := ((m.host.tree.removeFile m.vantage o.config.socketPath).2.1.removeFile
                m.vantage o.config.pidFile).2.1 } } ∧
      (clearLeftovers o m c).2.threshold = c.threshold := ⟨rfl, rfl⟩

/-- A directory at the socket path stays, and the path still leads to it, unless the pid file
is a link. -/
theorem clearLeftovers_held (o : Options) (c : Console) (rooted : m.host.tree.Rooted)
    (workplace : m.host.tree.isDirectory m.vantage.cwd = true)
    (held : m.host.Held m.vantage o.config.socketPath place entry)
    (directory : entry.isDirectory = true)
    (unlinked : ∀ spot goal,
      m.host.tree.stat m.vantage.cwd o.config.pidFile false ≠ .ok (spot, .link goal)) :
    ∃ tree, (clearLeftovers o m c).1 = { m with host := { m.host with tree } } ∧ tree.Rooted ∧
      tree.isDirectory m.vantage.cwd = true ∧
      ({ m.host with tree } : Host).Held m.vantage o.config.socketPath place entry := by
  obtain ⟨hcheck, hleads⟩ := FileTree.stat_eq_ok.mp held.there
  obtain ⟨mode, rfl⟩ : ∃ mode, entry = .directory mode := by
    cases entry with
    | directory mode => exact ⟨mode, rfl⟩
    | _ => contradiction
  have hfirst : (m.host.tree.removeFile m.vantage o.config.socketPath).2.1 = m.host.tree := by
    rcases FileTree.removeFile_cases m.host.tree m.vantage o.config.socketPath with
      hsame | ⟨other, entry', hother, hfile, -⟩
    · exact hsame
    · cases held.there.symm.trans hother
      contradiction
  obtain ⟨hpasses, hrooted, hkept⟩ := FileTree.removeFile_frame rooted unlinked
  refine ⟨(m.host.tree.removeFile m.vantage o.config.pidFile).2.1, ?_, hrooted,
    hpasses.isDirectory workplace, ?_, nofun⟩
  · rw [(clearLeftovers_eq o m c).1, hfirst]
  · obtain ⟨found, hfound⟩ := hleads.found_again hpasses nofun
    cases hfound.get?_found.symm.trans (hkept _ _ hleads.get?_found)
    exact FileTree.stat_eq_ok.mpr ⟨hcheck, hfound⟩

/-! ## The whole command -/

theorem resolve_resolve (c : Config) (home : Home) :
    (c.resolve home).resolve home = c.resolve home := by
  have horDefault (path default : Bytes) :
      orDefault (orDefault path default) default = orDefault path default := by
    unfold orDefault
    split <;> simp_all
  simp only [Config.resolve, horDefault]

/-- **A start in the foreground does not steal a path.** If a socket that accepts connections
stands at the socket path, or something that is no socket, the command ends with status one
and the entry is left. By force this is so only if it does not come to the clean-up, or if
the entry is a directory. -/
theorem start_leaves_held_path (sound : m.host.tree.WellFormed)
    (workplace : m.host.tree.isDirectory m.vantage.cwd = true)
    (foreground : o.foreground = true)
    (held : m.host.Held m.vantage (resolve o m.home).config.socketPath place entry)
    (spared : o.force = true →
      (m.runningPid (resolve o m.home).config.pidFile).1 = none →
      entry.isDirectory = true ∧ ∀ spot goal, m.host.tree.stat m.vantage.cwd
        (resolve o m.home).config.pidFile false ≠ .ok (spot, .link goal)) :
    ∃ m' c', start (resolve o m.home) m c = (.exited 1, m', c') ∧
      m'.host.listening = m.host.listening ∧
      Leaves (resolve o m.home) c.threshold m m' place entry := by
  have hrooted := sound.rooted
  have hresolved : (resolve o m.home).config.resolve m.home = (resolve o m.home).config :=
    resolve_resolve o.config m.home
  have hentry := (FileTree.stat_eq_ok.mp held.there).2.get?_found
  obtain ⟨pid, journal, hpid⟩ : ∃ pid journal,
      m.runningPid (resolve o m.home).config.pidFile = (pid, journal) := ⟨_, _, rfl⟩
  rw [hpid] at spared
  unfold start
  rw [hpid]
  cases pid with
  | some pid => exact ⟨_, _, rfl, rfl, entry, Or.inl rfl, Or.inl hentry⟩
  | none =>
      have hforeground : (resolve o m.home).foreground = true := foreground
      dsimp only
      rw [if_pos hforeground]
      by_cases hforce : o.force = true
      · obtain ⟨hdirectory, hunlinked⟩ := spared hforce rfl
        obtain ⟨tree, hcleared, hrooted', hworkplace', hheld'⟩ :=
          clearLeftovers_held (resolve o m.home) (c.log journal) hrooted workplace held
            hdirectory hunlinked
        have hthreshold := (clearLeftovers_eq (resolve o m.home) m (c.log journal)).2
        have hforced : (resolve o m.home).force = true := hforce
        rw [if_pos hforced]
        generalize clearLeftovers (resolve o m.home) m (c.log journal) = cleared at *
        obtain ⟨m₁, c₁⟩ := cleared
        dsimp only at hcleared hthreshold ⊢
        subst hcleared
        obtain ⟨m', c', hstart, hlistening, hleft⟩ :=
          startHere_held (m := { m with host := { m.host with tree } }) c₁ hrooted' hworkplace'
            hresolved hheld'
        rw [hthreshold] at hleft
        exact ⟨m', c', hstart, hlistening, hleft.of_directory hdirectory⟩
      · have hunforced : ¬(resolve o m.home).force = true := hforce
        rw [if_neg hunforced]
        exact startHere_held _ hrooted workplace hresolved held

/-! ## A daemon at work -/

/-- Somebody listens at `/s`, and `/d` is a directory. -/
def atWork : Machine where
  host :=
    { tree := ⟨[([[115]], .socket 0o600 3), ([[100]], .directory 0o755)]⟩
      listening := [3]
      nextSocket := 4 }
  vantage := { cwd := [] }
  nextPid := 5

/-- The socket is to be `/s` and the pid file `/d`. -/
def inPlace (force : Bool) : Options where
  config := { socketPath := [47, 115], pidFile := [47, 100], workers := 1 }
  force
  foreground := true

theorem held_atWork (force : Bool) : atWork.host.Held atWork.vantage
    (resolve (inPlace force) atWork.home).config.socketPath [[115]] (.socket 0o600 3) := by
  refine ⟨by cbv, ?_⟩
  rintro bits number ⟨⟩
  exact List.mem_singleton_self 3

/-- Without force the socket is left, and its daemon can be reached as before. -/
theorem start_leaves_held_path_at_work :
    ∃ m' c', start (resolve (inPlace false) atWork.home) atWork {} = (.exited 1, m', c') ∧
      m'.host.listening = [3] ∧ m'.host.tree.get? [[115]] = some (.socket 0o600 3) := by
  have hsound : atWork.host.tree.WellFormed := ⟨by decide, by decide, by decide⟩
  obtain ⟨m', c', hstart, hlistening, entry', hsame, hleft⟩ :=
    start_leaves_held_path (c := {}) hsound rfl rfl (held_atWork false) nofun
  have hlevel : ¬(resolve (inPlace false) atWork.home).config.Climbs := by
    have hroot : (PathText.parse [47]).names = [] := by cbv
    rintro (h | h) <;>
      · rw [PathText.Climbs, show parentDirectory _ = [47] by cbv, hroot] at h
        contradiction
  refine ⟨m', c', hstart, hlistening, ?_⟩
  rcases hsame with rfl | ⟨hclimbs, -⟩
  · rcases hleft with hleft | ⟨hlog, -⟩
    · exact hleft
    · cases hlog
  · exact absurd hclimbs hlevel

/-- By force the socket is removed, although the daemon listens and the start fails. -/
theorem forced_start_removes_live_socket :
    atWork.host.Held atWork.vantage (resolve (inPlace true) atWork.home).config.socketPath
        [[115]] (.socket 0o600 3) ∧
      ∃ m' c', start (resolve (inPlace true) atWork.home) atWork {} = (.exited 1, m', c') ∧
        m'.host.tree.get? [[115]] = none := by
  have hexits : (start (resolve (inPlace true) atWork.home) atWork {}).1 = .exited 1 := by cbv
  refine ⟨held_atWork true, _, _, Prod.ext hexits rfl, ?_⟩
  cbv

end Control

end SearchDaemon
