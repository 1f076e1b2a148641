import SearchDaemon.Proofs.BindingOutcomes
import SearchDaemon.Proofs.Run

/-!
# Listeners that share a path

Any number of listeners bind, close and remove at one path, in any order. One that has bound
has its socket file at the path, and clients reach it, until a listener is asked to remove a
file that it has made itself at some time: closing does not make it forget that, and what it
removes then is whatever stands at the path. So this is the one call of the others that takes
the file away, and once it is gone it does not come back.
-/

namespace SearchDaemon

open FileTree (SameBut)

/-! ## The calls on the listeners -/

namespace Listener

inductive Call where
  | bind
  | close
  | remove
deriving DecidableEq, Repr

/-- What a call leaves of the listener and of the host. -/
def Call.run (v : Vantage) (l : Listener) (host : Host) : Call → Listener × Host
  | .bind => ((l.bind host v).listener, (l.bind host v).host)
  | .close => l.close host
  | .remove => ((l.removeSocketFile host v).1, (l.removeSocketFile host v).2.1)

end Listener

/-- Listeners on a host. -/
structure Sharing where
  host : Host
  listeners : List Listener

namespace Sharing

open Listener (Call)

/-- A call on one of the listeners. -/
structure Act where
  asked : Nat
  call : Call

def act? (v : Vantage) (s : Sharing) (act : Act) : Option Sharing :=
  match s.listeners[act.asked]? with
  | none => none
  | some l =>
      let (l, host) := act.call.run v l s.host
      some { host, listeners := s.listeners.set act.asked l }

/-- A listener is asked to remove a file that it has made. -/
def RemovesFile (m : Moment Sharing Act) : Prop :=
  m.act.call = .remove ∧
    ∃ l, m.before.listeners[m.act.asked]? = some l ∧ l.createdFile = true

/-- The listeners have one path and sockets of their own, on a host with a working directory. -/
structure Sound (v : Vantage) (path : Bytes) (s : Sharing) : Prop where
  rooted : s.host.tree.Rooted
  workplace : s.host.tree.isDirectory v.cwd = true
  shared : ∀ l ∈ s.listeners, l.path = path
  numbered : ∀ l ∈ s.listeners, ∀ number, l.socket = some number → number < s.host.nextSocket

end Sharing

/-! ## One call -/

namespace FileTree

variable {tree : FileTree} {v : Vantage} {path : Bytes} {place other : Place} {entry : Entry}

theorem isDirectory_erase (there : tree.get? place = some entry)
    (file : entry.isDirectory = false) (named : place ≠ []) :
    (tree.erase place).isDirectory other = tree.isDirectory other := by
  rw [isDirectory, get?_erase tree place other named]
  split_ifs with hother
  · rw [hother, isDirectory, there, Option.any_some, file]
    rfl
  · rfl

/-- All directories are left when a path is removed, also if it is a link. -/
theorem isDirectory_removeFile (tree : FileTree) (v : Vantage) (path : Bytes) (other : Place) :
    (tree.removeFile v path).2.1.isDirectory other = tree.isDirectory other := by
  rcases removeFile_cases tree v path with hsame | ⟨place, entry, hstat, hfile, herased⟩
  · rw [hsame]
  · rw [herased]
    exact isDirectory_erase (stat_eq_ok.mp hstat).2.get?_found hfile (named_of_stat hstat hfile)

theorem Rooted.removeFile (rooted : tree.Rooted) : (tree.removeFile v path).2.1.Rooted := by
  intro other entry hentry
  rw [isDirectory_removeFile]
  rcases removeFile_cases tree v path with hsame | ⟨place, _, hstat, hfile, herased⟩
  · rw [hsame] at hentry
    exact rooted _ _ hentry
  · rw [herased, get?_erase tree place other (named_of_stat hstat hfile)] at hentry
    split_ifs at hentry
    exact rooted _ _ hentry

end FileTree

namespace Listener

variable {host host' : Host} {v : Vantage} {place : Place} {l l' : Listener} {call : Call}

section

variable (rooted : host.tree.Rooted) (start : host.tree.isDirectory v.cwd = true)
include rooted start

/-- A bind changes nothing, or it binds the path. -/
theorem bind_cases :
    ((l.bind host v).listener = l ∧ (l.bind host v).host = host ∧
        ((l.bind host v).ok = true → l.isBound = true)) ∨
      l.isBound = false ∧ ∃ place tree journal, host.Bindable v l.path place ∧
        SameBut place host.tree tree ∧
        tree.get? place = some (.socket 0o600 host.nextSocket) ∧
        l.bind host v = l.boundIn host tree journal := by
  cases hbound : l.isBound with
  | true =>
      rw [bind, hbound, if_pos rfl]
      exact Or.inl ⟨rfl, rfl, fun _ => rfl⟩
  | false =>
      by_cases hbindable : ∃ place, host.Bindable v l.path place
      · obtain ⟨place, hplace⟩ := hbindable
        obtain ⟨tree, journal, hrest, hmade, hbind⟩ :=
          bind_of_bindable rooted start hbound hplace
        exact Or.inr ⟨rfl, place, tree, journal, hplace, hrest, hmade, hbind⟩
      · obtain ⟨probed, journal, hbind⟩ := bind_refused rooted start hbound hbindable
        rw [hbind]
        exact Or.inl ⟨rfl, rfl, fun h => absurd h Bool.false_ne_true⟩

end

/-- What a call comes to. -/
inductive Called (v : Vantage) (l : Listener) (host : Host) : Call → Listener → Host → Prop
  | idle {call : Call} : (call = .remove → l.createdFile = false) → Called v l host call l host
  | bound {place : Place} {tree : FileTree} {journal : Log.Journal} :
      l.socket = none → host.Bindable v l.path place → SameBut place host.tree tree →
      tree.get? place = some (.socket 0o600 host.nextSocket) →
      Called v l host .bind (l.boundIn host tree journal).listener
        (l.boundIn host tree journal).host
  | closed {number : Nat} : l.socket = some number →
      Called v l host .close { l with socket := none, broken := false } (host.closeSocket number)
  | removed : l.createdFile = true →
      Called v l host .remove { l with createdFile := false }
        { host with tree := (host.tree.removeFile v l.path).2.1 }

theorem called_run (rooted : host.tree.Rooted) (start : host.tree.isDirectory v.cwd = true)
    (call : Call) : Called v l host call (call.run v l host).1 (call.run v l host).2 := by
  cases call with
  | bind =>
      show Called v l host .bind (l.bind host v).listener (l.bind host v).host
      rcases bind_cases rooted start with
        ⟨hlistener, hhost, -⟩ | ⟨hfree, place, tree, journal, hplace, hrest, hmade, hbind⟩
      · rw [hlistener, hhost]
        exact .idle Call.noConfusion
      · rw [hbind]
        exact .bound (by simpa [isBound] using hfree) hplace hrest hmade
  | close =>
      show Called v l host .close (l.close host).1 (l.close host).2
      unfold close
      split
      · rename_i number hsocket
        exact .closed hsocket
      · exact .idle Call.noConfusion
  | remove =>
      show Called v l host .remove (l.removeSocketFile host v).1 (l.removeSocketFile host v).2.1
      unfold removeSocketFile
      split
      · rename_i hcreated
        exact .removed hcreated
      · rename_i hcreated
        exact .idle fun _ => Bool.eq_false_iff.mpr hcreated

namespace Called

theorem path_eq (called : Called v l host call l' host') : l'.path = l.path := by
  cases called <;> rfl

theorem nextSocket_le (called : Called v l host call l' host') :
    host.nextSocket ≤ host'.nextSocket := by
  cases called with
  | bound => exact Nat.le_succ _
  | idle | closed | removed => exact Nat.le_refl _

/-- A listener has the socket that it had, or the newest one. -/
theorem socket_eq {number : Nat} (called : Called v l host call l' host')
    (bound : l'.socket = some number) :
    l.socket = some number ∨ number = host.nextSocket ∧ number < host'.nextSocket := by
  cases called with
  | bound =>
      cases bound
      exact Or.inr ⟨rfl, Nat.lt_succ_self _⟩
  | closed => contradiction
  | idle | removed => exact Or.inl bound

/-- To bind once more changes nothing. -/
theorem bound_again {number : Nat} (called : Called v l host .bind l' host')
    (bound : l.socket = some number) : l' = l ∧ host' = host := by
  cases called with
  | idle => exact ⟨rfl, rfl⟩
  | bound hfree =>
      rw [bound] at hfree
      contradiction

/-- Only its own listener closes a socket. -/
theorem accepts {number : Nat} (called : Called v l host call l' host')
    (accepting : number ∈ host.listening) (other : l.socket ≠ some number) :
    number ∈ host'.listening := by
  cases called with
  | idle | removed => exact accepting
  | bound => exact List.mem_cons_of_mem _ accepting
  | closed hsocket =>
      refine List.mem_filter.mpr ⟨accepting, decide_eq_true ?_⟩
      rintro rfl
      exact other hsocket

theorem site (called : Called v l host call l' host') (rooted : host.tree.Rooted)
    (start : host.tree.isDirectory v.cwd = true) :
    host'.tree.Rooted ∧ host'.tree.isDirectory v.cwd = true := by
  cases called with
  | idle | closed => exact ⟨rooted, start⟩
  | bound _ hbindable hrest hmade =>
      have hplaced : FileTree.Placed v l.path _ host.tree _ :=
        ⟨hbindable.named, hbindable.plain, hrest, _, hmade, rfl⟩
      exact ⟨hplaced.rooted_after rooted start, hplaced.passes.isDirectory start⟩
  | removed => exact ⟨rooted.removeFile, (FileTree.isDirectory_removeFile _ v l.path _).trans start⟩

end Called

/-! ## The place of the path -/

/-- The path names a place where there is a socket of one of the listeners, or nothing. -/
structure Spot (host : Host) (v : Vantage) (path : Bytes) (place : Place) : Prop where
  named : host.tree.Names v.cwd path place
  socket : ∀ entry, host.tree.get? place = some entry → ∃ number, entry = .socket 0o600 number

theorem Spot.plain {path : Bytes} (spot : Spot host v path place) :
    ∀ entry, host.tree.get? place = some entry → entry.isPlain = true := by
  intro entry hentry
  obtain ⟨number, rfl⟩ := spot.socket entry hentry
  rfl

section

variable (spot : Spot host v l.path place) (rooted : host.tree.Rooted)
  (start : host.tree.isDirectory v.cwd = true)
include spot rooted start

/-- What is removed is whatever stands at the place. -/
theorem Spot.removed :
    Spot { host with tree := (host.tree.removeFile v l.path).2.1 } v l.path place ∧
      (host.tree.removeFile v l.path).2.1.get? place = none := by
  cases hhere : host.tree.get? place with
  | none =>
      rcases FileTree.removeFile_cases host.tree v l.path with
        hsame | ⟨other, entry, hstat, hfile, -⟩
      · rw [hsame]
        exact ⟨spot, hhere⟩
      · obtain ⟨hnames, hentry⟩ := FileTree.names_of_stat rooted start hstat hfile
        rw [hnames.unique spot.named, hhere] at hentry
        contradiction
  | some entry =>
      obtain ⟨number, rfl⟩ := spot.socket entry hhere
      obtain ⟨hnamed, -⟩ := spot.named.inDirectory rooted start spot.plain
      have hgone := FileTree.get?_erase_here host.tree hnamed
      have hpasses := (FileTree.sameBut_erase host.tree hnamed).passes spot.plain
      rw [spot.named.removeFile hhere rfl]
      refine ⟨⟨?_, fun entry hentry => ?_⟩, hgone⟩
      · exact spot.named.kept rooted start hpasses spot.plain fun entry hentry =>
          absurd (hgone.symm.trans hentry) nofun
      · exact absurd (hgone.symm.trans hentry) nofun

/-- A socket that accepts connections stays where it is, unless a listener that has made a file
is asked to remove it. -/
theorem Called.kept (called : Called v l host call l' host') :
    Spot host' v l.path place ∧ ∀ number ∈ host.listening, number < host.nextSocket →
      (host'.tree.get? place = some (.socket 0o600 number) ↔
        host.tree.get? place = some (.socket 0o600 number) ∧
          ¬(call = .remove ∧ l.createdFile = true)) := by
  cases called with
  | idle hkept =>
      refine ⟨spot, fun number _ _ => (and_iff_left ?_).symm⟩
      rintro ⟨hcall, hcreated⟩
      rw [hkept hcall] at hcreated
      contradiction
  | closed => exact ⟨⟨spot.named, spot.socket⟩, fun number _ _ => (and_iff_left nofun).symm⟩
  | removed hcreated =>
      obtain ⟨hspot, hnone⟩ := spot.removed rooted start
      refine ⟨hspot, fun number _ _ => iff_of_false ?_ fun h => h.2 ⟨rfl, hcreated⟩⟩
      rw [hnone]
      exact nofun
  | @bound _ tree journal hfree hbindable hrest hmade =>
      cases hbindable.named.unique spot.named
      have hat : BoundAt host v l place (l.boundIn host tree journal) :=
        boundAt_boundIn rooted start hbindable hrest hmade
      refine ⟨⟨hat.named, fun entry hentry => ?_⟩, fun number haccepts hold => iff_of_false ?_ ?_⟩
      · cases hmade.symm.trans hentry
        exact ⟨host.nextSocket, rfl⟩
      · intro hnow
        cases hmade.symm.trans hnow
        exact absurd hold (Nat.lt_irrefl _)
      · -- The socket would not have let the path be bound.
        rintro ⟨hthere, -⟩
        obtain ⟨⟨_, _, heq, hdead⟩, -⟩ := hat.removed _ hthere
        cases heq
        exact hdead haccepts

end

end Listener

/-! ## One listener among the others -/

namespace Sharing

open Listener (Called Spot)

variable {v : Vantage} {path : Bytes} {place : Place} {s s' start last a b : Sharing} {act : Act}
  {j n : Nat} {l : Listener} {past later : List (Moment Sharing Act)}

theorem removesFile_iff (asked : s.listeners[act.asked]? = some l) :
    RemovesFile ⟨s, act, s'⟩ ↔ act.call = .remove ∧ l.createdFile = true := by
  constructor
  · rintro ⟨hcall, other, hother, hcreated⟩
    cases asked.symm.trans hother
    exact ⟨hcall, hcreated⟩
  · rintro ⟨hcall, hcreated⟩
    exact ⟨hcall, l, asked, hcreated⟩

theorem called_of_act? (sound : s.Sound v path) (step : act? v s act = some s') :
    ∃ l l', s.listeners[act.asked]? = some l ∧ l.path = path ∧
      s'.listeners = s.listeners.set act.asked l' ∧
      Called v l s.host act.call l' s'.host := by
  unfold act? at step
  split at step
  · contradiction
  · rename_i l hl
    cases step
    exact ⟨l, _, hl, sound.shared l (List.mem_of_getElem? hl), rfl,
      Listener.called_run sound.rooted sound.workplace act.call⟩

theorem sound_act (sound : s.Sound v path) (step : act? v s act = some s') :
    s'.Sound v path := by
  obtain ⟨l, l', hl, hpath, hset, hcalled⟩ := called_of_act? sound step
  obtain ⟨hrooted, hworkplace⟩ := hcalled.site sound.rooted sound.workplace
  refine ⟨hrooted, hworkplace, ?_, ?_⟩
  · intro other hother
    rw [hset] at hother
    rcases List.mem_or_eq_of_mem_set hother with hother | rfl
    · exact sound.shared other hother
    · exact hcalled.path_eq.trans hpath
  · intro other hother number hsocket
    rw [hset] at hother
    rcases List.mem_or_eq_of_mem_set hother with hother | rfl
    · exact Nat.lt_of_lt_of_le (sound.numbered other hother number hsocket) hcalled.nextSocket_le
    · rcases hcalled.socket_eq hsocket with hsame | ⟨-, hnew⟩
      · exact Nat.lt_of_lt_of_le (sound.numbered l (List.mem_of_getElem? hl) number hsame)
          hcalled.nextSocket_le
      · exact hnew

/-- A listener is bound to a socket that is its alone, at the place that the path names. -/
structure BoundTo (v : Vantage) (path : Bytes) (place : Place) (j n : Nat) (s : Sharing) :
    Prop where
  sound : s.Sound v path
  owner : ∃ l, s.listeners[j]? = some l ∧ l.socket = some n
  accepts : n ∈ s.host.listening
  alone : ∀ i l, i ≠ j → s.listeners[i]? = some l → l.socket ≠ some n
  spot : Spot s.host v path place

theorem BoundTo.next (bound : s.BoundTo v path place j n) (step : act? v s act = some s')
    (left : act.asked = j → act.call = .bind) :
    s'.BoundTo v path place j n ∧
      (s'.host.tree.get? place = some (.socket 0o600 n) ↔
        s.host.tree.get? place = some (.socket 0o600 n) ∧ ¬RemovesFile ⟨s, act, s'⟩) := by
  have hsound := sound_act bound.sound step
  obtain ⟨l, l', hl, rfl, hset, hcalled⟩ := called_of_act? bound.sound step
  obtain ⟨mine, hmine, hsocket⟩ := bound.owner
  have hold : n < s.host.nextSocket :=
    bound.sound.numbered mine (List.mem_of_getElem? hmine) n hsocket
  obtain ⟨hspot, hkept⟩ := hcalled.kept bound.spot bound.sound.rooted bound.sound.workplace
  have hget (k : Nat) :
      s'.listeners[k]? = if act.asked = k then some l' else s.listeners[k]? := by
    obtain ⟨hlt, -⟩ := List.getElem?_eq_some_iff.mp hl
    rw [hset, List.getElem?_set, if_pos hlt]
  refine ⟨⟨hsound, ?owner, ?accepts, ?alone, hspot⟩, ?_⟩
  case owner =>
    rw [hget j]
    split_ifs with hasked
    · cases (hasked ▸ hl).symm.trans hmine
      rw [left hasked] at hcalled
      obtain ⟨rfl, -⟩ := hcalled.bound_again hsocket
      exact ⟨l', rfl, hsocket⟩
    · exact ⟨mine, hmine, hsocket⟩
  case accepts =>
    by_cases hasked : act.asked = j
    · cases (hasked ▸ hl).symm.trans hmine
      rw [left hasked] at hcalled
      rw [(hcalled.bound_again hsocket).2]
      exact bound.accepts
    · exact hcalled.accepts bound.accepts (bound.alone _ _ hasked hl)
  case alone =>
    intro i other hi hother hsame
    rw [hget i] at hother
    split_ifs at hother with hasked
    · cases hother
      rcases hcalled.socket_eq hsame with hhad | ⟨hnew, -⟩
      · exact bound.alone i l hi (hasked ▸ hl) hhad
      · omega
    · exact bound.alone i other hi hother hsame
  · rw [removesFile_iff hl]
    exact hkept n bound.accepts hold

/-- Its file stays, until a listener is asked to remove one that it has made. -/
theorem BoundTo.run (bound : s.BoundTo v path place j n)
    (here : s.host.tree.get? place = some (.socket 0o600 n))
    (run : Run (act? v) s later last) (left : ∀ m ∈ later, m.act.asked = j → m.act.call = .bind) :
    last.BoundTo v path place j n ∧
      (last.host.tree.get? place = some (.socket 0o600 n) ↔ ∀ m ∈ later, ¬RemovesFile m) := by
  induction run with
  | start => exact ⟨bound, iff_of_true here nofun⟩
  | snoc _ step ih =>
      obtain ⟨hbound, hhere⟩ := ih fun m hm => left m (List.mem_append_left _ hm)
      obtain ⟨hbound', hhere'⟩ := hbound.next step
        (left _ (List.mem_append_right _ (List.mem_singleton_self _)))
      refine ⟨hbound', ?_⟩
      rw [hhere', hhere]
      simp only [List.mem_append, List.mem_singleton, or_imp, forall_and, forall_eq]

/-- A listener that binds the path is bound to a new socket there. -/
theorem boundTo_of_bind (sound : a.Sound v path) (step : act? v a ⟨j, .bind⟩ = some b)
    (asked : a.listeners[j]? = some l) (unbound : l.isBound = false)
    (took : (l.bind a.host v).ok = true) :
    ∃ place n, b.BoundTo v path place j n ∧
      b.host.tree.get? place = some (.socket 0o600 n) := by
  obtain rfl := sound.shared l (List.mem_of_getElem? asked)
  obtain ⟨hlt, -⟩ := List.getElem?_eq_some_iff.mp asked
  rcases Listener.bind_cases sound.rooted sound.workplace with
    ⟨-, -, hagain⟩ | ⟨-, place, tree, journal, hplace, hrest, hmade, hbind⟩
  · rw [hagain took] at unbound
    contradiction
  have hat : Listener.BoundAt a.host v l place (l.boundIn a.host tree journal) :=
    Listener.boundAt_boundIn sound.rooted sound.workplace hplace hrest hmade
  have hb : b = ⟨(l.boundIn a.host tree journal).host,
      a.listeners.set j (l.boundIn a.host tree journal).listener⟩ := by
    simp only [act?, asked, Listener.Call.run, hbind] at step
    exact (Option.some.inj step).symm
  have hmine : b.listeners[j]? = some (l.boundIn a.host tree journal).listener := by
    rw [hb, List.getElem?_set_self hlt]
  refine ⟨place, a.host.nextSocket, ⟨sound_act sound step, ⟨_, hmine, rfl⟩, ?accepts, ?alone,
    ?spot⟩, ?here⟩
  case accepts =>
    rw [hb]
    exact List.mem_cons_self
  case alone =>
    intro i other hi hother hsame
    rw [hb, List.getElem?_set_ne hi.symm] at hother
    exact absurd (sound.numbered other (List.mem_of_getElem? hother) _ hsame) (Nat.lt_irrefl _)
  case here =>
    rw [hb]
    exact hmade
  case spot =>
    rw [hb]
    refine ⟨hat.named, fun entry hentry => ?_⟩
    cases hmade.symm.trans hentry
    exact ⟨_, rfl⟩

/-- Clients reach the socket exactly if its file stands at the place. -/
theorem BoundTo.connect_iff (bound : s.BoundTo v path place j n) :
    s.host.connect v path = .ok n ↔ s.host.tree.get? place = some (.socket 0o600 n) := by
  constructor
  · intro hconnect
    cases hhere : s.host.tree.get? place with
    | none => exact absurd hconnect (Host.connect_of_free bound.spot.named hhere)
    | some entry =>
        obtain ⟨number, rfl⟩ := bound.spot.socket entry hhere
        rw [Host.connect_of_socket bound.spot.named hhere] at hconnect
        split_ifs at hconnect
        cases hconnect
        rfl
  · intro hhere
    rw [Host.connect_of_socket bound.spot.named hhere, if_pos bound.accepts]

/-- **A listener that has bound the path and has been neither closed nor asked to remove its
file** has its socket at the place that the path names, and clients reach it, exactly as long as
no other listener is asked to remove a file that it has made. -/
theorem socket_file_stays_unless_removed
    (run : Run (act? v) start (past ++ ⟨a, ⟨j, .bind⟩, b⟩ :: later) last)
    (sound : start.Sound v path) (asked : a.listeners[j]? = some l) (unbound : l.isBound = false)
    (took : (l.bind a.host v).ok = true)
    (left : ∀ m ∈ later, m.act.asked = j → m.act.call = .bind) :
    ∃ place n, last.host.tree.Names v.cwd path place ∧
      (∃ l', last.listeners[j]? = some l' ∧ l'.socket = some n) ∧
      (last.host.tree.get? place = some (.socket 0o600 n) ↔ ∀ m ∈ later, ¬RemovesFile m) ∧
      (last.host.connect v path = .ok n ↔ ∀ m ∈ later, ¬RemovesFile m) := by
  rw [List.append_cons] at run
  obtain ⟨mid, hfirst, hlater⟩ := run.of_append
  obtain ⟨hbefore, hstep, rfl⟩ := hfirst.of_snoc
  have hsound : a.Sound v path := hbefore.keeps (fun _ _ _ => sound_act) sound
  obtain ⟨place, n, hbound, hhere⟩ := boundTo_of_bind hsound hstep asked unbound took
  obtain ⟨hstill, hkept⟩ := hbound.run hhere hlater left
  exact ⟨place, n, hstill.spot.named, hstill.owner, hkept, hstill.connect_iff.trans hkept⟩

/-! ### Two listeners -/

/-- Two listeners with the path `s`. -/
def pair (first second : Listener) (host : Host) : Sharing where
  host
  listeners := [first, second]

def unused : Sharing := pair { path := [115] } { path := [115] } {}

/-- The first listener has bound the path. -/
def bound : Sharing :=
  pair { path := [115], socket := some 1, createdFile := true } { path := [115] }
    { tree := ⟨[([[115]], .socket 0o600 1)]⟩, listening := [1], nextSocket := 2 }

/-- The first listener has been closed. -/
def closed : Sharing :=
  pair { path := [115], createdFile := true } { path := [115] }
    { tree := ⟨[([[115]], .socket 0o600 1)]⟩, nextSocket := 2 }

/-- The second listener has bound the path in its place. -/
def succeeded : Sharing :=
  pair { path := [115], createdFile := true }
    { path := [115], socket := some 2, createdFile := true }
    { tree := ⟨[([[115]], .socket 0o600 2)]⟩, listening := [2], nextSocket := 3 }

theorem run_succeeded :
    Run (act? { cwd := [] }) unused
      [⟨unused, ⟨0, .bind⟩, bound⟩, ⟨bound, ⟨0, .close⟩, closed⟩,
        ⟨closed, ⟨1, .bind⟩, succeeded⟩] succeeded := by
  have hbind : act? { cwd := [] } unused ⟨0, .bind⟩ = some bound := by cbv
  have hclose : act? { cwd := [] } bound ⟨0, .close⟩ = some closed := by cbv
  have hsucceed : act? { cwd := [] } closed ⟨1, .bind⟩ = some succeeded := by cbv
  exact ((Run.start.snoc hbind).snoc hclose).snoc hsucceed

/-- The first listener cannot bind the path again, and the second one is still reached. -/
theorem socket_file_stays_unless_removed_refused :
    ∃ later last, Run (act? { cwd := [] }) succeeded later last ∧
      later.map Moment.act = [⟨0, .bind⟩] ∧
      ∃ n, (∃ l, last.listeners[1]? = some l ∧ l.socket = some n) ∧
        last.host.connect { cwd := [] } [115] = .ok n := by
  have hrefuse : act? { cwd := [] } succeeded ⟨0, .bind⟩ = some succeeded := by cbv
  have hsound : unused.Sound { cwd := [] } [115] :=
    ⟨FileTree.WellFormed.rooted ⟨by decide, by decide, by decide⟩, rfl, by decide, by decide⟩
  have hrun : Run (act? { cwd := [] }) unused
      ([⟨unused, ⟨0, .bind⟩, bound⟩, ⟨bound, ⟨0, .close⟩, closed⟩] ++
        ⟨closed, ⟨1, .bind⟩, succeeded⟩ :: [⟨succeeded, ⟨0, .bind⟩, succeeded⟩]) succeeded :=
    run_succeeded.snoc hrefuse
  obtain ⟨-, n, -, howner, -, hreached⟩ :=
    socket_file_stays_unless_removed hrun hsound rfl rfl (by cbv) (by simp)
  refine ⟨_, succeeded, Run.start.snoc hrefuse, rfl, n, howner, hreached.mpr ?_⟩
  rintro m hm ⟨hcall, -⟩
  cases List.mem_singleton.mp hm
  contradiction

/-- The first listener, which has been closed, removes the file of the second one. -/
theorem closed_listener_removes_file_of_another :
    ∃ past last, Run (act? { cwd := [] }) unused past last ∧
      past.map Moment.act = [⟨0, .bind⟩, ⟨0, .close⟩, ⟨1, .bind⟩, ⟨0, .remove⟩] ∧
      (({ path := [115] } : Listener).bind closed.host { cwd := [] }).ok = true ∧
      (∃ l, last.listeners[1]? = some l ∧ l.isBound = true) ∧
      last.host.tree.stat [] [115] false = .error .noEntry ∧
      last.host.connect { cwd := [] } [115] = .error .noEntry := by
  let last := pair { path := [115] } { path := [115], socket := some 2, createdFile := true }
    { listening := [2], nextSocket := 3 }
  have hremove : act? { cwd := [] } succeeded ⟨0, .remove⟩ = some last := by cbv
  exact ⟨_, last, run_succeeded.snoc hremove, rfl, by cbv, ⟨_, rfl, rfl⟩, by cbv, by cbv⟩

end Sharing

end SearchDaemon
