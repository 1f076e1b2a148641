import SearchDaemon.Proofs.Run
import SearchDaemon.Signals

/-!
# Sessions of signal handlers

The handlers of a process take the three signals one after the other: a session of a handler
lasts from a start that was granted to the stop of the same handler. What the signals did
before the first session they do again between any two, and a start is granted exactly then.

Within a session the second signal ends the process. The first one reaches the callback in
the first session of a handler only: the stop that ends a session leaves the handler's thread
notified for good, and in a later session that thread ends without having read a signal.
-/

namespace SearchDaemon

/-- A handler that was never started is as it was made, and one that was started runs or has
its thread told to stop. -/
def SignalHandler.Marked (sessions : Nat) (h : SignalHandler) : Prop :=
  if sessions = 0 then h = {} else h.running = true ∨ h.stopNotified = true

namespace SignalTable

/-! ## Histories -/

/-- What happens to the signals of a process. -/
inductive Act where
  | start (position : Nat)
  | stop (position : Nat)
  | raise (signal : Signal)
  /-- The thread of a handler reads a signal. `failure` is the error that the shutdown
  callback throws, if it is called and throws one. -/
  | attend (position : Nat) (failure : Option Bytes)
deriving DecidableEq, Repr

/-- A process that is not alive does nothing any more. -/
def act? : Fate × SignalTable → Act → Option (Fate × SignalTable)
  | (.alive, t), .start i => some (.alive, (t.start i).2.1)
  | (.alive, t), .stop i => some (.alive, (t.stop i).1)
  | (.alive, t), .raise signal => some (t.raise signal)
  | (.alive, t), .attend i failure => (t.attend? failure i).map fun r => (.alive, r.1)
  | _, _ => none

/-- The signals before the first start, with `n` handlers made and none of them started. -/
def fresh (before : Dispositions) (n : Nat) : SignalTable :=
  { dispositions := before, handlers := List.replicate n {} }

/-- The start of the handler at a position is granted in this moment. -/
def grants (i : Nat) (m : Moment (Fate × SignalTable) Act) : Bool :=
  m.act = .start i && (m.before.2.start i).1

/-- How many sessions of the handler at a position have begun. -/
def sessions (i : Nat) (past : List (Moment (Fate × SignalTable) Act)) : Nat :=
  past.countP (grants i)

/-- The handler whose start was granted and that was not stopped since, after one more moment. -/
def holderAfter (holder : Option Nat) (m : Moment (Fate × SignalTable) Act) : Option Nat :=
  match m.act with
  | .start i => if (m.before.2.start i).1 then some i else holder
  | .stop i => if holder = some i then none else holder
  | _ => holder

/-- The handler whose start was granted last and that was not stopped since. -/
def holder (past : List (Moment (Fate × SignalTable) Act)) : Option Nat :=
  past.foldl holderAfter none

def raisedIn (m : Moment (Fate × SignalTable) Act) : Option Signal :=
  match m.act with
  | .raise signal => some signal
  | _ => none

/-- The signals that reached the process. -/
def raised (past : List (Moment (Fate × SignalTable) Act)) : List Signal :=
  past.filterMap raisedIn

variable {before : Dispositions} {n i j : Nat} {t t' : SignalTable} {fate : Fate} {act : Act}
  {h h' : SignalHandler} {past during : List (Moment (Fate × SignalTable) Act)}
  {m : Moment (Fate × SignalTable) Act}

theorem sessions_snoc :
    sessions i (past ++ [m]) = sessions i past + if grants i m then 1 else 0 := by
  rw [sessions, sessions, List.countP_append, List.countP_singleton]

theorem holder_snoc : holder (past ++ [m]) = holderAfter (holder past) m := by
  rw [holder, List.foldl_append]
  rfl

theorem raised_snoc : raised (past ++ [m]) = raised past ++ (raisedIn m).toList := by
  rw [raised, List.filterMap_append]
  cases hm : raisedIn m <;> simp [hm, raised]

/-! ## What one act can do -/

theorem getElem?_setHandler (present : t.handlers[i]? = some h) :
    (t.setHandler i h').handlers[i]? = some h' :=
  List.getElem?_set_self (List.getElem?_eq_some_iff.mp present).1

theorem getElem?_setHandler_of_ne (hij : i ≠ j) :
    (t.setHandler i h').handlers[j]? = t.handlers[j]? :=
  List.getElem?_set_ne hij

/-- A handler of a table in which one was set is that one or was there before. -/
theorem handler_of_setHandler {g : SignalHandler} (present : t.handlers[i]? = some h)
    (hj : (t.setHandler i h').handlers[j]? = some g) :
    j = i ∧ g = h' ∨ j ≠ i ∧ t.handlers[j]? = some g := by
  by_cases hij : j = i
  · subst hij
    rw [getElem?_setHandler present] at hj
    exact .inl ⟨rfl, (Option.some.inj hj).symm⟩
  · rw [getElem?_setHandler_of_ne (Ne.symm hij)] at hj
    exact .inr ⟨hij, hj⟩

/-- A start is granted exactly if nobody is active. -/
theorem start_granted_iff : (t.start i).1 = true ↔ t.active = none ∧ i < t.handlers.length := by
  rw [start]
  split
  · rename_i h hactive hi
    exact ⟨fun _ => ⟨hactive, (List.getElem?_eq_some_iff.mp hi).1⟩, fun _ => rfl⟩
  · rename_i hnot
    constructor
    · intro hfalse
      contradiction
    · rintro ⟨hactive, hlt⟩
      exact absurd (List.getElem?_eq_getElem hlt) (hnot _ hactive)

/-- A start that is refused changes nothing. -/
theorem start_refused (refused : (t.start i).1 = false) : (t.start i).2.1 = t := by
  rw [start] at refused ⊢
  split
  · simp_all
  · rfl

/-- What an act makes of a table. -/
inductive Acted (t : SignalTable) : Act → Fate → SignalTable → Prop
  | started {i : Nat} {h : SignalHandler} (granted : (t.start i).1 = true)
      (idle : t.active = none) (present : t.handlers[i]? = some h) :
      Acted t (.start i) .alive
        { t.setHandler i { h with running := true, previous := t.dispositions } with
          dispositions := .all .caught, active := some i, count := 0 }
  | refused {i : Nat} (refused : (t.start i).1 = false) : Acted t (.start i) .alive t
  | stopped {i : Nat} {h : SignalHandler} (present : t.handlers[i]? = some h)
      (running : h.running = true) :
      Acted t (.stop i) .alive
        { t.setHandler i { h with running := false, stopNotified := true } with
          dispositions := h.previous, active := none }
  | idle {i : Nat} (idle : ∀ h, t.handlers[i]? = some h → h.running = false) :
      Acted t (.stop i) .alive t
  | killed {signal : Signal} (dies : t.dispositions.of signal = .die) :
      Acted t (.raise signal) (.killed signal) t
  | ignored {signal : Signal} (ignored : t.dispositions.of signal = .ignore) :
      Acted t (.raise signal) .alive t
  | forced {signal : Signal} (caught : t.dispositions.of signal = .caught)
      (again : 1 ≤ t.count) :
      Acted t (.raise signal) (.exited forcedExitStatus) { t with count := t.count + 1 }
  | unheard {signal : Signal} (caught : t.dispositions.of signal = .caught)
      (first : t.count = 0) (nobody : ∀ i, t.active = some i → t.handlers[i]? = none) :
      Acted t (.raise signal) .alive { t with count := 1 }
  | caught {signal : Signal} {i : Nat} {h : SignalHandler}
      (caught : t.dispositions.of signal = .caught) (first : t.count = 0)
      (active : t.active = some i) (present : t.handlers[i]? = some h) :
      Acted t (.raise signal) .alive
        { t.setHandler i { h with unread := h.unread ++ [signal] } with count := 1 }
  | read {i : Nat} {failure : Option Bytes} {h : SignalHandler} {signal : Signal}
      {unread : List Signal} (present : t.handlers[i]? = some h) (running : h.running = true)
      (notified : h.stopNotified = false) (reads : h.unread = signal :: unread) :
      Acted t (.attend i failure) .alive
        (t.setHandler i { h with
          unread, received := h.received + 1,
          calls := if h.received = 0 then h.calls ++ [signal] else h.calls })

theorem acted_of_raise (signal : Signal) :
    Acted t (.raise signal) (t.raise signal).1 (t.raise signal).2 := by
  rw [raise]
  split
  · exact .killed ‹_›
  · exact .ignored ‹_›
  · rename_i hcaught
    by_cases hagain : 2 ≤ t.count + 1
    · rw [if_pos hagain]
      exact .forced hcaught (by omega)
    · have hfirst : t.count = 0 := by omega
      rw [if_neg hagain]
      simp only [hfirst, Nat.zero_add]
      split
      · rename_i hnobody
        exact .unheard hcaught hfirst fun i hi => absurd hi (by simp [hnobody])
      · rename_i i hactive
        split
        · rename_i hmissing
          refine .unheard hcaught hfirst fun j hj => ?_
          rwa [← Option.some.inj (hactive.symm.trans hj)]
        · rename_i h hpresent
          exact .caught hcaught hfirst hactive hpresent

theorem acted_of_act? (step : act? (.alive, t) act = some (fate, t')) : Acted t act fate t' := by
  cases act with
  | start i =>
      obtain ⟨rfl, rfl⟩ := Prod.mk.inj (Option.some.inj step)
      cases hgranted : (t.start i).1 with
      | false =>
          rw [start_refused hgranted]
          exact .refused hgranted
      | true =>
          obtain ⟨hidle, hlt⟩ := start_granted_iff.mp hgranted
          have hpresent := List.getElem?_eq_getElem hlt
          have hstart := Acted.started hgranted hidle hpresent
          simpa only [start, hidle, hpresent] using hstart
  | stop i =>
      obtain ⟨rfl, rfl⟩ := Prod.mk.inj (Option.some.inj step)
      rw [stop]
      split
      · rename_i hmissing
        exact .idle fun h hh => absurd hh (by simp [hmissing])
      · rename_i h hpresent
        by_cases hrunning : h.running = true
        · rw [if_pos hrunning]
          exact .stopped hpresent hrunning
        · rw [if_neg hrunning]
          refine .idle fun h' hh' => ?_
          rw [← Option.some.inj (hpresent.symm.trans hh')]
          exact Bool.not_eq_true _ ▸ hrunning
  | raise signal =>
      obtain ⟨rfl, rfl⟩ := Prod.mk.inj (Option.some.inj step)
      exact acted_of_raise signal
  | attend i failure =>
      obtain ⟨⟨next, journal⟩, hattend, hnext⟩ := Option.map_eq_some_iff.mp step
      obtain ⟨rfl, rfl⟩ := Prod.mk.inj hnext
      obtain ⟨h, hpresent, hreads⟩ := Option.bind_eq_some_iff.mp hattend
      split at hreads
      · rename_i hready
        obtain ⟨hrunning, hnotified⟩ := Bool.and_eq_true_iff.mp hready
        have hnotified : h.stopNotified = false := by simpa using hnotified
        split at hreads
        · contradiction
        · rename_i signal unread hunread
          have hread : Acted t (.attend i failure) .alive _ :=
            .read hpresent hrunning hnotified hunread
          by_cases hfirst : h.received = 0
          · rw [if_pos (show h.received + 1 = 1 by omega)] at hreads
            rw [if_pos hfirst] at hread
            exact (Prod.mk.inj (Option.some.inj hreads)).1 ▸ hread
          · rw [if_neg (show h.received + 1 ≠ 1 by omega)] at hreads
            rw [if_neg hfirst] at hread
            exact (Prod.mk.inj (Option.some.inj hreads)).1 ▸ hread
      · contradiction

/-! ## The signals are lent -/

/-- A handler runs exactly while it is the active one, which has all signals and knows what
they did before; without one they do that. -/
structure Lent (before : Dispositions) (n : Nat) (t : SignalTable) : Prop where
  size : t.handlers.length = n
  running : ∀ (j : Nat) (h : SignalHandler), t.handlers[j]? = some h →
    (h.running = true ↔ t.active = some j)
  previous : ∀ (j : Nat) (h : SignalHandler), t.handlers[j]? = some h → h.running = true →
    h.previous = before
  present : ∀ j, t.active = some j → j < n
  dispositions : t.dispositions = if t.active.isSome then .all .caught else before

theorem lent_fresh : Lent before n (fresh before n) where
  size := List.length_replicate
  running := by
    intro j h hj
    obtain rfl := List.eq_of_mem_replicate (List.mem_of_getElem? hj)
    simp [fresh]
  previous := by
    intro j h hj hrunning
    obtain rfl := List.eq_of_mem_replicate (List.mem_of_getElem? hj)
    contradiction
  present := fun j hj => nomatch hj
  dispositions := rfl

namespace Lent

/-- What a handler notes down for itself leaves the signals with whom they are. -/
theorem setHandler (lent : Lent before n t) (present : t.handlers[i]? = some h)
    (running : h'.running = h.running) (previous : h'.previous = h.previous) :
    Lent before n (t.setHandler i h') where
  size := by
    rw [← lent.size]
    exact List.length_set
  running := by
    intro j g hj
    obtain ⟨rfl, rfl⟩ | ⟨-, hj⟩ := handler_of_setHandler present hj
    · rw [running]
      exact lent.running j h present
    · exact lent.running j g hj
  previous := by
    intro j g hj hrunning
    obtain ⟨rfl, rfl⟩ | ⟨-, hj⟩ := handler_of_setHandler present hj
    · rw [previous]
      exact lent.previous j h present (running ▸ hrunning)
    · exact lent.previous j g hj hrunning
  present := lent.present
  dispositions := lent.dispositions

theorem withCount (lent : Lent before n t) (count : Nat) : Lent before n { t with count } :=
  ⟨lent.size, lent.running, lent.previous, lent.present, lent.dispositions⟩

theorem acted (lent : Lent before n t) (acted : Acted t act fate t') : Lent before n t' := by
  cases acted with
  | @started i h _ hidle hpresent =>
      refine ⟨?size, ?running, ?previous, ?present, rfl⟩
      case size =>
        rw [← lent.size]
        exact List.length_set
      case running =>
        intro j g hj
        obtain ⟨rfl, rfl⟩ | ⟨hne, hj⟩ := handler_of_setHandler hpresent hj
        · exact iff_of_true rfl rfl
        · rw [lent.running j g hj, hidle]
          simp [Ne.symm hne]
      case previous =>
        intro j g hj hrunning
        obtain ⟨rfl, rfl⟩ | ⟨-, hj⟩ := handler_of_setHandler hpresent hj
        · show t.dispositions = before
          rw [lent.dispositions, hidle]
          rfl
        · exact lent.previous j g hj hrunning
      case present =>
        rintro j ⟨⟩
        rw [← lent.size]
        exact (List.getElem?_eq_some_iff.mp hpresent).1
  | refused => exact lent
  | @stopped i h hpresent hrunning =>
      have hactive : t.active = some i := (lent.running i h hpresent).mp hrunning
      refine ⟨?size, ?running, ?previous, (fun j hj => nomatch hj), ?dispositions⟩
      case size =>
        rw [← lent.size]
        exact List.length_set
      case running =>
        intro j g hj
        obtain ⟨rfl, rfl⟩ | ⟨hne, hj⟩ := handler_of_setHandler hpresent hj
        · exact iff_of_false Bool.false_ne_true (nomatch ·)
        · rw [lent.running j g hj, hactive]
          simp [Ne.symm hne]
      case previous =>
        intro j g hj hg
        obtain ⟨rfl, rfl⟩ | ⟨-, hj⟩ := handler_of_setHandler hpresent hj
        · contradiction
        · exact lent.previous j g hj hg
      case dispositions => exact lent.previous i h hpresent hrunning
  | idle => exact lent
  | killed => exact lent
  | ignored => exact lent
  | forced => exact lent.withCount _
  | unheard => exact lent.withCount _
  | caught _ _ _ hpresent =>
      apply withCount
      exact lent.setHandler hpresent rfl rfl
  | read hpresent => exact lent.setHandler hpresent rfl rfl

/-- Nobody has the signals exactly if no handler runs. -/
theorem active_eq_none_iff (lent : Lent before n t) :
    t.active = none ↔ ∀ h ∈ t.handlers, h.running = false := by
  constructor
  · intro hnone h hh
    obtain ⟨j, hj⟩ := List.getElem?_of_mem hh
    have := lent.running j h hj
    simpa [hnone] using this
  · intro hidle
    cases hactive : t.active with
    | none => rfl
    | some j =>
        have hlt : j < t.handlers.length := lent.size ▸ lent.present j hactive
        have hrunning := (lent.running j _ (List.getElem?_eq_getElem hlt)).mpr hactive
        rw [hidle _ (List.getElem_mem hlt)] at hrunning
        contradiction

end Lent

/-- Only a process that is alive goes on. -/
theorem alive_of_act? {s s' : Fate × SignalTable} (step : act? s act = some s') :
    s.1 = .alive := by
  obtain ⟨fate, t⟩ := s
  cases fate with
  | alive => rfl
  | _ => cases act <;> contradiction

theorem lent_run (run : Run act? (.alive, fresh before n) past (fate, t)) : Lent before n t := by
  refine run.keeps (P := fun s => Lent before n s.2) ?step lent_fresh
  rintro ⟨fate, t⟩ act ⟨fate', t'⟩ lent step
  obtain rfl : fate = .alive := alive_of_act? step
  exact lent.acted (acted_of_act? step)

theorem Lent.active_acted (lent : Lent before n t) (acted : Acted t act fate t') :
    t'.active = holderAfter t.active ⟨(.alive, t), act, (fate, t')⟩ := by
  cases acted with
  | started granted => exact (if_pos granted).symm
  | refused refused => exact (if_neg (Bool.eq_false_iff.mp refused)).symm
  | @stopped i h hpresent hrunning =>
      have hactive : t.active = some i := (lent.running i h hpresent).mp hrunning
      exact (if_pos hactive).symm
  | @idle i hidle =>
      have hother : t.active ≠ some i := by
        intro hactive
        have hlt : i < t.handlers.length := lent.size ▸ lent.present i hactive
        have hpresent := List.getElem?_eq_getElem hlt
        have hrunning := (lent.running i _ hpresent).mpr hactive
        rw [hidle _ hpresent] at hrunning
        contradiction
      exact (if_neg hother).symm
  | _ => rfl

/-- The active handler is the one the history says. -/
theorem active_eq_holder (run : Run act? (.alive, fresh before n) past (fate, t)) :
    t.active = holder past := by
  generalize hs : (fate, t) = s at run
  induction run generalizing fate t with
  | start =>
      cases hs
      rfl
  | @snoc past now next act run step ih =>
      subst hs
      obtain ⟨fate', t'⟩ := now
      obtain rfl : fate' = .alive := alive_of_act? step
      rw [holder_snoc, ← ih rfl]
      exact (lent_run run).active_acted (acted_of_act? step)

/-- **The signals are only lent.** However the handlers of a process are started and stopped,
and whatever signals come and are read in between: a start is granted exactly if no handler
is active, which is so exactly if none of them runs; a refused start changes nothing; and
whenever no handler is active, the signals do what they did before the first start. -/
theorem dispositions_bracketed (run : Run act? (.alive, fresh before n) past (.alive, t)) :
    (∀ i < n, (t.start i).1 = true ↔ holder past = none) ∧
    (∀ i, (t.start i).1 = false → (t.start i).2.1 = t) ∧
    t.active = holder past ∧
    (holder past = none ↔ ∀ h ∈ t.handlers, h.running = false) ∧
    (holder past = none → t.dispositions = before) := by
  have lent := lent_run run
  have hactive := active_eq_holder run
  rw [← hactive]
  refine ⟨?granted, fun i => start_refused, rfl, lent.active_eq_none_iff, ?restored⟩
  case granted =>
    intro i hi
    rw [start_granted_iff, lent.size]
    exact and_iff_left hi
  case restored =>
    intro hnone
    rw [lent.dispositions, hnone]
    rfl

/-- The second handler is refused while the first one is active, whose second stop does
nothing. -/
theorem dispositions_bracketed_two_handlers :
    ∃ past t, Run act? (.alive, fresh { interrupt := .ignore } 2) past (.alive, t) ∧
      past.map (·.act) = [.start 0, .start 1, .stop 0, .stop 0] ∧
      holder past = none ∧ t.dispositions = { interrupt := .ignore } ∧
      (t.start 1).1 = true := by
  have run : perform? act? (.alive, fresh { interrupt := .ignore } 2)
      [.start 0, .start 1, .stop 0, .stop 0] = some (_, .alive, _) := rfl
  have bracketed := dispositions_bracketed (Run.of_perform? run)
  exact ⟨_, _, Run.of_perform? run, rfl, rfl, bracketed.2.2.2.2 rfl,
    (bracketed.1 1 (by decide)).mpr rfl⟩

/-! ## What a session leaves on its handler -/

theorem started_of_running {count : Nat} (marked : h.Marked count) (running : h.running = true) :
    count ≠ 0 := by
  rintro rfl
  obtain rfl : h = {} := marked
  contradiction

theorem marked_of_running {count : Nat} (started : count ≠ 0) (running : h.running = true) :
    h.Marked count := by
  rw [SignalHandler.Marked, if_neg started]
  exact .inl running

theorem Lent.marked_acted {count : Nat → Nat} (lent : Lent before n t)
    (marked : ∀ (j : Nat) (h : SignalHandler), t.handlers[j]? = some h → h.Marked (count j))
    (acted : Acted t act fate t') (hj : t'.handlers[j]? = some h') :
    h'.Marked (count j + if grants j ⟨(.alive, t), act, (fate, t')⟩ then 1 else 0) := by
  cases acted with
  | @started i h granted _ hpresent =>
      obtain ⟨rfl, rfl⟩ | ⟨hne, hj⟩ := handler_of_setHandler hpresent hj
      · rw [if_pos (by simpa [grants] using granted)]
        exact marked_of_running (Nat.succ_ne_zero _) rfl
      · rw [if_neg (by simp [grants, Ne.symm hne])]
        exact marked j h' hj
  | @refused i refused =>
      have hnot : grants j ⟨(.alive, t), .start i, (.alive, t)⟩ = false := by
        rw [grants, Bool.and_eq_false_iff]
        by_cases hij : i = j
        · exact .inr (hij ▸ refused)
        · exact .inl (by simp [hij])
      rw [hnot]
      exact marked j h' hj
  | stopped hpresent hrunning =>
      obtain ⟨rfl, rfl⟩ | ⟨-, hj⟩ := handler_of_setHandler hpresent hj
      · have hstarted := started_of_running (marked _ _ hpresent) hrunning
        show SignalHandler.Marked (count j) _
        rw [SignalHandler.Marked, if_neg hstarted]
        exact .inr rfl
      · exact marked j h' hj
  | caught _ _ hactive hpresent =>
      obtain ⟨rfl, rfl⟩ | ⟨-, hj⟩ := handler_of_setHandler hpresent hj
      · have hrunning := (lent.running _ _ hpresent).mpr hactive
        exact marked_of_running (started_of_running (marked _ _ hpresent) hrunning) hrunning
      · exact marked j h' hj
  | read hpresent hrunning =>
      obtain ⟨rfl, rfl⟩ | ⟨-, hj⟩ := handler_of_setHandler hpresent hj
      · exact marked_of_running (started_of_running (marked _ _ hpresent) hrunning) hrunning
      · exact marked j h' hj
  | _ => exact marked j h' hj

theorem marked_run (run : Run act? (.alive, fresh before n) past (fate, t))
    (hj : t.handlers[j]? = some h) : h.Marked (sessions j past) := by
  generalize hs : (fate, t) = s at run
  induction run generalizing fate t j h with
  | start =>
      cases hs
      exact List.eq_of_mem_replicate (List.mem_of_getElem? hj)
  | @snoc past now next act run step ih =>
      subst hs
      obtain ⟨fate', t'⟩ := now
      obtain rfl : fate' = .alive := alive_of_act? step
      rw [sessions_snoc]
      exact (lent_run run).marked_acted (fun j h hj => ih hj rfl) (acted_of_act? step) hj

/-! ## One session -/

/-- What a session of the handler at a position has come to, which started from `g` with the
other handlers as in `t₀` and in which some signals were raised. -/
structure Session (i : Nat) (t₀ : SignalTable) (g : SignalHandler) (raised : List Signal)
    (fate : Fate) (t : SignalTable) (h : SignalHandler) : Prop where
  active : t.active = some i
  dispositions : t.dispositions = .all .caught
  present : t.handlers[i]? = some h
  running : h.running = true
  notified : h.stopNotified = g.stopNotified
  others : ∀ j ≠ i, t.handlers[j]? = t₀.handlers[j]?
  counted : t.count = raised.length
  few : raised.length ≤ 2
  fate : fate = if raised.length < 2 then .alive else .exited forcedExitStatus
  deaf : g.stopNotified = true → h.calls = g.calls
  heard : g = { running := true, previous := g.previous } →
    h.calls ++ h.unread = raised.take 1 ∧ h.received = h.calls.length

variable {t₀ : SignalTable} {g : SignalHandler} {signals : List Signal}

theorem session_of_start (granted : (t.start i).1 = true) (present : t.handlers[i]? = some h) :
    Session i t { h with running := true, previous := t.dispositions } [] .alive (t.start i).2.1
      { h with running := true, previous := t.dispositions } := by
  have hidle := (start_granted_iff.mp granted).1
  have hstart : (t.start i).2.1 =
      { t.setHandler i { h with running := true, previous := t.dispositions } with
        dispositions := .all .caught, active := some i, count := 0 } := by
    simp only [start, hidle, present]
  rw [hstart]
  refine ⟨rfl, rfl, getElem?_setHandler present, rfl, rfl, ?others, rfl, Nat.zero_le 2, rfl,
    fun _ => rfl, ?heard⟩
  case others =>
    intro j hj
    exact getElem?_setHandler_of_ne (Ne.symm hj)
  case heard =>
    intro hnew
    have hcalls : h.calls = [] := congrArg SignalHandler.calls hnew
    have hunread : h.unread = [] := congrArg SignalHandler.unread hnew
    have hreceived : h.received = 0 := congrArg SignalHandler.received hnew
    exact ⟨by simp [hcalls, hunread], by simp [hcalls, hreceived]⟩

theorem Session.acted (session : Session i t₀ g signals .alive t h) (lent : Lent before n t)
    (acted : Acted t act fate t') (unstopped : act ≠ .stop i) :
    ∃ h', Session i t₀ g (signals ++ (raisedIn ⟨(.alive, t), act, (fate, t')⟩).toList)
      fate t' h' := by
  have halive : signals.length < 2 := by
    by_contra hmany
    have hfate := session.fate
    rw [if_neg hmany] at hfate
    contradiction
  have hcaught : ∀ signal, t.dispositions.of signal = .caught := by
    intro signal
    rw [session.dispositions]
    cases signal <;> rfl
  cases acted with
  | started _ hidle =>
      rw [session.active] at hidle
      contradiction
  | refused =>
      refine ⟨h, ?_⟩
      simpa [raisedIn] using session
  | @stopped j g' hpresent hrunning =>
      have hactive := (lent.running j g' hpresent).mp hrunning
      rw [session.active] at hactive
      cases hactive
      contradiction
  | idle =>
      refine ⟨h, ?_⟩
      simpa [raisedIn] using session
  | @killed signal hdies =>
      rw [hcaught signal] at hdies
      contradiction
  | @ignored signal hignored =>
      rw [hcaught signal] at hignored
      contradiction
  | @forced signal _ hagain =>
      have hone : signals.length = 1 := by
        rw [session.counted] at hagain
        omega
      obtain ⟨first, rfl⟩ := List.length_eq_one_iff.mp hone
      exact ⟨h, session.active, session.dispositions, session.present, session.running,
        session.notified, session.others, congrArg (· + 1) session.counted, Nat.le_refl 2, rfl,
        session.deaf, session.heard⟩
  | unheard _ _ hnobody =>
      have hmissing := hnobody i session.active
      rw [session.present] at hmissing
      contradiction
  | @caught signal j g' _ hfirst hactive hpresent =>
      rw [session.active] at hactive
      cases hactive
      rw [session.present] at hpresent
      cases hpresent
      obtain rfl : signals = [] := by
        rw [← List.length_eq_zero_iff, ← session.counted]
        exact hfirst
      refine ⟨{ h with unread := h.unread ++ [signal] }, session.active, session.dispositions,
        getElem?_setHandler session.present, session.running, session.notified, ?others, rfl,
        Nat.le_succ 1, rfl, session.deaf, ?heard⟩
      case others =>
        intro j hj
        rw [← session.others j hj]
        exact getElem?_setHandler_of_ne (Ne.symm hj)
      case heard =>
        intro hnew
        obtain ⟨hheard, hreceived⟩ := session.heard hnew
        refine ⟨?_, hreceived⟩
        show h.calls ++ (h.unread ++ [signal]) = [signal]
        rw [← List.append_assoc, hheard]
        rfl
  | @read j _ g' signal unread hpresent hrunning hnotified hreads =>
      have hactive := (lent.running j g' hpresent).mp hrunning
      rw [session.active] at hactive
      cases hactive
      rw [session.present] at hpresent
      cases hpresent
      rw [show raisedIn _ = none from rfl, Option.toList_none, List.append_nil]
      refine ⟨_, session.active, session.dispositions, getElem?_setHandler session.present,
        session.running, session.notified, ?others, session.counted, session.few, session.fate,
        ?deaf, ?heard⟩
      case others =>
        intro j hj
        rw [← session.others j hj]
        exact getElem?_setHandler_of_ne (Ne.symm hj)
      case deaf =>
        intro hdeaf
        rw [← session.notified, hnotified] at hdeaf
        contradiction
      case heard =>
        intro hnew
        obtain ⟨hheard, hreceived⟩ := session.heard hnew
        -- one signal at most was raised, so this is the first that is read
        have hnone : h.calls = [] := by
          have hlength := congrArg List.length hheard
          rw [hreads, List.length_append, List.length_cons, List.length_take] at hlength
          exact List.length_eq_zero_iff.mp (by omega)
        rw [hreads, hnone, List.nil_append] at hheard
        have hzero : h.received = 0 := by rw [hreceived, hnone, List.length_nil]
        show (if h.received = 0 then h.calls ++ [signal] else h.calls) ++ unread = _ ∧
          h.received + 1 = (if h.received = 0 then h.calls ++ [signal] else h.calls).length
        rw [if_pos hzero, hnone, hzero]
        exact ⟨hheard, rfl⟩

theorem session_run {now : Fate × SignalTable} (granted : (t.start i).1 = true)
    (lent : Lent before n t) (present : t.handlers[i]? = some h)
    (run : Run act? (.alive, (t.start i).2.1) during now)
    (unstopped : ∀ m ∈ during, m.act ≠ .stop i) :
    Lent before n now.2 ∧
    ∃ h', Session i t { h with running := true, previous := t.dispositions } (raised during)
      now.1 now.2 h' := by
  induction run with
  | start =>
      have step : act? (.alive, t) (.start i) = some (.alive, (t.start i).2.1) := rfl
      exact ⟨lent.acted (acted_of_act? step), _, session_of_start granted present⟩
  | @snoc during now next act run step ih =>
      obtain ⟨lent, h', session⟩ := ih fun m hm => unstopped m (List.mem_append_left _ hm)
      obtain ⟨fate, t'⟩ := now
      obtain rfl : fate = .alive := alive_of_act? step
      have acted := acted_of_act? step
      rw [raised_snoc]
      exact ⟨lent.acted acted, session.acted lent acted (unstopped _ List.mem_concat_self)⟩

/-- A thread that was told to stop, or has read everything, finds nothing to read. -/
theorem unread_eq_nil_of_attend? {failure : Option Bytes} (present : t.handlers[i]? = some h)
    (running : h.running = true) (notified : h.stopNotified = false)
    (quiet : t.attend? failure i = none) : h.unread = [] := by
  cases hunread : h.unread with
  | nil => rfl
  | cons signal unread =>
      simp only [attend?, present, Option.bind_eq_bind, Option.bind_some, running, notified,
        hunread] at quiet
      rw [if_pos (by rfl)] at quiet
      split at quiet <;> contradiction

/-- **The first signal of a first session is passed on once.** In whatever way the handlers of
a process were started and stopped and signals came before, from a start that is granted and
as long as that handler is not stopped: the second signal ends the process with status 2, and
nothing else ends it; the other handlers are left alone. If it is the first session of the
handler, its callback is called for the first signal and for no other one, at the latest when
its thread has nothing left to read. In a later session its callback is not called. -/
theorem first_session_calls_once (run : Run act? (.alive, fresh before n) past (.alive, t))
    (granted : (t.start i).1 = true)
    (session : Run act? (.alive, (t.start i).2.1) during (fate, t'))
    (unstopped : ∀ m ∈ during, m.act ≠ .stop i) :
    (raised during).length ≤ 2 ∧
    fate = (if (raised during).length < 2 then .alive else .exited forcedExitStatus) ∧
    (∀ j ≠ i, t'.handlers[j]? = t.handlers[j]?) ∧
    ∃ h h', t.handlers[i]? = some h ∧ t'.handlers[i]? = some h' ∧
      (sessions i past = 0 →
        h.calls = [] ∧ h'.calls <+: (raised during).take 1 ∧
        ∀ failure, t'.attend? failure i = none → h'.calls = (raised during).take 1) ∧
      (sessions i past ≠ 0 → h'.calls = h.calls) := by
  obtain ⟨hidle, hlt⟩ := start_granted_iff.mp granted
  have lent := lent_run run
  have hpresent := List.getElem?_eq_getElem hlt
  have hmarked : t.handlers[i].Marked (sessions i past) := marked_run run hpresent
  obtain ⟨-, h', hsession⟩ := session_run granted lent hpresent session unstopped
  refine ⟨hsession.few, hsession.fate, hsession.others, _, h', hpresent, hsession.present,
    ?first, ?later⟩
  case first =>
    intro hfirst
    have hnew : t.handlers[i] = {} := by rwa [SignalHandler.Marked, if_pos hfirst] at hmarked
    rw [hnew] at hsession ⊢
    obtain ⟨hheard, -⟩ := hsession.heard rfl
    refine ⟨rfl, ⟨h'.unread, hheard⟩, fun failure quiet => ?_⟩
    have hunread := unread_eq_nil_of_attend? hsession.present hsession.running
      hsession.notified quiet
    rwa [hunread, List.append_nil] at hheard
  case later =>
    intro hlater
    rw [SignalHandler.Marked, if_neg hlater] at hmarked
    have hidle' : ¬t.handlers[i].running = true := by
      rw [lent.running i _ hpresent, hidle]
      exact nofun
    exact hsession.deaf (hmarked.resolve_left hidle')

/-- The second handler's first session, after one of the first handler: its callback is called
for the signal, and would not be called for a second one. -/
theorem first_session_calls_once_interrupted :
    ∃ past during t t', Run act? (.alive, fresh {} 2) past (.alive, t) ∧
      Run act? (.alive, (t.start 1).2.1) during (.alive, t') ∧
      past.map (·.act) = [.start 0, .stop 0] ∧
      during.map (·.act) = [.raise .interrupt, .attend 1 none] ∧
      ∃ h, t'.handlers[1]? = some h ∧ h.calls = [.interrupt] := by
  let t : SignalTable := { handlers := [{ stopNotified := true }, {}] }
  have run : perform? act? (.alive, fresh {} 2) [.start 0, .stop 0] = some (_, .alive, t) := rfl
  have session : perform? act? (.alive, (t.start 1).2.1) [.raise .interrupt, .attend 1 none] =
      some (_, .alive, _) := rfl
  obtain ⟨-, -, -, h, h', -, hpresent, hfirst, -⟩ :=
    first_session_calls_once (i := 1) (Run.of_perform? run) rfl (Run.of_perform? session)
      (by decide)
  exact ⟨_, _, _, _, Run.of_perform? run, Run.of_perform? session, rfl, rfl, h', hpresent,
    (hfirst rfl).2.2 none rfl⟩

/-- **A handler that is started again hears nothing.** The second start of one handler is
granted, the signal that comes then is caught, and the handler's thread, which was told to stop
at the end of the first session, does not read it: the callback is never called. -/
theorem second_session_hears_nothing :
    ∃ past during t t', Run act? (.alive, fresh {} 1) past (.alive, t) ∧
      (t.start 0).1 = true ∧
      Run act? (.alive, (t.start 0).2.1) during (.alive, t') ∧
      past.map (·.act) = [.start 0, .stop 0] ∧ during.map (·.act) = [.raise .terminate] ∧
      (∀ failure, t'.attend? failure 0 = none) ∧
      ∃ h, t'.handlers[0]? = some h ∧ h.calls = [] := by
  let t : SignalTable := { handlers := [{ stopNotified := true }] }
  have run : perform? act? (.alive, fresh {} 1) [.start 0, .stop 0] = some (_, .alive, t) := rfl
  have session : perform? act? (.alive, (t.start 0).2.1) [.raise .terminate] =
      some (_, .alive, _) := rfl
  exact ⟨_, _, _, _, Run.of_perform? run, rfl, Run.of_perform? session, rfl, rfl, fun _ => rfl,
    _, rfl, rfl⟩

end SignalTable

end SearchDaemon
