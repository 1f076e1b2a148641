import Mathlib.Data.List.Perm.Basic
import SearchDaemon.Proofs.Answering

/-!
# What the monitor has been told

Handlers report the end of their clients and workers report their own, and the monitor
takes the reports in order. `Ledger` is the invariant: the reports it has taken and those
that still wait are together one for every handler that has ended and for every worker that
is past its fault, and the monitor's counters and its list of clients follow from those it
has taken.
-/

namespace SearchDaemon

/-- The worker has met a fault and told so. -/
def Worker.hasReported (w : Worker) : Bool :=
  w.dead && match w.phase with
    | .failing _ | .reporting => false
    | _ => true

/-- The clients that are reported gone, with the requests they made. -/
def departures (events : List Event) : List (Nat × Nat) :=
  events.filterMap fun
    | .disconnected client requests => some (client, requests)
    | .workerDied _ => none

/-- The workers that are reported dead. -/
def deaths (events : List Event) : List Nat :=
  events.filterMap fun
    | .disconnected .. => none
    | .workerDied worker => some worker

theorem departures_append (events more : List Event) :
    departures (events ++ more) = departures events ++ departures more :=
  List.filterMap_append

theorem deaths_append (events more : List Event) :
    deaths (events ++ more) = deaths events ++ deaths more :=
  List.filterMap_append

namespace Service

/-- The clients whose handlers have ended, with the requests they forwarded. -/
def gone (handlers : List Handler) : List (Nat × Nat) :=
  ((handlers.mapIdx fun k h => (k + 1, h)).filter (·.2.phase = .ended)).map
    fun entry => (entry.1, entry.2.forwarded)

/-- The workers that have told of their fault. -/
def fallen (workers : List Worker) : List Nat := (workers.filter (·.hasReported)).map (·.index)

variable {process : Processing} {s s' : Service} {act : Act}
  {past : List (Moment Service Act)} {k i : Nat} {h h' : Handler} {c c' : Connection}
  {w w' : Worker} {heard told : List Event}

/-! ## Those that have ended -/

/-- A change at a position takes one item away and adds another. -/
theorem set_perm {α : Type} {l : List α} {a : α} (found : l[i]? = some a) (b : α) :
    (a :: l.set i b).Perm (b :: l) := by
  obtain ⟨hlt, rfl⟩ := List.getElem?_eq_some_iff.mp found
  refine ((List.set_perm_cons_eraseIdx hlt b).cons _).trans ?_
  refine (List.Perm.swap _ _ _).trans ?_
  exact (List.getElem_cons_eraseIdx_perm hlt).cons b

theorem mem_gone {handlers : List Handler} {client requests : Nat} :
    (client, requests) ∈ gone handlers ↔
      ∃ k h, client = k + 1 ∧ handlers[k]? = some h ∧ h.phase = .ended ∧
        h.forwarded = requests := by
  constructor
  · intro hmem
    obtain ⟨entry, hentry, heq⟩ := List.mem_map.mp hmem
    obtain ⟨hat, hended⟩ := List.mem_filter.mp hentry
    obtain ⟨k, hk⟩ := List.mem_iff_getElem?.mp hat
    rw [List.getElem?_mapIdx] at hk
    obtain ⟨h, hh, rfl⟩ := Option.map_eq_some_iff.mp hk
    cases heq
    exact ⟨k, h, rfl, hh, of_decide_eq_true hended, rfl⟩
  · rintro ⟨k, h, rfl, hh, hended, rfl⟩
    refine List.mem_map.mpr ⟨(k + 1, h), List.mem_filter.mpr ⟨?_, decide_eq_true hended⟩, rfl⟩
    apply List.mem_iff_getElem?.mpr
    refine ⟨k, ?_⟩
    rw [List.getElem?_mapIdx, hh]
    rfl

/-- Somebody who has just come is not gone. -/
theorem gone_append {handlers : List Handler} (going : h.phase ≠ .ended) :
    gone (handlers ++ [h]) = gone handlers := by
  rw [gone, List.mapIdx_concat, List.filter_append, List.map_append]
  simp [gone, going]

theorem gone_set {handlers : List Handler} (hh : handlers[k]? = some h)
    (going : h.phase ≠ .ended) :
    (gone (handlers.set k h')).Perm
      (gone handlers ++ if h'.phase = .ended then [(k + 1, h'.forwarded)] else []) := by
  have hentry : (handlers.mapIdx fun k h => (k + 1, h))[k]? = some (k + 1, h) := by
    rw [List.getElem?_mapIdx, hh]
    rfl
  have hperm := ((set_perm hentry (k + 1, h')).filter (·.2.phase = .ended)).map
    fun entry => (entry.1, entry.2.forwarded)
  rw [← List.mapIdx_set (f := fun k h => (k + 1, h))] at hperm
  rw [List.filter_cons_of_neg (by simpa using going)] at hperm
  by_cases hended : h'.phase = .ended
  · rw [List.filter_cons_of_pos (by simpa using hended), List.map_cons] at hperm
    rw [if_pos hended]
    exact hperm.trans (List.perm_append_singleton _ _).symm
  · rw [List.filter_cons_of_neg (by simpa using hended)] at hperm
    rw [if_neg hended, List.append_nil]
    exact hperm

theorem fallen_singleton : fallen [w] = if w.hasReported then [w.index] else [] := by
  cases hreported : w.hasReported <;> simp [fallen, hreported]

theorem fallen_set {workers : List Worker} (hw : workers[i]? = some w) {more : List Nat}
    (tells : fallen [w'] = fallen [w] ++ more) :
    (fallen (workers.set i w')).Perm (fallen workers ++ more) := by
  have hsplit (u : Worker) (us : List Worker) : fallen (u :: us) = fallen [u] ++ fallen us := by
    rw [fallen, fallen, fallen, ← List.map_append, ← List.filter_append, List.singleton_append]
  have hperm := ((set_perm hw w').filter (·.hasReported)).map (·.index)
  have hperm' : (fallen [w] ++ fallen (workers.set i w')).Perm
      (fallen [w] ++ (more ++ fallen workers)) := by
    rw [← List.append_assoc, ← tells, ← hsplit, ← hsplit]
    exact hperm
  exact ((List.perm_append_left_iff _).mp hperm').trans List.perm_append_comm

/-! ## Who reports what -/

/-- A handler that nobody has stopped reports the end of its client, and ends by it. -/
theorem Handled.tells {tickets : List Ticket} (step : Handled s k h c h' c' tickets told)
    (isOpen : s.events.closed = false) (going : h.phase ≠ .joining .stopped) :
    h.phase ≠ .ended ∧
      told = if h'.phase = .ended then [.disconnected c.client h'.forwarded] else [] := by
  cases step with
  | reports hphase =>
      rw [hphase]
      exact ⟨nofun, rfl⟩
  | leaves hphase => exact absurd hphase going
  | unheard _ hclosed =>
      rw [isOpen] at hclosed
      contradiction
  | stops hphase | runsDry hphase | readsOn hphase | finds hphase | rejects hphase
  | objects hphase | forwards hphase | turnedAway hphase | finishes hphase | joins hphase =>
      rw [hphase]
      exact ⟨nofun, rfl⟩

/-- A worker reports its fault, once. -/
theorem Worked.tells {cs : List Connection} {offers done : List Ticket}
    (step : Worked process s w w' cs told) (served : Served process s w offers done)
    (isOpen : s.events.closed = false) :
    departures told = [] ∧ fallen [w'] = fallen [w] ++ deaths told := by
  rw [fallen_singleton, fallen_singleton]
  cases step with
  | faults hphase =>
      cases served with
      | alive halive => simp [departures, deaths, Worker.hasReported, halive]
      | dead _ hdying => simp [hphase, Worker.Phase.isDying] at hdying
  | reports hphase =>
      cases served with
      | alive _ hheld => simp [hphase, Worker.Phase.held] at hheld
      | dead hdead => simp [departures, deaths, Worker.hasReported, hphase, hdead]
  | unheard _ hclosed =>
      rw [isOpen] at hclosed
      contradiction
  | takes hphase | leaves hphase | answers hphase | delivers hphase | cutsOff hphase
  | closes hphase | drains hphase | ends hphase =>
      simp [departures, deaths, Worker.hasReported, hphase]

/-- The scheduler brings no worker to report. -/
theorem Dealt.fallen (dealt : Dealt s s') : (fallen s'.workers).Perm (fallen s.workers) := by
  have hset {n : Nat} {u : Worker} {queue : Channel Ticket} (hu : s.workers[n]? = some u) :
      (Service.fallen (s.workers.set n { u with queue })).Perm (Service.fallen s.workers) := by
    have htells : Service.fallen [{ u with queue }] = Service.fallen [u] ++ [] := by
      rw [List.append_nil, fallen_singleton, fallen_singleton]
      rfl
    have hsame := fallen_set hu htells
    rwa [List.append_nil] at hsame
  cases dealt with
  | sends _ hu => exact hset hu
  | closes _ hu => exact hset hu
  | _ => exact List.Perm.refl _

/-- As long as nobody stops the service no handler leaves without a report. -/
theorem Attends.not_stopped (attends : Attends process k past s h c) (quiet : s.Undisturbed) :
    h.phase ≠ .joining .stopped := by
  intro hphase
  obtain ⟨causes, requests, hreads⟩ := attends.reads
  obtain ⟨read, rest, -, -, hstands⟩ := hreads.stands
  have hleft : h.phase.IsPast .stopped := by
    rw [hphase]
    rfl
  obtain ⟨cause, -, hpast, hover⟩ := hstands.of_past hleft
  rw [hphase] at hpast
  cases hover with
  | stopped htold =>
      rw [attends.busy.2] at htold
      contradiction
  | turnedAway hclosed =>
      rw [quiet.inbound] at hclosed
      contradiction
  | _ => contradiction

/-! ## The ledger -/

/-- What the monitor has counted when it has taken these reports, and which reports there
are. -/
structure Ledger (heard : List Event) (s : Service) : Prop where
  isOpen : s.events.closed = false
  phase : s.monitor.phase = .receiving ∨
    ∃ client, s.monitor.phase = .joining client ∧ client ∈ (departures heard).map Prod.fst
  accepted : s.monitor.accepted = s.handlers.length
  registered : s.monitor.registered = (List.range' 1 s.handlers.length).filter
    (· ∉ (departures heard).map Prod.fst)
  disconnected : s.monitor.disconnected = (departures heard).length
  requests : s.monitor.requestsFromDisconnected = total ((departures heard).map Prod.snd)
  deadWorkers : s.monitor.deadWorkers = (deaths heard).length
  departed : (departures (heard ++ s.events.items)).Perm (gone s.handlers)
  died : (deaths (heard ++ s.events.items)).Perm (fallen s.workers)

theorem ledger_launch (n inbound queue : Nat) : Ledger [] (launch n inbound queue) := by
  have hnone : fallen (crew n queue) = [] := by
    rw [fallen, List.map_eq_nil_iff, List.filter_eq_nil_iff]
    intro w hw
    obtain ⟨j, -, rfl⟩ := List.mem_map.mp hw
    exact Bool.false_ne_true
  rw [launch_eq]
  refine ⟨rfl, Or.inl rfl, rfl, rfl, rfl, rfl, rfl, List.Perm.refl _, ?_⟩
  show (deaths []).Perm (fallen (crew n queue))
  rw [hnone]
  exact List.Perm.refl _

/-- Where neither reports nor the monitor nor those that report have changed. -/
theorem Ledger.same (ledger : Ledger heard s) (events : s'.events = s.events)
    (monitor : s'.monitor = s.monitor) (handlers : s'.handlers = s.handlers)
    (workers : (fallen s'.workers).Perm (fallen s.workers)) : Ledger heard s' where
  isOpen := by rw [events, ledger.isOpen]
  phase := by
    rw [monitor]
    exact ledger.phase
  accepted := by rw [monitor, handlers, ledger.accepted]
  registered := by rw [monitor, handlers, ledger.registered]
  disconnected := by rw [monitor, ledger.disconnected]
  requests := by rw [monitor, ledger.requests]
  deadWorkers := by rw [monitor, ledger.deadWorkers]
  departed := by
    rw [events, handlers]
    exact ledger.departed
  died := by
    rw [events]
    exact ledger.died.trans workers.symm

/-- Only clients that were there are reported. -/
theorem Ledger.known (ledger : Ledger heard s) {client : Nat}
    (reported : client ∈ (departures heard).map Prod.fst) : client ≤ s.handlers.length := by
  obtain ⟨⟨client, requests⟩, hmem, rfl⟩ := List.mem_map.mp reported
  have hgone : (client, requests) ∈ gone s.handlers := by
    apply ledger.departed.subset
    rw [departures_append]
    exact List.mem_append_left _ hmem
  obtain ⟨k, h, rfl, hh, -, -⟩ := mem_gone.mp hgone
  exact (List.getElem?_eq_some_iff.mp hh).1

/-- The handler of a client that is reported has ended. -/
theorem Ledger.handler_ended (ledger : Ledger heard s) {client : Nat}
    (reported : client ∈ (departures heard).map Prod.fst) : s.handlerEnded client = true := by
  obtain ⟨⟨client, requests⟩, hmem, rfl⟩ := List.mem_map.mp reported
  have hgone : (client, requests) ∈ gone s.handlers := by
    apply ledger.departed.subset
    rw [departures_append]
    exact List.mem_append_left _ hmem
  obtain ⟨k, h, rfl, hh, hended, -⟩ := mem_gone.mp hgone
  rw [handlerEnded, Nat.add_sub_cancel, hh]
  simpa using hended

/-- Somebody connects. -/
theorem Ledger.accept (ledger : Ledger heard s)
    (paired : s.handlers.length = s.connections.length) (capacity : Option Nat) :
    Ledger heard (s.accept capacity).1 := by
  obtain ⟨hhandlers, -⟩ := accept_appends paired capacity
  obtain ⟨-, -, hevents, hworkers, -⟩ :=
    (s.welcomed capacity).startHandler_same s.connections.length
  have hmonitor : (s.accept capacity).1.monitor = (s.welcomed capacity).monitor := by
    rw [accept_eq]
    rcases (s.welcomed capacity).startHandler_cases s.connections.length with
      heq | ⟨_, _, -, -, heq⟩
    · rw [heq]
    · rw [heq]
      rfl
  rw [← accept_eq] at hevents hworkers
  have hsize : (s.accept capacity).1.handlers.length = s.handlers.length + 1 := by
    rw [hhandlers, List.length_append]
    rfl
  have hnew : s.handlers.length + 1 ∉ (departures heard).map Prod.fst := by
    intro hmem
    exact absurd (ledger.known hmem) (Nat.not_succ_le_self _)
  exact
    { isOpen := by
        rw [hevents]
        exact ledger.isOpen
      phase := by
        rw [hmonitor]
        exact ledger.phase
      accepted := by
        rw [hmonitor, hsize]
        exact congrArg (· + 1) ledger.accepted
      registered := by
        rw [hmonitor, hsize, List.range'_1_concat, List.filter_append]
        show s.monitor.registered ++ [s.connections.length + 1] = _
        rw [ledger.registered, ← paired, Nat.add_comm 1,
          List.filter_cons_of_pos (by simpa using hnew)]
        rfl
      disconnected := by
        rw [hmonitor]
        exact ledger.disconnected
      requests := by
        rw [hmonitor]
        exact ledger.requests
      deadWorkers := by
        rw [hmonitor]
        exact ledger.deadWorkers
      departed := by
        rw [hevents, hhandlers, gone_append (h := { phase := .reading Frame.Reader.start }) nofun]
        exact ledger.departed
      died := by
        rw [hevents, hworkers]
        exact ledger.died }

/-- The monitor takes a report or gets on. -/
theorem Ledger.monitor (ledger : Ledger heard s) (step : Heard s s') :
    ∃ heard', Ledger heard' s' := by
  cases step with
  | @left client requests rest hphase hitems =>
      refine ⟨heard ++ [.disconnected client requests], ?_⟩
      have hdepartures : departures (heard ++ [.disconnected client requests]) =
          departures heard ++ [(client, requests)] := departures_append _ _
      have hdeaths : deaths (heard ++ [.disconnected client requests]) = deaths heard := by
        rw [deaths_append]
        exact List.append_nil _
      have hwhole : heard ++ [.disconnected client requests] ++ rest = heard ++ s.events.items := by
        rw [hitems, List.append_assoc, List.singleton_append]
      exact
        { isOpen := ledger.isOpen
          phase := by
            by_cases hmem : client ∈ s.monitor.registered
            · right
              refine ⟨client, if_pos hmem, ?_⟩
              rw [hdepartures, List.map_append]
              exact List.mem_append_right _ (List.mem_singleton_self _)
            · exact Or.inl (if_neg hmem)
          accepted := ledger.accepted
          registered := by
            show s.monitor.registered.filter (· ≠ client) = _
            rw [ledger.registered, List.filter_filter, hdepartures, List.map_append]
            apply List.filter_congr
            intro other _
            rw [← Bool.decide_and]
            apply decide_eq_decide.mpr
            show _ ↔ other ∉ (departures heard).map Prod.fst ++ [client]
            rw [List.mem_append, List.mem_singleton, not_or, and_comm]
          disconnected := by
            rw [hdepartures, List.length_append]
            exact congrArg (· + 1) ledger.disconnected
          requests := by
            rw [hdepartures, List.map_append, total_append]
            exact congrArg (· + requests) ledger.requests
          deadWorkers := by
            rw [hdeaths]
            exact ledger.deadWorkers
          departed := by
            rw [hwhole]
            exact ledger.departed
          died := by
            rw [hwhole]
            exact ledger.died }
  | @died worker rest hphase hitems =>
      refine ⟨heard ++ [.workerDied worker], ?_⟩
      have hdepartures : departures (heard ++ [.workerDied worker]) = departures heard := by
        rw [departures_append]
        exact List.append_nil _
      have hdeaths : deaths (heard ++ [.workerDied worker]) = deaths heard ++ [worker] :=
        deaths_append _ _
      have hwhole : heard ++ [.workerDied worker] ++ rest = heard ++ s.events.items := by
        rw [hitems, List.append_assoc, List.singleton_append]
      exact
        { isOpen := ledger.isOpen
          phase := Or.inl hphase
          accepted := ledger.accepted
          registered := by
            rw [hdepartures]
            exact ledger.registered
          disconnected := by
            rw [hdepartures]
            exact ledger.disconnected
          requests := by
            rw [hdepartures]
            exact ledger.requests
          deadWorkers := by
            rw [hdeaths, List.length_append]
            exact congrArg (· + 1) ledger.deadWorkers
          departed := by
            rw [hwhole]
            exact ledger.departed
          died := by
            rw [hwhole]
            exact ledger.died }
  | ends _ _ hclosed =>
      rw [ledger.isOpen] at hclosed
      contradiction
  | joins =>
      exact ⟨heard, ledger.isOpen, Or.inl rfl, ledger.accepted, ledger.registered,
        ledger.disconnected, ledger.requests, ledger.deadWorkers, ledger.departed, ledger.died⟩

/-- A worker does something. -/
theorem Ledger.worker {cs : List Connection} (ledger : Ledger heard s)
    (hw : s.workers[i]? = some w) (departs : departures told = [])
    (tells : fallen [w'] = fallen [w] ++ deaths told) :
    Ledger heard (s.afterWorker i w' cs told) where
  isOpen := ledger.isOpen
  phase := ledger.phase
  accepted := ledger.accepted
  registered := ledger.registered
  disconnected := ledger.disconnected
  requests := ledger.requests
  deadWorkers := ledger.deadWorkers
  departed := by
    show (departures (heard ++ (s.events.items ++ told))).Perm (gone s.handlers)
    rw [← List.append_assoc, departures_append, departs, List.append_nil]
    exact ledger.departed
  died := by
    show (deaths (heard ++ (s.events.items ++ told))).Perm (fallen (s.workers.set i w'))
    rw [← List.append_assoc, deaths_append]
    exact (ledger.died.append_right _).trans (fallen_set hw tells).symm

/-- A handler does something. -/
theorem Ledger.handler {tickets : List Ticket} (ledger : Ledger heard s)
    (hh : s.handlers[k]? = some h) (named : c.client = k + 1) (going : h.phase ≠ .ended)
    (tells : told = if h'.phase = .ended then [.disconnected c.client h'.forwarded] else []) :
    Ledger heard (s.afterHandler k h' c' tickets told) where
  isOpen := ledger.isOpen
  phase := ledger.phase
  accepted := by
    rw [afterHandler, List.length_set]
    exact ledger.accepted
  registered := by
    rw [afterHandler, List.length_set]
    exact ledger.registered
  disconnected := ledger.disconnected
  requests := ledger.requests
  deadWorkers := ledger.deadWorkers
  departed := by
    show (departures (heard ++ (s.events.items ++ told))).Perm (gone (s.handlers.set k h'))
    have htold : departures told = if h'.phase = .ended then [(k + 1, h'.forwarded)] else [] := by
      rw [tells, named]
      split <;> rfl
    rw [← List.append_assoc, departures_append, htold]
    exact (ledger.departed.append_right _).trans (gone_set hh going).symm
  died := by
    show (deaths (heard ++ (s.events.items ++ told))).Perm (fallen s.workers)
    have htold : deaths told = [] := by
      rw [tells]
      split <;> rfl
    rw [← List.append_assoc, deaths_append, htold, List.append_nil]
    exact ledger.died

/-- **The monitor's books agree with what has happened.** Along every run of a service that
nobody stops there is one report for every handler that has ended and for every worker that
is past its fault; and what the monitor has counted, and the clients on its list, follow
from the reports it has taken. -/
theorem ledger_run {n inbound queue : Nat}
    (run : Run (act? process) (launch n inbound queue) past s)
    (ordinary : ∀ m ∈ past, m.act.isOrdinary = true) : ∃ heard, Ledger heard s := by
  induction run with
  | start => exact ⟨[], ledger_launch n inbound queue⟩
  | @snoc past now next act run step ih =>
      have hpast : ∀ m ∈ past, m.act.isOrdinary = true :=
        fun m hm => ordinary m (List.mem_append_left _ hm)
      have hact : act.isOrdinary = true :=
        ordinary _ (List.mem_append_right _ (List.mem_singleton_self _))
      obtain ⟨heard, ledger⟩ := ih hpast
      have tended := tended_run run hpast
      cases act with
      | accept capacity =>
          cases step
          exact ⟨heard, ledger.accept tended.quiet.paired capacity⟩
      | step thread =>
          cases stepped_of_act? step with
          | monitor =>
              obtain ⟨⟨after, journal⟩, hstep, hafter⟩ := Option.map_eq_some_iff.mp step
              rw [← hafter]
              exact ledger.monitor (heard_of_monitorStep? hstep)
          | writer => exact ⟨heard, ledger.same rfl rfl rfl (List.Perm.refl _)⟩
          | worker hw hworked =>
              obtain ⟨hdeparts, htells⟩ :=
                hworked.tells ((deals_run run).served _ _ hw) ledger.isOpen
              exact ⟨heard, ledger.worker hw hdeparts htells⟩
          | scheduler hdealt =>
              refine ⟨heard, ?_⟩
              have hfallen := hdealt.fallen
              cases hdealt <;> exact ledger.same rfl rfl rfl hfallen
          | handler hh hc hhandled =>
              have attends := tended.attends _ _ _ hh hc
              obtain ⟨hgoing, htells⟩ :=
                hhandled.tells ledger.isOpen (attends.not_stopped tended.quiet)
              exact ⟨heard, ledger.handler hh attends.named hgoing htells⟩
      | clientWrites | clientFinishes | clientReads | clientCloses =>
          cases step
          exact ⟨heard, ledger.same rfl rfl rfl (List.Perm.refl _)⟩
      | _ => contradiction

end Service

end SearchDaemon
