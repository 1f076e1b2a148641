import Mathlib
import SearchDaemon.Proofs.Draining
import SearchDaemon.Proofs.Monitoring
import SearchDaemon.Proofs.Starting

/-!
# The daemon's counters

Handlers, scheduler, workers and the monitor each keep counters of their own. Along a run
each of them is tied to what has happened: a request forwarded has entered the inbound
channel, a ticket dispatched is with one of the workers, was answered or killed its worker,
or was given up. Once scheduler, workers and monitor can do nothing there is nothing
in between, and the counters agree with each other, whatever the clients keep waiting.
-/

namespace SearchDaemon

/-- How many tickets a worker has taken from its queue and neither answered nor died of. -/
def Worker.Phase.inHand : Worker.Phase → Nat
  | .processing _ | .delivering .. => 1
  | _ => 0

/-- The tickets that have gone to a worker, but for those it has given up. -/
def Worker.load (w : Worker) : Nat :=
  w.processed + w.queue.items.length + w.phase.inHand + if w.dead then 1 else 0

/-- The ticket that a dying worker gives up next. -/
def Worker.drained (w : Worker) : List Ticket :=
  if w.phase = .draining then w.queue.items.take 1 else []

namespace Service

/-! ## Observations -/

/-- The number that a client gets who connects. -/
def handedOutIn (m : Moment Service Act) : List Nat :=
  match m.act with
  | .accept _ => (m.after.connections.drop m.before.connections.length).map (·.client)
  | _ => []

/-- The ticket that a dead worker's queue refuses because it is closed. -/
def refusedIn (m : Moment Service Act) : List Ticket :=
  ((offeredIn m).filter fun offer =>
    (m.before.workers[offer.1]?).any fun w => w.dead && w.queue.closed).map Prod.snd

/-- The ticket that is found stranded in the queue of a dying worker. -/
def strandedIn (m : Moment Service Act) : List Ticket :=
  match m.act with
  | .step (.worker i) =>
      match m.before.workers[i]? with
      | some w => w.drained
      | none => []
  | _ => []

/-- The numbers of the clients, as they were handed out. -/
def handedOut (past : List (Moment Service Act)) : List Nat := past.flatMap handedOutIn

def refused (past : List (Moment Service Act)) : List Ticket := past.flatMap refusedIn

def stranded (past : List (Moment Service Act)) : List Ticket := past.flatMap strandedIn

/-- How many requests the handler of a client has forwarded. -/
def forwardedBy (past : List (Moment Service Act)) (client : Nat) : Nat :=
  (putBy (client - 1) past).length

variable {process : Processing} {s s' : Service} {act : Act}
  {past : List (Moment Service Act)} {m : Moment Service Act} {k i n : Nat} {h h' : Handler}
  {c c' : Connection} {w w' : Worker}

theorem handedOut_snoc : handedOut (past ++ [m]) = handedOut past ++ handedOutIn m := by
  simp [handedOut]

theorem refused_snoc : refused (past ++ [m]) = refused past ++ refusedIn m := by
  simp [refused]

theorem stranded_snoc : stranded (past ++ [m]) = stranded past ++ strandedIn m := by
  simp [stranded]

/-! ## The pool -/

/-- What a worker does to its load. -/
theorem Worked.load {cs : List Connection} {told : List Event} {offers done : List Ticket}
    (step : Worked process s w w' cs told) (served : Served process s w offers done) :
    w'.load + w.drained.length = w.load := by
  unfold Worker.load Worker.drained
  cases step with
  | takes hphase hitems =>
      rw [hphase, hitems]
      simp only [Worker.Phase.inHand, List.length_cons, reduceCtorEq, if_false, List.length_nil]
      omega
  | faults hphase =>
      have halive : w.dead = false := by
        cases served with
        | alive halive => exact halive
        | dead _ hdying => simp [hphase, Worker.Phase.isDying] at hdying
      rw [hphase, halive]
      simp [Worker.Phase.inHand]
  | drains hphase hitems =>
      rw [hphase, hitems]
      simp only [Worker.Phase.inHand, List.length_cons, if_true, List.take_succ_cons,
        List.take_zero, List.length_nil]
      omega
  | delivers hphase =>
      rw [hphase]
      simp only [Worker.Phase.inHand, reduceCtorEq, if_false, List.length_nil]
      omega
  | ends hphase hitems =>
      rw [hphase, hitems]
      simp [Worker.Phase.inHand]
  | leaves hphase | answers hphase | cutsOff hphase | reports hphase | unheard hphase
  | closes hphase =>
      rw [hphase]
      simp [Worker.Phase.inHand, Channel.close]

/-- Every ticket that the scheduler dispatches goes to a worker. -/
theorem Dealt.load (dealt : Dealt s s') :
    total (s'.workers.map Worker.load) + s.scheduler.dispatched =
      total (s.workers.map Worker.load) + s'.scheduler.dispatched := by
  cases dealt with
  | @sends j t u _ hu =>
      have htotal := total_set hu
        { u with queue := { u.queue with items := u.queue.items ++ [t] } } Worker.load
      have hmore : ({ u with queue := { u.queue with items := u.queue.items ++ [t] } } :
          Worker).load = u.load + 1 := by
        simp only [Worker.load, List.length_append, List.length_singleton]
        omega
      rw [hmore] at htotal
      dsimp only at htotal ⊢
      omega
  | @closes j u _ hu =>
      have htotal := total_set hu { u with queue := u.queue.close } Worker.load
      have hsame : ({ u with queue := u.queue.close } : Worker).load = u.load := rfl
      rw [hsame] at htotal
      dsimp only at htotal ⊢
      omega
  | _ => rfl

/-- A queue that is closed while the scheduler goes on is a dead worker's. -/
theorem Served.dead_of_closed {offers done : List Ticket} (served : Served process s w offers done)
    (going : s.scheduler.phase.isClosing = false) (closed : w.queue.closed = true) :
    w.dead = true := by
  cases served with
  | alive _ _ _ hclosing =>
      rw [hclosing closed] at going
      contradiction
  | dead hdead => exact hdead

theorem refusedIn_scheduler : refusedIn ⟨s, .step .scheduler, s'⟩ =
    (s.pendingOffer.filter fun offer =>
      (s.workers[offer.1]?).any fun w => w.dead && w.queue.closed).map Prod.snd := by
  rw [refusedIn, offeredIn_scheduler]

/-- Every offer that the scheduler makes is dispatched, or refused by a dead worker. -/
theorem Dealt.offers {offers : List (Nat × Ticket)} {done : Nat → List Ticket}
    (dealt : Dealt s s')
    (served : ∀ i w, s.workers[i]? = some w → Served process s w (dealtTo i offers) (done i)) :
    s'.scheduler.dispatched + (refusedIn ⟨s, .step .scheduler, s'⟩).length =
      s.scheduler.dispatched + s.pendingOffer.length := by
  rw [refusedIn_scheduler]
  cases dealt with
  | stops hphase | runsDry hphase | takes hphase | closes hphase | ends hphase =>
      rw [pendingOffer, hphase]
      rfl
  | sends hphase hw hopen =>
      rw [pendingOffer, hphase]
      simp [hw, hopen]
  | @refuses j t u hphase hw hclosed =>
      have hdead := (served j u hw).dead_of_closed (by rw [hphase]; rfl) hclosed
      rw [pendingOffer, hphase]
      simp [hw, hclosed, hdead]

/-- What holds of the scheduler's and the workers' counters along every run. -/
structure Balanced (past : List (Moment Service Act)) (s : Service) : Prop where
  dispatched : s.scheduler.dispatched = total (s.workers.map Worker.load) + (stranded past).length
  offered : s.scheduler.dispatched + (refused past).length = (offered past).length

theorem balanced_launch (n inbound queue : Nat) : Balanced [] (launch n inbound queue) := by
  have hnone : total ((crew n queue).map Worker.load) = 0 := by
    unfold crew
    induction List.range n with
    | nil => rfl
    | cons j js ih =>
        rw [List.map_cons, List.map_cons, total_cons, ih]
        rfl
  rw [launch_eq]
  refine ⟨?_, rfl⟩
  show 0 = total ((crew n queue).map Worker.load) + 0
  rw [hnone]

theorem balanced_run {inbound queue : Nat}
    (run : Run (act? process) (launch n inbound queue) past s) : Balanced past s := by
  induction run with
  | start => exact balanced_launch n inbound queue
  | @snoc past now next act run step ih =>
      have deals := deals_run run
      have hoffer (hact : act ≠ .step .scheduler) : offeredIn ⟨now, act, next⟩ = [] :=
        (scheduler_kept hact step).2.2
      by_cases hpool : act.isOfPool = true
      · cases act with
        | step thread =>
            cases stepped_of_act? step with
            | @worker i w w' cs told hw hworked =>
                have hload := hworked.load (deals.served i w hw)
                have htotal := total_set hw w' Worker.load
                have hstranded : strandedIn ⟨now, .step (.worker i), now.afterWorker i w' cs told⟩ =
                    w.drained := by
                  simp [strandedIn, hw]
                have hquiet := hoffer (by exact nofun)
                refine ⟨?_, ?_⟩
                · rw [stranded_snoc, hstranded, List.length_append]
                  have hbefore := ih.dispatched
                  show now.scheduler.dispatched = total ((now.workers.set i w').map Worker.load) + _
                  omega
                · rw [refused_snoc, offered_snoc, refusedIn, hquiet, List.append_nil]
                  show now.scheduler.dispatched + (refused past ++ []).length = _
                  rw [List.append_nil]
                  exact ih.offered
            | scheduler hdealt =>
                have hload := hdealt.load
                have hoffers := hdealt.offers deals.served
                have hbefore := ih.dispatched
                have hold := ih.offered
                refine ⟨?_, ?_⟩
                · rw [stranded_snoc, strandedIn, List.append_nil]
                  omega
                · rw [refused_snoc, offered_snoc, offeredIn_scheduler, List.length_append,
                    List.length_append]
                  omega
            | _ => contradiction
        | _ => contradiction
      · obtain ⟨hworkers, hscheduler⟩ := pool_unchanged (eq_false_of_ne_true hpool) step
        have hquiet : offeredIn ⟨now, act, next⟩ = [] :=
          hoffer fun hact => hpool (by rw [hact]; rfl)
        have hstranded : strandedIn ⟨now, act, next⟩ = [] := by
          unfold strandedIn
          split
          · simp_all [Act.isOfPool]
          · rfl
        refine ⟨?_, ?_⟩
        · rw [stranded_snoc, hstranded, List.append_nil, hworkers, hscheduler]
          exact ih.dispatched
        · rw [refused_snoc, offered_snoc, refusedIn, hquiet, List.append_nil, hscheduler]
          show now.scheduler.dispatched + (refused past ++ []).length = _
          rw [List.append_nil]
          exact ih.offered

/-! ## Clients -/

/-- What holds of the clients' numbers and of the handlers' counters along every run of a
service that nobody stops. -/
structure Counted (past : List (Moment Service Act)) (s : Service) : Prop where
  numbered : handedOut past = List.range' 1 s.connections.length
  entered : total (s.handlers.map (·.forwarded)) = (entered past).length
  put : ∀ k, (putBy k past).length = ((s.handlers[k]?).map (·.forwarded)).getD 0

theorem counted_launch (n inbound queue : Nat) : Counted [] (launch n inbound queue) := by
  rw [launch_eq]
  exact ⟨rfl, rfl, fun _ => rfl⟩

/-- An act by which nobody connects and nothing is forwarded. -/
theorem Counted.quiet (counted : Counted past s) (handlers : s'.handlers = s.handlers)
    (connections : s'.connections.length = s.connections.length)
    (nobody : handedOutIn ⟨s, act, s'⟩ = []) (nothing : enteredIn ⟨s, act, s'⟩ = [])
    (others : ∀ k, putIn k ⟨s, act, s'⟩ = []) : Counted (past ++ [⟨s, act, s'⟩]) s' where
  numbered := by
    rw [handedOut_snoc, nobody, List.append_nil, connections]
    exact counted.numbered
  entered := by
    rw [entered_snoc, nothing, List.append_nil, handlers]
    exact counted.entered
  put := by
    intro k
    rw [putBy_snoc, others, List.append_nil, handlers]
    exact counted.put k

/-- Somebody connects. -/
theorem Counted.accept (counted : Counted past s)
    (paired : s.handlers.length = s.connections.length) (capacity : Option Nat) :
    Counted (past ++ [⟨s, .accept capacity, (s.accept capacity).1⟩]) (s.accept capacity).1 := by
  obtain ⟨hhandlers, hconnections⟩ := accept_appends paired capacity
  refine ⟨?_, ?_, ?_⟩
  · rw [handedOut_snoc, counted.numbered, hconnections, List.length_append,
      List.length_singleton, List.range'_1_concat]
    simp [handedOutIn, hconnections, Nat.add_comm]
  · have hnone : enteredIn ⟨s, .accept capacity, (s.accept capacity).1⟩ = [] := rfl
    rw [entered_snoc, hnone, List.append_nil, hhandlers, List.map_append, total_append,
      counted.entered]
    rfl
  · intro k
    have hnone : putIn k ⟨s, .accept capacity, (s.accept capacity).1⟩ = [] := rfl
    rw [putBy_snoc, hnone, List.append_nil, counted.put, hhandlers]
    by_cases hk : k < s.handlers.length
    · rw [List.getElem?_append_left hk]
    · rw [List.getElem?_eq_none_iff.mpr (Nat.le_of_not_lt hk)]
      cases hnew : (s.handlers ++ [({ phase := .reading Frame.Reader.start } : Handler)])[k]? with
      | none => rfl
      | some h =>
          rw [List.getElem?_append_right (Nat.le_of_not_lt hk)] at hnew
          rw [List.mem_singleton.mp (List.mem_of_getElem? hnew)]
          rfl

/-- A handler does something: it forwards one request, or none. -/
theorem Counted.handler {budget : Nat} {tickets : List Ticket} {told : List Event}
    (counted : Counted past s) (hh : s.handlers[k]? = some h)
    (step : Handled s k h c h' c' tickets told) :
    Counted (past ++ [⟨s, .step (.handler k budget), s.afterHandler k h' c' tickets told⟩])
      (s.afterHandler k h' c' tickets told) := by
  have hput (j : Nat) :
      putIn j ⟨s, .step (.handler k budget), s.afterHandler k h' c' tickets told⟩ =
        if k = j then tickets else [] := by
    by_cases hkj : k = j
    · simp [putIn, Act.isOfHandler, afterHandler, Channel.put, hkj]
    · simp [putIn, Act.isOfHandler, hkj]
  have hlength : h'.forwarded = h.forwarded + tickets.length := by
    rcases step.forwarded with ⟨rfl, hsame⟩ | ⟨r, -, rfl, hmore⟩
    · exact hsame
    · exact hmore
  refine ⟨?_, ?_, ?_⟩
  · rw [handedOut_snoc, counted.numbered]
    show _ = List.range' 1 (s.connections.set k c').length
    rw [List.length_set]
    exact List.append_nil _
  · have htotal := total_set hh h' (·.forwarded)
    have hentered := counted.entered
    have hmore := hput k
    rw [if_pos rfl] at hmore
    rw [entered_snoc, List.length_append]
    show total ((s.handlers.set k h').map (·.forwarded)) =
      _ + (putIn k ⟨s, .step (.handler k budget), s.afterHandler k h' c' tickets told⟩).length
    rw [hmore]
    omega
  · intro j
    rw [putBy_snoc, hput, List.length_append, counted.put]
    show _ = (((s.handlers.set k h')[j]?).map (·.forwarded)).getD 0
    by_cases hkj : k = j
    · subst hkj
      rw [getElem?_set_here hh, hh, if_pos rfl]
      exact hlength.symm
    · rw [List.getElem?_set_ne hkj, if_neg hkj]
      rfl

theorem counted_run {inbound queue : Nat}
    (run : Run (act? process) (launch n inbound queue) past s)
    (ordinary : ∀ m ∈ past, m.act.isOrdinary = true) : Counted past s := by
  induction run with
  | start => exact counted_launch n inbound queue
  | @snoc past now next act run step ih =>
      have hpast : ∀ m ∈ past, m.act.isOrdinary = true :=
        fun m hm => ordinary m (List.mem_append_left _ hm)
      have hact : act.isOrdinary = true :=
        ordinary _ (List.mem_append_right _ (List.mem_singleton_self _))
      have counted := ih hpast
      have hpaired := (tended_run run hpast).quiet.paired
      cases act with
      | accept capacity =>
          cases step
          exact counted.accept hpaired capacity
      | step thread =>
          obtain ⟨-, hsize⟩ := (size_kept hact step).resolve_left nofun
          cases stepped_of_act? step with
          | handler hh _ hhandled => exact counted.handler hh hhandled
          | scheduler hdealt =>
              cases hdealt <;> exact counted.quiet rfl hsize rfl rfl fun _ => rfl
          | _ => exact counted.quiet rfl hsize rfl rfl fun _ => rfl
      | clientWrites | clientFinishes | clientReads | clientCloses =>
          obtain ⟨-, hsize⟩ := (size_kept hact step).resolve_left nofun
          cases step
          exact counted.quiet rfl hsize rfl rfl fun _ => rfl
      | _ => contradiction

/-! ## Once nothing can be done -/

theorem range'_eq_map (handlers : List Handler) :
    List.range' 1 handlers.length =
      (handlers.mapIdx fun k h => (k + 1, h)).map Prod.fst := by
  apply List.ext_getElem?
  intro k
  rw [List.getElem?_map, List.getElem?_mapIdx]
  by_cases hk : k < handlers.length
  · rw [List.getElem?_range' hk, List.getElem?_eq_getElem hk, Option.map_some, Option.map_some,
      Nat.one_mul, Nat.add_comm]
  · have hrange : (List.range' 1 handlers.length)[k]? = none := by
      rw [List.getElem?_eq_none_iff, List.length_range']
      exact Nat.le_of_not_lt hk
    rw [hrange, List.getElem?_eq_none_iff.mpr (Nat.le_of_not_lt hk)]
    rfl

/-- The clients that are gone are those whose handlers have ended. -/
theorem gone_clients (s : Service) :
    (gone s.handlers).map Prod.fst =
      (List.range' 1 s.handlers.length).filter s.handlerEnded := by
  rw [range'_eq_map, List.filter_map, gone, List.map_map]
  refine congrArg (List.map Prod.fst) (List.filter_congr ?_)
  intro entry hentry
  obtain ⟨k, hk⟩ := List.mem_iff_getElem?.mp hentry
  rw [List.getElem?_mapIdx] at hk
  obtain ⟨h, hh, rfl⟩ := Option.map_eq_some_iff.mp hk
  simp [handlerEnded, hh]

/-- Each of them has gone with all the requests it forwarded. -/
theorem Counted.gone_requests (counted : Counted past s) :
    (gone s.handlers).map Prod.snd =
      ((gone s.handlers).map Prod.fst).map (forwardedBy past) := by
  rw [List.map_map]
  apply List.map_congr_left
  rintro ⟨client, requests⟩ hmem
  obtain ⟨k, h, rfl, hh, -, rfl⟩ := mem_gone.mp hmem
  show h.forwarded = (putBy k past).length
  rw [counted.put, hh]
  rfl

theorem Counted.requests (counted : Counted past s) :
    (List.range' 1 s.handlers.length).map (forwardedBy past) = s.handlers.map (·.forwarded) := by
  rw [range'_eq_map, List.map_map]
  apply List.ext_getElem?
  intro k
  rw [List.getElem?_map, List.getElem?_map, List.getElem?_mapIdx, Option.map_map]
  cases hh : s.handlers[k]? with
  | none => rfl
  | some h =>
      show some (putBy k past).length = some h.forwarded
      rw [counted.put, hh]
      rfl

/-- The load of workers that have nothing left to do. -/
theorem total_load {workers : List Worker}
    (idle : ∀ w ∈ workers, (w.phase = .receiving ∨ w.phase = .ended) ∧ w.queue.items = []) :
    total (workers.map Worker.load) =
      total (workers.map (·.processed)) + (fallen workers).length := by
  induction workers with
  | nil => rfl
  | cons w ws ih =>
      obtain ⟨hphase, hempty⟩ := idle w List.mem_cons_self
      have hlater := ih fun u hu => idle u (List.mem_cons_of_mem _ hu)
      have hload : w.load = w.processed + (fallen [w]).length := by
        rw [fallen_singleton]
        rcases hphase with hphase | hphase <;> cases hdead : w.dead <;>
          simp [Worker.load, Worker.hasReported, Worker.Phase.inHand, hphase, hempty, hdead]
      have hsplit : (fallen (w :: ws)).length = (fallen [w]).length + (fallen ws).length := by
        rw [← List.length_append, fallen, fallen, fallen, ← List.map_append,
          ← List.filter_append, List.singleton_append]
      rw [List.map_cons, List.map_cons, total_cons, total_cons, hsplit]
      omega

/-- A monitor that can do nothing has taken all reports. -/
theorem Ledger.all_heard {heard : List Event} (ledger : Ledger heard s)
    (stuck : s.monitorStep? = none) : s.events.items = [] := by
  have hwaits := monitor_waits stuck
  rcases ledger.phase with hphase | ⟨client, hphase, hreported⟩
  · rw [hphase] at hwaits
    exact hwaits.1
  · rw [hphase] at hwaits
    have hgoing : s.handlerEnded client = false := hwaits
    rw [ledger.handler_ended hreported] at hgoing
    contradiction

/-- Once all reports are taken, the clients that were reported are those whose handlers have
ended. -/
theorem Ledger.reported {heard : List Event} (ledger : Ledger heard s)
    (nothing : s.events.items = []) :
    ((departures heard).map Prod.fst).Perm
      ((List.range' 1 s.handlers.length).filter s.handlerEnded) := by
  have hdeparted := ledger.departed
  rw [nothing, List.append_nil] at hdeparted
  rw [← gone_clients]
  exact hdeparted.map Prod.fst

/-- Then the list holds the others. -/
theorem Ledger.remaining {heard : List Event} (ledger : Ledger heard s)
    (nothing : s.events.items = []) :
    s.monitor.registered = (List.range' 1 s.handlers.length).filter (!s.handlerEnded ·) := by
  rw [ledger.registered]
  apply List.filter_congr
  intro client hclient
  have hiff : client ∈ (departures heard).map Prod.fst ↔ s.handlerEnded client = true := by
    rw [(ledger.reported nothing).mem_iff, List.mem_filter]
    exact and_iff_right hclient
  cases hended : s.handlerEnded client <;> simp_all

/-- And who is not on the list has gone. -/
theorem Ledger.missing {heard : List Event} (ledger : Ledger heard s)
    (nothing : s.events.items = []) :
    (List.range' 1 s.handlers.length).filter (· ∉ s.monitor.registered) =
      (gone s.handlers).map Prod.fst := by
  rw [gone_clients, ledger.remaining nothing]
  apply List.filter_congr
  intro client hclient
  cases hended : s.handlerEnded client <;> simp [List.mem_filter, hclient, hended]

/-- What the counters of a service say of each other and of what has happened. -/
structure Agreement (past : List (Moment Service Act)) (s : Service) : Prop where
  accepted : s.monitor.accepted = s.monitor.registered.length + s.monitor.disconnected
  /-- Numbers are handed out from one on, each once. -/
  numbered : handedOut past = List.range' 1 s.monitor.accepted
  /-- The list holds each client whose handler has not ended, once. -/
  registered : s.monitor.registered = (handedOut past).filter (!s.handlerEnded ·)
  /-- The requests of clients that have left are those their handlers forwarded. -/
  left : s.monitor.requestsFromDisconnected =
    total (((handedOut past).filter (· ∉ s.monitor.registered)).map (forwardedBy past))
  /-- Every request forwarded is dispatched or refused by a dead worker. -/
  forwarded : total ((handedOut past).map (forwardedBy past)) =
    s.scheduler.dispatched + (refused past).length
  /-- Every ticket dispatched is answered, kills its worker, or is given up by it. -/
  dispatched : s.scheduler.dispatched =
    s.totalProcessed + s.monitor.deadWorkers + (stranded past).length

theorem agreement_of_stuck {inbound queue : Nat} (positive : 0 < n)
    (run : Run (act? process) (launch n inbound queue) past s)
    (ordinary : ∀ m ∈ past, m.act.isOrdinary = true)
    (stuck : s.Stuck process Thread.isInner) : Agreement past s := by
  have tended := tended_run run ordinary
  have deals := deals_run run
  have counted := counted_run run ordinary
  have balanced := balanced_run run
  have hroom := events_unbounded run
  obtain ⟨heard, ledger⟩ := ledger_run run ordinary
  have hheard := ledger.all_heard stuck.monitor
  have hdeparted := ledger.departed
  have hdied := ledger.died
  rw [hheard, List.append_nil] at hdeparted hdied
  have hnumbered : handedOut past = List.range' 1 s.handlers.length := by
    rw [counted.numbered, tended.quiet.paired]
  have hinbound : s.inbound.items = [] := by
    rw [List.eq_nil_iff_forall_not_mem]
    exact fun t ht => not_inFlight_of_stuck positive run tended.quiet stuck.pool (Or.inl ht)
  have hoffers := deals.offers
  rw [deals.no_offer positive hroom stuck.pool.scheduler stuck.pool.worker,
    List.append_nil] at hoffers
  have hentered : (entered past).length = (offered past).length := by
    rw [entered_eq run fun m hm => ?_, hinbound, List.append_nil, hoffers, deal,
      List.length_mapIdx]
    intro hact
    have hno := ordinary m hm
    rw [hact] at hno
    contradiction
  have hidle : ∀ w ∈ s.workers,
      (w.phase = .receiving ∨ w.phase = .ended) ∧ w.queue.items = [] := by
    intro w hmem
    obtain ⟨i, hw⟩ := List.mem_iff_getElem?.mp hmem
    exact (deals.served i w hw).waits hw hroom (stuck.pool.worker i)
  refine ⟨?_, ?_, ?_, ?_, ?_, ?_⟩
  · have hsize := (List.range' 1 s.handlers.length).length_eq_length_filter_add s.handlerEnded
    have hgone := (ledger.reported hheard).length_eq
    rw [List.length_map] at hgone
    rw [List.length_range'] at hsize
    rw [ledger.accepted, ledger.disconnected, ledger.remaining hheard]
    omega
  · rw [hnumbered, ledger.accepted]
  · rw [hnumbered, ledger.remaining hheard]
  · rw [hnumbered, ledger.missing hheard, ← counted.gone_requests, ledger.requests]
    exact total_perm (hdeparted.map Prod.snd)
  · rw [hnumbered, counted.requests, counted.entered, hentered]
    exact balanced.offered.symm
  · rw [balanced.dispatched, total_load hidle, ledger.deadWorkers, hdied.length_eq]
    rfl

end Service

namespace Daemon

open Service (Act act? Agreement launch handedOut refused stranded forwardedBy settled_of_threads)

/-- **The counters agree in every settled state.** After a successful start, and as long as
only the service's threads and its clients act, in whatever order they do, the counters of the
handlers, the scheduler, the workers and the monitor agree with each other and with what has
happened whenever scheduler, workers and monitor can do nothing. Handlers may be in the middle
of a frame then, and writers may wait for clients that do not read. -/
theorem counters_agree_when_settled {config : Config} {processor : FileTree → Processor}
    {site site' : Site} {d : Daemon} {journal : Log.Journal} {process : Processing} {s : Service}
    {past : List (Moment Service Act)}
    (started : (new config processor).start site = (true, d, site', journal))
    (run : Run (act? process) d.service past s)
    (ordinary : ∀ m ∈ past, m.act.isOrdinary = true)
    (stuck : s.Stuck process Thread.isInner) : Agreement past s := by
  obtain ⟨hpositive, hservice⟩ := service_of_start started
  rw [hservice] at run
  exact Service.agreement_of_stuck hpositive run ordinary stuck

/-- Three clients and two workers. The second client's request kills the second worker, which
gives up one request of the third client and refuses another; the first client stays and does
not read, so that the writer of its three replies waits in the middle of the second. -/
theorem counters_agree_when_settled_second_worker_dies :
    ∃ (config : Config) (processor : FileTree → Processor) (site site' : Site) (d : Daemon)
      (journal : Log.Journal) (process : Processing) (past : List (Moment Service Act))
      (s : Service),
      (new config processor).start site = (true, d, site', journal) ∧
      Run (act? process) d.service past s ∧ (∀ m ∈ past, m.act.isOrdinary = true) ∧
      s.Stuck process Thread.isInner ∧ (s.connections.map (·.isStalled)) = [true, false, false] ∧
      s.monitor.registered = [1] ∧ s.monitor.disconnected = 2 ∧
      s.monitor.requestsFromDisconnected = 3 ∧
      (handedOut past).map (forwardedBy past) = [3, 1, 2] ∧ s.scheduler.dispatched = 5 ∧
      (refused past).length = 1 ∧ (stranded past).length = 1 ∧ s.totalProcessed = 3 ∧
      Agreement past s := by
  let config : Config := { socketPath := text "/s", pidFile := text "/p", workers := 2 }
  let processor : FileTree → Processor := fun _ => .scripted [] [] []
  let site : Site := { host := {}, process := { pid := 7, vantage := { cwd := [] } } }
  let process : Processing := fun t =>
    (if t.client = 2 then .fault none else .answer (.ok t.request.id), [])
  let asks (id : UInt64) : Bytes := Frame.encode (Message.ofRequest ⟨id, .create⟩).encode
  let handles (i : Nat) : List Act := [.step (.handler i 100), .step (.handler i 100)]
  let deals : List Act := [.step .scheduler, .step .scheduler]
  let works (i n : Nat) : List Act := List.replicate n (.step (.worker i))
  let writes : List Act := [.step (.writer 0 100), .step (.writer 0 100)]
  let leaves (i : Nat) : List Act := .step (.writer i 0) :: List.replicate 4 (.step (.handler i 0))
  have hok : ((new config processor).start site).1 = true := by cbv
  have started : (new config processor).start site = (true, _, _, _) := Prod.ext hok rfl
  have hservice := (service_of_start started).2
  have hrun : (perform? (act? process) (launch 2 1024 0)
      ([.accept (some 30), .accept, .accept, .clientWrites 0 (asks 1 ++ asks 3 ++ asks 5),
        .clientWrites 1 (asks 2), .clientWrites 2 (asks 4 ++ asks 6)] ++
        handles 0 ++ handles 1 ++ handles 0 ++ handles 2 ++ handles 0 ++ handles 2 ++
        deals ++ deals ++ deals ++ deals ++ works 1 7 ++ deals ++ deals ++ works 0 9 ++
        writes ++ writes ++ leaves 1 ++ leaves 2 ++
        List.replicate 5 (.step .monitor))).map
      (fun p => decide ((p.1.all (·.act.isOrdinary) = true ∧
        (p.2.threads.all fun thread => (p.2.step? process thread).isNone) = true) ∧
        (p.2.connections.map (·.isStalled)) = [true, false, false] ∧
        p.2.monitor.registered = [1] ∧ p.2.monitor.disconnected = 2 ∧
        p.2.monitor.requestsFromDisconnected = 3 ∧
        (handedOut p.1).map (forwardedBy p.1) = [3, 1, 2] ∧ p.2.scheduler.dispatched = 5 ∧
        (refused p.1).length = 1 ∧ (stranded p.1).length = 1 ∧ p.2.totalProcessed = 3)) =
      some true := by decide +kernel
  obtain ⟨⟨past, s⟩, hperform, hshows⟩ := Option.map_eq_some_iff.mp hrun
  rw [decide_eq_true_iff] at hshows
  obtain ⟨⟨hordinary, hwaits⟩, hstalled, hlist, hleft, hrequests, hforwarded, hdispatched,
    hrefused, hstranded, hprocessed⟩ := hshows
  rw [List.all_eq_true] at hordinary hwaits
  have hstuck : s.Stuck process Thread.isInner :=
    (settled_of_threads fun thread h => Option.isNone_iff_eq_none.mp (hwaits thread h)).stuck _
  have run : Run (act? process) _ past s := Run.of_perform? hperform
  rw [← hservice] at run
  exact ⟨config, processor, site, _, _, _, process, past, s, started, run, hordinary, hstuck,
    hstalled, hlist, hleft, hrequests, hforwarded, hdispatched, hrefused, hstranded, hprocessed,
    counters_agree_when_settled started run hordinary hstuck⟩

end Daemon

end SearchDaemon
