import Mathlib.Data.List.Perm.Basic
import SearchDaemon.Proofs.Dealing
import SearchDaemon.Proofs.Handling

/-!
# Stopping the pool

A stop, once it lies ready, wins over every ticket: the scheduler takes no more of them,
closes the queues of all workers and ends, and the workers do what is left in their queues
and end too. What was put on the inbound channel is therefore divided at one point: the
tickets before it are all processed, those after it stay where they are.
-/

namespace SearchDaemon

/-- The queue of the worker at a position has been closed by the scheduler. -/
def Scheduler.Phase.hasClosed (i : Nat) : Scheduler.Phase → Bool
  | .closing n => i < n
  | .ended => true
  | _ => false

/-- The steps that the scheduler still has to take for a stop, each ticket it sends counted
with the steps its worker takes for it. -/
def Scheduler.Phase.due (workers : Nat) : Scheduler.Phase → Nat
  | .selecting => workers + 2
  | .sending .. => workers + 6
  | .closing n => workers - n + 1
  | _ => 0

/-- The steps that a worker still has to take for the ticket it holds, and to end. -/
def Worker.Phase.due : Worker.Phase → Nat
  | .receiving => 1
  | .delivering .. => 2
  | .processing _ => 3
  | _ => 0

/-- The steps that a worker still has to take before it ends. -/
def Worker.due (w : Worker) : Nat := 3 * w.queue.items.length + w.phase.due

namespace Service

/-! ## What goes in and what is processed -/

/-- The scheduler will take no ticket any more. -/
def isStopping (s : Service) : Bool := s.stop.isReady || s.scheduler.phase.isClosing

/-- The tickets that are put on the inbound channel. -/
def enteredIn (m : Moment Service Act) : List Ticket :=
  match m.act with
  | .submit t => if m.before.inbound.closed then [] else [t]
  | .step (.handler k _) => putIn k m
  | _ => []

/-- The ticket that is processed, by whichever worker. -/
def calledIn (m : Moment Service Act) : List Ticket :=
  match m.act with
  | .step (.worker i) => callsIn i m
  | _ => []

def entered (past : List (Moment Service Act)) : List Ticket := past.flatMap enteredIn

def called (past : List (Moment Service Act)) : List Ticket := past.flatMap calledIn

variable {process : Processing} {s s' : Service} {act : Act}
  {past later : List (Moment Service Act)} {m : Moment Service Act} {t : Ticket} {w w' : Worker}
  {n : Nat}

theorem entered_snoc : entered (past ++ [m]) = entered past ++ enteredIn m := by
  simp [entered]

theorem called_snoc : called (past ++ [m]) = called past ++ calledIn m := by
  simp [called]

/-! ## Shares of several workers -/

theorem flatMap_range_ite {i : Nat} (hi : i < n) (ts : List Ticket) :
    (List.range n).flatMap (fun j => if i = j then ts else []) = ts := by
  induction n with
  | zero => contradiction
  | succ n ih =>
      rw [List.range_succ, List.flatMap_append, List.flatMap_singleton]
      by_cases hlast : i = n
      · have hnone : (List.range n).flatMap (fun j => if i = j then ts else []) = [] := by
          rw [List.flatMap_eq_nil_iff]
          intro j hj
          have := List.mem_range.mp hj
          rw [if_neg (by omega)]
        rw [hnone, if_pos hlast, List.nil_append]
      · rw [ih (by omega), if_neg hlast, List.append_nil]

/-- Each offer is somebody's. -/
theorem dealtTo_perm {offers : List (Nat × Ticket)} (h : ∀ o ∈ offers, o.1 < n) :
    ((List.range n).flatMap fun i => dealtTo i offers).Perm (offers.map Prod.snd) := by
  induction offers with
  | nil => simp [dealtTo]
  | cons o offers ih =>
      obtain ⟨k, t⟩ := o
      have hlater := ih fun o ho => h o (List.mem_cons_of_mem _ ho)
      have hfirst := flatMap_range_ite (h _ List.mem_cons_self) [t]
      have hcons (i : Nat) : dealtTo i ((k, t) :: offers) =
          (if k = i then [t] else []) ++ dealtTo i offers := by
        rw [← dealtTo_singleton, ← dealtTo_append, List.singleton_append]
      simp only [hcons]
      refine (List.flatMap_append_perm _ _ _).symm.trans ?_
      rw [hfirst]
      exact hlater.cons t

theorem map_snd_deal (n : Nat) (ts : List Ticket) : (deal n ts).map Prod.snd = ts := by
  apply List.ext_getElem?
  intro k
  rw [deal, List.getElem?_map, List.getElem?_mapIdx, Option.map_map]
  exact Option.map_id'

/-- The workers share out all tickets. -/
theorem deal_perm (positive : 0 < n) (ts : List Ticket) :
    ((List.range n).flatMap fun i => dealtTo i (deal n ts)).Perm ts := by
  have hturns : ∀ o ∈ deal n ts, o.1 < n := by
    rintro ⟨i, t⟩ ho
    obtain ⟨k, -, rfl⟩ := mem_deal ho
    exact Nat.mod_lt k positive
  have hperm := dealtTo_perm hturns
  rwa [map_snd_deal] at hperm

theorem callsIn_worker {i j : Nat} : callsIn j ⟨s, .step (.worker i), s'⟩ =
    if i = j then callsIn i ⟨s, .step (.worker i), s'⟩ else [] := by
  by_cases hij : i = j
  · rw [if_pos hij, hij]
  · rw [if_neg hij]
    exact if_neg hij

/-- What is processed in one act is processed by one of the workers. -/
theorem calledIn_eq (size : s.workers.length = n) (step : s.act? process act = some s') :
    ((List.range n).flatMap fun i => callsIn i ⟨s, act, s'⟩) = calledIn ⟨s, act, s'⟩ := by
  have hnone (quiet : ∀ i, callsIn i ⟨s, act, s'⟩ = []) :
      ((List.range n).flatMap fun i => callsIn i ⟨s, act, s'⟩) = [] := by
    rw [List.flatMap_eq_nil_iff]
    exact fun i _ => quiet i
  cases act with
  | step thread =>
      cases thread with
      | worker i =>
          cases stepped_of_act? step with
          | worker hw =>
              have hi : i < n := size ▸ (List.getElem?_eq_some_iff.mp hw).1
              rw [List.flatMap_congr fun j _ => callsIn_worker, flatMap_range_ite hi]
              rfl
      | _ => exact hnone fun _ => rfl
  | _ => exact hnone fun _ => rfl

/-- Everything that is processed is processed by one of the workers. -/
theorem calls_perm {inbound queue : Nat}
    (run : Run (act? process) (launch n inbound queue) past s) :
    ((List.range n).flatMap fun i => calls i past).Perm (called past) := by
  induction run with
  | start => simp [calls, called]
  | @snoc past now next act run step ih =>
      simp only [calls_snoc, called_snoc]
      refine (List.flatMap_append_perm _ _ _).symm.trans ?_
      rw [calledIn_eq (deals_run run).size step]
      exact ih.append_right _

/-! ## The inbound channel -/

theorem isReady_put {ch : Channel Unit} (ready : ch.isReady = true) (items : List Unit) :
    (ch.put items).isReady = true := by
  rw [Channel.isReady, Bool.or_eq_true] at ready ⊢
  rcases ready with hitems | hclosed
  · left
    cases hhead : ch.items with
    | nil => simp [hhead] at hitems
    | cons => simp [Channel.put, hhead]
  · exact Or.inr hclosed

/-- Only the scheduler's own steps change it. -/
theorem scheduler_kept (others : act ≠ .step .scheduler) (step : s.act? process act = some s') :
    s'.scheduler = s.scheduler ∧ takenIn ⟨s, act, s'⟩ = [] ∧ offeredIn ⟨s, act, s'⟩ = [] := by
  have hquiet : takenIn ⟨s, act, s'⟩ = [] ∧ offeredIn ⟨s, act, s'⟩ = [] := by
    unfold takenIn offeredIn
    constructor <;> split <;> trivial
  refine ⟨?_, hquiet⟩
  cases acted_of_act? step with
  | step hstepped =>
      cases hstepped with
      | scheduler => contradiction
      | _ => rfl
  | atClient _ _ _ _ hscheduler => exact hscheduler
  | onChannel => rfl

/-- What an act does to the channels the scheduler waits for. -/
structure ChannelsMoved (s : Service) (act : Act) (s' : Service) : Prop where
  /-- The inbound channel loses only what the scheduler takes, and from its head. -/
  inbound : act ≠ .withdraw →
    s.inbound.items ++ enteredIn ⟨s, act, s'⟩ = takenIn ⟨s, act, s'⟩ ++ s'.inbound.items
  /-- Nobody but the scheduler takes a stop away. -/
  stop : act ≠ .step .scheduler → s.stop.isReady = true → s'.stop.isReady = true

/-- An act that touches neither of them. -/
theorem ChannelsMoved.same (inbound : s'.inbound = s.inbound) (stop : s'.stop = s.stop)
    (quiet : enteredIn ⟨s, act, s'⟩ = []) (empty : takenIn ⟨s, act, s'⟩ = []) :
    ChannelsMoved s act s' := by
  constructor
  · rw [quiet, empty, inbound, List.append_nil]
    exact fun _ => rfl
  · rw [stop]
    exact fun _ => id

theorem channels_moved (step : s.act? process act = some s') : ChannelsMoved s act s' := by
  cases act with
  | step thread =>
      cases stepped_of_act? step with
      | scheduler hdealt =>
          refine ⟨fun _ => ?_, fun h => absurd rfl h⟩
          cases hdealt with
          | takes hphase hgoing hitems => simp [enteredIn, takenIn, hitems]
          | _ => simp [enteredIn, takenIn]
      | handler =>
          refine ⟨fun _ => ?_, fun _ => id⟩
          simp [enteredIn, takenIn, putIn, Act.isOfHandler, afterHandler, Channel.put]
      | _ => exact .same rfl rfl rfl rfl
  | submit t =>
      obtain ⟨-, hsent⟩ := Option.ite_none_right_eq_some.mp step
      obtain ⟨⟨taken, ch⟩, hsend, rfl⟩ := Option.map_eq_some_iff.mp hsent
      refine ⟨fun _ => ?_, fun _ => id⟩
      rcases send?_cases hsend with ⟨-, hclosed, rfl⟩ | ⟨-, hopen, -, rfl⟩
      · simp [enteredIn, takenIn, hclosed]
      · simp [enteredIn, takenIn, hopen]
  | withdraw =>
      obtain ⟨_, -, rfl⟩ := Option.map_eq_some_iff.mp step
      exact ⟨fun h => absurd rfl h, fun _ => id⟩
  | closeInbound =>
      cases step
      exact ⟨fun _ => List.append_nil _, fun _ => id⟩
  | sendStop =>
      obtain ⟨⟨taken, ch⟩, hsend, rfl⟩ := Option.map_eq_some_iff.mp step
      refine ⟨fun _ => List.append_nil _, fun _ hready => ?_⟩
      rcases send?_cases hsend with ⟨-, -, rfl⟩ | ⟨-, -, -, rfl⟩
      · exact hready
      · exact isReady_put hready [()]
  | closeStop =>
      cases step
      exact ⟨fun _ => List.append_nil _, fun _ _ => Bool.or_true _⟩
  | hear =>
      obtain ⟨_, -, rfl⟩ := Option.map_eq_some_iff.mp step
      exact .same rfl rfl rfl rfl
  | accept capacity =>
      cases step
      obtain ⟨hinbound, hstop, -⟩ := (s.welcomed capacity).startHandler_same s.connections.length
      exact .same hinbound hstop rfl rfl
  | start k =>
      obtain ⟨-, hafter⟩ := Option.ite_none_right_eq_some.mp step
      cases hafter
      obtain ⟨hinbound, hstop, -⟩ := s.startHandler_same k
      exact .same hinbound hstop rfl rfl
  | stopHandler k =>
      cases step
      have hfound : (s.stopHandler k).inbound = s.inbound ∧ (s.stopHandler k).stop = s.stop := by
        unfold stopHandler
        split <;> exact ⟨rfl, rfl⟩
      exact .same hfound.1 hfound.2 rfl rfl
  | _ =>
      cases step
      exact .same rfl rfl rfl rfl

/-- What has entered is what the scheduler has taken and then what is still there. -/
theorem entered_eq {inbound queue : Nat}
    (run : Run (act? process) (launch n inbound queue) past s)
    (kept : ∀ m ∈ past, m.act ≠ .withdraw) : entered past = taken past ++ s.inbound.items := by
  induction run with
  | start => rw [launch_eq]; rfl
  | @snoc past now next act run step ih =>
      have hpast := ih fun m hm => kept m (List.mem_append_left _ hm)
      have hact : act ≠ .withdraw := kept _ (List.mem_append_right _ (List.mem_singleton_self _))
      rw [entered_snoc, taken_snoc, hpast, List.append_assoc, (channels_moved step).inbound hact,
        List.append_assoc]

/-! ## A stop cuts off -/

/-- A scheduler that is to stop takes no ticket, and it stays so. -/
theorem Dealt.stopping (dealt : Dealt s s') (stopping : s.isStopping = true) :
    s'.isStopping = true ∧ s'.pendingOffer = [] := by
  rw [isStopping, Bool.or_eq_true] at stopping ⊢
  cases dealt with
  | stops | runsDry | closes | ends => exact ⟨Or.inr rfl, rfl⟩
  | takes hphase hgoing =>
      rw [hgoing, hphase] at stopping
      rcases stopping with h | h <;> contradiction
  | sends hphase | refuses hphase =>
      rw [hphase] at stopping
      exact ⟨Or.inl (stopping.resolve_right Bool.false_ne_true), rfl⟩

theorem stopping_kept (step : s.act? process act = some s') (stopping : s.isStopping = true) :
    s'.isStopping = true ∧ takenIn ⟨s, act, s'⟩ = [] := by
  by_cases hact : act = .step .scheduler
  · subst hact
    cases stepped_of_act? step with
    | scheduler hdealt =>
        obtain ⟨hstopping, hnone⟩ := hdealt.stopping stopping
        rw [takenIn_scheduler, hnone]
        exact ⟨hstopping, rfl⟩
  · obtain ⟨hscheduler, hnone, -⟩ := scheduler_kept hact step
    refine ⟨?_, hnone⟩
    rw [isStopping, Bool.or_eq_true] at stopping ⊢
    rw [hscheduler]
    exact stopping.imp_left ((channels_moved step).stop hact)

/-- Once the scheduler is to stop it takes nothing more, however the run goes on. -/
theorem cut_off (run : Run (act? process) s later s') (stopping : s.isStopping = true) :
    s'.isStopping = true ∧ taken later = [] := by
  induction run with
  | start => exact ⟨stopping, rfl⟩
  | snoc run step ih =>
      obtain ⟨hstopping, hnone⟩ := ih
      obtain ⟨hstopping', hquiet⟩ := stopping_kept step hstopping
      rw [taken_snoc, hnone, hquiet]
      exact ⟨hstopping', rfl⟩

/-! ## No worker faults -/

/-- A worker whose tickets all succeed is alive, and what it has been offered is what it has
had processed, what it holds and what is in its queue. -/
theorem Served.sound {offers done : List Ticket} (served : Served process s w offers done)
    (sound : ∀ t, succeeds process t = true) :
    ∃ held, w.phase.held = some held ∧ offers = done ++ held ++ w.queue.items ∧
      (w.queue.closed = true → s.scheduler.phase.isClosing = true) ∧
      (w.phase = .ended → w.queue.items = [] ∧ w.queue.closed = true) := by
  cases served with
  | alive _ hheld _ hclosed hended => exact ⟨_, hheld, rfl, hclosed, hended⟩
  | @dead _ _ fatal _ _ _ hfatal =>
      rw [sound fatal] at hfatal
      contradiction

/-- A queue that is closed stays so. -/
theorem closed_kept {i : Nat} (step : s.act? process act = some s')
    (hw' : s'.workers[i]? = some w') :
    ∃ w, s.workers[i]? = some w ∧ (w.queue.closed = true → w'.queue.closed = true) := by
  have hset {j : Nat} {u u' : Worker} (hu : s.workers[j]? = some u)
      (hset : (s.workers.set j u')[i]? = some w')
      (hkept : u.queue.closed = true → u'.queue.closed = true) :
      ∃ w, s.workers[i]? = some w ∧ (w.queue.closed = true → w'.queue.closed = true) := by
    rcases getElem?_set_cases hu hset with ⟨rfl, rfl⟩ | ⟨-, hold⟩
    · exact ⟨u, hu, hkept⟩
    · exact ⟨w', hold, id⟩
  by_cases hpool : act.isOfPool = true
  · cases act with
    | step thread =>
        cases stepped_of_act? step with
        | worker hw hworked =>
            refine hset hw hw' ?_
            cases hworked with
            | closes => exact fun _ => rfl
            | _ => exact id
        | scheduler hdealt =>
            cases hdealt with
            | sends _ hu => exact hset hu hw' id
            | closes _ hu => exact hset hu hw' fun _ => rfl
            | _ => exact ⟨w', hw', id⟩
        | _ => contradiction
    | _ => contradiction
  · rw [(pool_unchanged (eq_false_of_ne_true hpool) step).1] at hw'
    exact ⟨w', hw', id⟩

/-- What holds along every run in which no processing fails. -/
structure Drains (past : List (Moment Service Act)) (s : Service) : Prop where
  sent : s.scheduler.dispatched = (offered past).length
  started : s.scheduler.phase ≠ .idle
  shut : ∀ i w, s.workers[i]? = some w → s.scheduler.phase.hasClosed i = true →
    w.queue.closed = true

theorem drains_start {inbound queue : Nat} : Drains [] (launch n inbound queue) := by
  rw [launch_eq]
  refine ⟨rfl, nofun, ?_⟩
  intro i w hw hclosed
  contradiction

/-- An act of anybody but the scheduler. -/
theorem Drains.other (drains : Drains past s) (others : act ≠ .step .scheduler)
    (step : s.act? process act = some s') : Drains (past ++ [⟨s, act, s'⟩]) s' := by
  obtain ⟨hscheduler, -, hnone⟩ := scheduler_kept others step
  refine ⟨?_, ?_, ?_⟩
  · rw [hscheduler, offered_snoc, hnone, List.append_nil]
    exact drains.sent
  · rw [hscheduler]
    exact drains.started
  · intro i w' hw' hclosed
    rw [hscheduler] at hclosed
    obtain ⟨w, hw, hkept⟩ := closed_kept step hw'
    exact hkept (drains.shut i w hw hclosed)

/-- A step of the scheduler: where no processing fails no queue is closed to it. -/
theorem Drains.scheduler (drains : Drains past s) (deals : Deals process n past s)
    (sound : ∀ t, succeeds process t = true) (dealt : Dealt s s')
    (step : s.act? process (.step .scheduler) = some s') :
    Drains (past ++ [⟨s, .step .scheduler, s'⟩]) s' := by
  have hsent : offered (past ++ [⟨s, .step .scheduler, s'⟩]) = offered past ++ s.pendingOffer := by
    rw [offered_snoc, offeredIn_scheduler]
  have hkept (i : Nat) (w' : Worker) (hw' : s'.workers[i]? = some w')
      (hclosed : s.scheduler.phase.hasClosed i = true) : w'.queue.closed = true := by
    obtain ⟨w, hw, hkept⟩ := closed_kept step hw'
    exact hkept (drains.shut i w hw hclosed)
  have hquiet (hnone : s.pendingOffer = []) :
      s.scheduler.dispatched = (offered (past ++ [⟨s, .step .scheduler, s'⟩])).length := by
    rw [hsent, hnone, List.append_nil]
    exact drains.sent
  cases dealt with
  | stops hphase | runsDry hphase =>
      refine ⟨hquiet (by rw [pendingOffer, hphase]), by simp, ?_⟩
      intro i w _ hclosed
      simp [Scheduler.Phase.hasClosed] at hclosed
  | takes hphase =>
      refine ⟨hquiet (by rw [pendingOffer, hphase]), by simp, ?_⟩
      intro i w _ hclosed
      contradiction
  | sends hphase =>
      refine ⟨?_, by simp, ?_⟩
      · rw [hsent, pendingOffer, hphase, List.length_append, ← drains.sent]
        rfl
      · intro i w _ hclosed
        contradiction
  | refuses hphase hw hclosed =>
      obtain ⟨_, -, -, hclosing, -⟩ := (deals.served _ _ hw).sound sound
      have := hclosing hclosed
      rw [hphase] at this
      contradiction
  | @closes k u hphase hu =>
      refine ⟨hquiet (by rw [pendingOffer, hphase]), by simp, ?_⟩
      intro i w' hw' hclosed
      have hle : i < k + 1 := of_decide_eq_true hclosed
      rcases getElem?_set_cases hu hw' with ⟨rfl, rfl⟩ | ⟨hki, -⟩
      · rfl
      · apply hkept i w' hw'
        rw [hphase]
        exact decide_eq_true (by omega)
  | @ends k hphase hnone =>
      refine ⟨hquiet (by rw [pendingOffer, hphase]), by simp, ?_⟩
      intro i w hw _
      -- There is no worker at `k`, so all of them stand before it.
      have hlt := (List.getElem?_eq_some_iff.mp hw).1
      have hle := List.getElem?_eq_none_iff.mp hnone
      apply hkept i w hw
      rw [hphase]
      exact decide_eq_true (Nat.lt_of_lt_of_le hlt hle)

theorem drains_run {inbound queue : Nat} (sound : ∀ t, succeeds process t = true)
    (run : Run (act? process) (launch n inbound queue) past s) : Drains past s := by
  induction run with
  | start => exact drains_start
  | @snoc past now next act run step ih =>
      by_cases hact : act = .step .scheduler
      · subst hact
        cases stepped_of_act? step with
        | scheduler hdealt => exact ih.scheduler (deals_run run) sound hdealt step
      · exact ih.other hact step

/-! ## What a run comes to -/

/-- A worker that has ended has had everything processed that was offered to it. -/
theorem Served.ended {offers done : List Ticket} (served : Served process s w offers done)
    (sound : ∀ t, succeeds process t = true) (hphase : w.phase = .ended)
    (counted : w.processed + w.phase.uncounted = done.countP (succeeds process)) :
    done = offers ∧ w.processed = done.length ∧ w.queue.items = [] ∧
      s.scheduler.phase.isClosing = true := by
  obtain ⟨held, hheld, hoffers, hclosing, hended⟩ := served.sound sound
  obtain ⟨hempty, hclosed⟩ := hended hphase
  rw [hphase] at hheld counted
  cases hheld
  rw [hempty, List.append_nil, List.append_nil] at hoffers
  have hall : done.countP (succeeds process) = done.length :=
    List.countP_eq_length.mpr fun t _ => sound t
  exact ⟨hoffers.symm, counted.trans hall, hempty, hclosing hclosed⟩

/-- A worker has processed a beginning of what was offered to it. -/
theorem Served.begun {offers done : List Ticket} (served : Served process s w offers done)
    (sound : ∀ t, succeeds process t = true) : done <+: offers := by
  obtain ⟨held, -, hoffers, -⟩ := served.sound sound
  rw [hoffers, List.append_assoc]
  exact List.prefix_append _ _

/-- The workers' counters together count what is in their shares. -/
theorem totalProcessed_eq {shares : Nat → List Ticket} (size : s.workers.length = n)
    (counts : ∀ i w, s.workers[i]? = some w → w.processed = (shares i).length) :
    s.totalProcessed = ((List.range n).flatMap shares).length := by
  have hcounts : s.workers.map (·.processed) = (List.range n).map fun i => (shares i).length := by
    apply List.ext_getElem?
    intro i
    rw [List.getElem?_map, List.getElem?_map]
    by_cases hi : i < n
    · have hw := List.getElem?_eq_getElem (size ▸ hi)
      rw [hw, List.getElem?_range hi, Option.map_some, Option.map_some, counts i _ hw]
    · have hworker : s.workers[i]? = none := List.getElem?_eq_none_iff.mpr (by omega)
      have hrange : (List.range n)[i]? = none := by
        rw [List.getElem?_eq_none_iff, List.length_range]
        omega
      rw [hworker, hrange]
      rfl
  rw [totalProcessed, hcounts, List.length_flatMap]
  rfl

/-- Once a stop has been seen, a pool that can do nothing has ended. -/
theorem Drains.settled (drains : Drains past s) (deals : Deals process n past s)
    (positive : 0 < n) (room : s.events.hasRoom = true) (stopping : s.isStopping = true)
    (scheduler : s.schedulerStep? = none) (workers : ∀ i, s.workerStep? process i = none) :
    s.scheduler.phase = .ended ∧ ∀ w ∈ s.workers, w.phase = .ended := by
  have hended : s.scheduler.phase = .ended := by
    have hwaits := scheduler_waits scheduler
    have hoffer := deals.no_offer positive room scheduler workers
    rw [isStopping, Bool.or_eq_true] at stopping
    cases hphase : s.scheduler.phase with
    | idle => exact absurd hphase drains.started
    | selecting =>
        rw [hphase] at hwaits stopping
        rw [hwaits.1] at stopping
        rcases stopping with h | h <;> contradiction
    | sending i t =>
        rw [pendingOffer, hphase] at hoffer
        contradiction
    | closing i =>
        rw [hphase] at hwaits
        exact hwaits.elim
    | ended => rfl
  refine ⟨hended, ?_⟩
  intro w hmem
  obtain ⟨i, hw⟩ := List.mem_iff_getElem?.mp hmem
  have hclosed := drains.shut i w hw (by rw [hended]; rfl)
  rcases ((deals.served i w hw).waits hw room (workers i)).1 with hreceiving | hphase
  · -- A worker does not wait at a closed queue.
    have hwaits := worker_waits hw (workers i)
    rw [hreceiving, hclosed] at hwaits
    exact absurd hwaits.2.symm Bool.false_ne_true
  · exact hphase

/-! ## How long the pool takes -/

/-- The steps that the scheduler and the workers still have to take for a stop. -/
def due (s : Service) : Nat :=
  s.scheduler.phase.due s.workers.length + total (s.workers.map Worker.due)

/-- Every step of a worker that meets no fault is one less. -/
theorem Worked.due {cs : List Connection} {told : List Event}
    (step : Worked process s w w' cs told) (unharmed : w.phase.held ≠ none)
    (sound : ∀ t, succeeds process t = true) : w'.due + 1 = w.due := by
  unfold Worker.due
  cases step with
  | takes hphase hitems =>
      rw [hphase, hitems]
      simp only [Worker.Phase.due, List.length_cons]
      omega
  | leaves hphase | answers hphase | delivers hphase =>
      rw [hphase]
      rfl
  | @faults t hphase hr =>
      have hgood := sound t
      rw [succeeds, hr] at hgood
      contradiction
  | cutsOff hphase | reports hphase | unheard hphase | closes hphase | drains hphase
  | ends hphase => exact absurd (by rw [hphase]; rfl) unharmed

/-- Every step of a scheduler that is to stop is one less; a ticket it sends makes up for the
steps of the worker that gets it. -/
theorem Dealt.due (dealt : Dealt s s') (stopping : s.isStopping = true) : s'.due + 1 ≤ s.due := by
  unfold Service.due
  cases dealt with
  | stops hphase | runsDry hphase =>
      rw [hphase]
      simp only [Scheduler.Phase.due]
      omega
  | takes hphase hgoing =>
      rw [isStopping, hgoing, hphase] at stopping
      contradiction
  | @sends k t u hphase hu =>
      have hmore : ({ u with queue := { u.queue with items := u.queue.items ++ [t] } } :
          Worker).due = u.due + 3 := by
        simp only [Worker.due, List.length_append, List.length_singleton]
        omega
      have htotal := total_set hu
        { u with queue := { u.queue with items := u.queue.items ++ [t] } } Worker.due
      rw [hmore] at htotal
      rw [hphase, List.length_set]
      dsimp only [Scheduler.Phase.due] at htotal ⊢
      omega
  | refuses hphase =>
      rw [hphase]
      simp only [Scheduler.Phase.due]
      omega
  | @closes k u hphase hu =>
      have hsame : ({ u with queue := u.queue.close } : Worker).due = u.due := rfl
      have htotal := total_set hu { u with queue := u.queue.close } Worker.due
      have hlt := (List.getElem?_eq_some_iff.mp hu).1
      rw [hsame] at htotal
      rw [hphase, List.length_set]
      simp only [Scheduler.Phase.due]
      omega
  | ends hphase =>
      rw [hphase]
      simp only [Scheduler.Phase.due]
      omega

/-- The steps that the scheduler and the workers take. -/
def poolSteps (past : List (Moment Service Act)) : Nat := past.countP (·.act.isOfPool)

theorem due_step {inbound queue : Nat} (sound : ∀ t, succeeds process t = true)
    (run : Run (act? process) (launch n inbound queue) past s) (stopping : s.isStopping = true)
    (step : s.act? process act = some s') :
    poolSteps [⟨s, act, s'⟩] + s'.due ≤ s.due := by
  by_cases hpool : act.isOfPool = true
  · have hone : poolSteps [⟨s, act, s'⟩] = 1 := by simp [poolSteps, hpool]
    rw [hone, Nat.add_comm]
    cases act with
    | step thread =>
        cases stepped_of_act? step with
        | @worker i w w' _ _ hw hworked =>
            obtain ⟨held, hheld, -⟩ := ((deals_run run).served i w hw).sound sound
            have hless := hworked.due (by rw [hheld]; nofun) sound
            have htotal := total_set hw w' Worker.due
            rw [Service.due, Service.due, afterWorker, List.length_set]
            dsimp only
            omega
        | scheduler hdealt => exact hdealt.due stopping
        | _ => contradiction
    | _ => contradiction
  · have hnone : poolSteps [⟨s, act, s'⟩] = 0 := by simp [poolSteps, hpool]
    obtain ⟨hworkers, hscheduler⟩ := pool_unchanged (eq_false_of_ne_true hpool) step
    rw [hnone, Nat.zero_add, Service.due, Service.due, hworkers, hscheduler]

/-- Once a stop has been seen, the pool takes no more steps than it has still to take. -/
theorem due_run {inbound queue : Nat} (sound : ∀ t, succeeds process t = true)
    (run : Run (act? process) (launch n inbound queue) past s) (stopping : s.isStopping = true)
    (rest : Run (act? process) s later s') : poolSteps later + s'.due ≤ s.due := by
  induction rest with
  | start => exact Nat.le_of_eq (Nat.zero_add _)
  | @snoc later now next act rest step ih =>
      have hstep := due_step sound (run.append rest) (cut_off rest stopping).1 step
      have hsplit : poolSteps (later ++ [⟨now, act, next⟩]) =
          poolSteps later + poolSteps [⟨now, act, next⟩] := List.countP_append
      rw [hsplit]
      omega

/-- **A stop drains the pool and cuts off what comes later.** Along every run in which nobody
else takes tickets off the inbound channel and no processing fails, what has entered that
channel is what the scheduler has taken, followed by what is still there. From the moment a
stop lies ready, be it sent or the stop channel closed, nothing more is taken, so nothing
after the select that sees it; and the pool takes only so many more steps, after which it has
ended. A scheduler that has ended has closed all queues. Once the workers have ended, they
have processed what the scheduler has taken, each its share in order; nothing is left in
their queues, and the counters agree. -/
theorem stop_cuts_off_and_drains {inbound queue : Nat} (positive : 0 < n)
    (sound : ∀ t, succeeds process t = true)
    (run : Run (act? process) (launch n inbound queue) past s)
    (kept : ∀ m ∈ past, m.act ≠ .withdraw) :
    entered past = taken past ++ s.inbound.items ∧
    (∀ i, i < n → calls i past <+: dealtTo i (deal n (taken past))) ∧
    (∀ earlier m later, past = earlier ++ m :: later → m.before.isStopping = true →
      taken past = taken earlier ∧ poolSteps (m :: later) ≤ m.before.due) ∧
    (s.isStopping = true → s.schedulerStep? = none → (∀ i, s.workerStep? process i = none) →
      s.scheduler.phase = .ended ∧ ∀ w ∈ s.workers, w.phase = .ended) ∧
    (s.scheduler.phase = .ended → ∀ w ∈ s.workers, w.queue.closed = true) ∧
    ((∀ w ∈ s.workers, w.phase = .ended) →
      (called past).Perm (taken past) ∧
      (∀ i, i < n → calls i past = dealtTo i (deal n (taken past))) ∧
      s.totalProcessed = s.scheduler.dispatched ∧
      s.scheduler.dispatched = (taken past).length ∧
      ∀ w ∈ s.workers, w.queue.items = []) := by
  have deals := deals_run run
  have drains := drains_run sound run
  have hworker (i : Nat) (hi : i < n) : ∃ w, s.workers[i]? = some w :=
    ⟨_, List.getElem?_eq_getElem (deals.size ▸ hi)⟩
  refine ⟨entered_eq run kept, ?_, ?_, ?_, ?_, ?_⟩
  · intro i hi
    obtain ⟨w, hw⟩ := hworker i hi
    have hbegun := (deals.served i w hw).begun sound
    rw [← deals.offers, dealtTo_append]
    exact hbegun.trans (List.prefix_append _ _)
  · rintro earlier m later rfl stopping
    obtain ⟨hbefore, hafter⟩ := run.split
    have hnone := (cut_off hafter stopping).2
    have hdue := due_run sound hbefore stopping hafter
    constructor
    · rw [taken, List.flatMap_append]
      rw [taken] at hnone
      rw [hnone, List.append_nil]
      rfl
    · omega
  · intro stopping hscheduler hworkers
    exact drains.settled deals positive (events_unbounded run) stopping hscheduler hworkers
  · intro hended w hmem
    obtain ⟨i, hw⟩ := List.mem_iff_getElem?.mp hmem
    exact drains.shut i w hw (by rw [hended]; rfl)
  · intro hended
    have hshare (i : Nat) (w : Worker) (hw : s.workers[i]? = some w) :=
      (deals.served i w hw).ended sound (hended w (List.mem_of_getElem? hw))
        (deals.counted i w hw)
    have hoffered : offered past = deal n (taken past) := by
      -- Some worker has seen its queue closed, so the scheduler is on its way out.
      obtain ⟨w, hw⟩ := hworker 0 positive
      have hclosing := (hshare 0 w hw).2.2.2
      have hnone : s.pendingOffer = [] := by
        unfold pendingOffer
        split
        · rename_i hphase
          rw [hphase] at hclosing
          contradiction
        · rfl
      rw [← deals.offers, hnone, List.append_nil]
    have hcalls (i : Nat) (hi : i < n) : calls i past = dealtTo i (deal n (taken past)) := by
      obtain ⟨w, hw⟩ := hworker i hi
      rw [← hoffered]
      exact (hshare i w hw).1
    have hperm : (called past).Perm (taken past) := by
      refine (calls_perm run).symm.trans ?_
      rw [List.flatMap_congr fun i hi => hcalls i (List.mem_range.mp hi)]
      exact deal_perm positive (taken past)
    have hdispatched : s.scheduler.dispatched = (taken past).length := by
      rw [drains.sent, hoffered, deal, List.length_mapIdx]
    refine ⟨hperm, hcalls, ?_, hdispatched, ?_⟩
    · rw [hdispatched, totalProcessed_eq deals.size fun i w hw => (hshare i w hw).2.1,
        (calls_perm run).length_eq, hperm.length_eq]
    · intro w hmem
      obtain ⟨i, hw⟩ := List.mem_iff_getElem?.mp hmem
      exact (hshare i w hw).2.2.1

/-- Two workers, and a stop that comes while the scheduler has the second of three tickets in
hand; a fourth one enters after it. The first two are processed, the others stay. -/
theorem stop_cuts_off_and_drains_second_in_hand :
    ∃ (process : Processing) (ts : List Ticket) (past : List (Moment Service Act)) (s : Service),
      Run (act? process) (launch 2 0 0) past s ∧ 0 < 2 ∧ (∀ t, succeeds process t = true) ∧
      (∀ m ∈ past, m.act ≠ .withdraw) ∧ ts.length = 4 ∧ entered past = ts ∧
      taken past ++ s.inbound.items = ts ∧ s.inbound.items.length = 2 ∧
      (called past).Perm (taken past) ∧ s.totalProcessed = 2 ∧
      ∀ w ∈ s.workers, w.queue.items = [] ∧ w.queue.closed = true := by
  let process : Processing := fun t => (.answer (.ok t.request.id), [])
  let ticket (sequence : Nat) : Ticket :=
    { sequence, request := ⟨0, .create⟩, connection := some 0 }
  let ts : List Ticket := [ticket 0, ticket 1, ticket 2, ticket 3]
  let deals : Act := .step .scheduler
  let works (i : Nat) : Act := .step (.worker i)
  have hrun : (perform? (act? process) (launch 2 0 0)
      ([.accept, .submit (ticket 0), .submit (ticket 1), .submit (ticket 2), deals, deals, deals,
        .sendStop, .submit (ticket 3), deals, works 1, deals, works 0, works 0, deals, works 1,
        deals, deals] ++ [works 0, works 0, works 1, works 1])).map
      (fun p => decide (p.1.all (fun m => m.act ≠ .withdraw) = true ∧ entered p.1 = ts ∧
        p.2.inbound.items.length = 2 ∧ p.2.scheduler.phase = .ended ∧
        p.2.workers.all (fun w => w.phase = .ended) = true)) = some true := by decide +kernel
  obtain ⟨⟨past, s⟩, hperform, hshows⟩ := Option.map_eq_some_iff.mp hrun
  rw [decide_eq_true_iff] at hshows
  obtain ⟨hkept, hentered, hleft, hscheduler, hworkers⟩ := hshows
  have run := Run.of_perform? hperform
  have hacts : ∀ m ∈ past, m.act ≠ .withdraw := fun m hm =>
    of_decide_eq_true (List.all_eq_true.mp hkept m hm)
  have hended : ∀ w ∈ s.workers, w.phase = .ended := fun w hw =>
    of_decide_eq_true (List.all_eq_true.mp hworkers w hw)
  obtain ⟨hqueued, -, -, -, hclosed, hdrained⟩ :=
    stop_cuts_off_and_drains (Nat.zero_lt_succ 1) (fun _ => rfl) run hacts
  obtain ⟨hperm, -, htotal, hdispatched, hempty⟩ := hdrained hended
  have hlength := congrArg List.length (hqueued.symm.trans hentered)
  rw [List.length_append, hleft] at hlength
  refine ⟨process, ts, past, s, run, by decide, fun _ => rfl, hacts, rfl, hentered,
    hqueued.symm.trans hentered, hleft, hperm, ?_, ?_⟩
  · rw [htotal, hdispatched]
    exact Nat.add_right_cancel hlength
  · exact fun w hw => ⟨hempty w hw, hclosed hscheduler w hw⟩

end Service

end SearchDaemon
