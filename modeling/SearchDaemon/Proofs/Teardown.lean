import SearchDaemon.Proofs.WindingDown

/-!
# Stopping a service in any order

The thread that stops a service and the threads of the service take their steps in any order.
`Winds` is what holds of all of them together, if the service was ready for it: how far the
stopping thread has come says what is done. Every step is on the way to the end, so that
nothing goes on for ever and nobody waits in vain, and at the end every thread has ended and
nothing has been written to anybody.
-/

namespace SearchDaemon

/-! ## Where the stopping thread stands -/

/-- How far it has come. -/
def Stopper.stage : Stopper → Nat
  | .signaling => 0
  | .joiningScheduler => 1
  | .closingStop => 2
  | .closingInbound => 3
  | .taking => 4
  | .telling .. => 5
  | .awaiting _ => 6
  | .aborting .. => 7
  | .joiningHandlers _ => 8
  | .joiningWorkers => 9
  | .closingEvents => 10
  | .joiningMonitor => 11
  | .done => 12

/-- The stage before which it is reached. -/
def Service.Milestone.stage : Service.Milestone → Nat
  | .signaled => 1
  | .halted => 2
  | .taken => 5
  | .workersEnded => 10
  | .unheard => 11
  | .monitorEnded => 12

namespace Teardown

open Service (Milestone WindingDown)

variable {process : Processing} {t t' : Teardown} {s s' : Service} {p p' : Stopper}
  {late : Bool} {journal : Log.Journal} {streams : List Bytes}

/-- One step of anybody, without the log. -/
def act? (process : Processing) (t : Teardown) (actor : Actor) : Option Teardown :=
  (t.step? process actor).map Prod.fst

/-- The clients whose handlers are still to be seen to end. -/
def clients (t : Teardown) : List Nat :=
  match t.stopper with
  | .signaling | .joiningScheduler | .closingStop | .closingInbound | .taking =>
      t.service.monitor.registered
  | .telling clients _ | .awaiting clients | .aborting clients _ | .joiningHandlers clients =>
      clients
  | .joiningWorkers | .closingEvents | .joiningMonitor | .done => []

/-- The clients whose handlers are still to be told to stop. -/
def untold (t : Teardown) : List Nat :=
  match t.stopper with
  | .signaling | .joiningScheduler | .closingStop | .closingInbound | .taking =>
      t.service.monitor.registered
  | .telling _ rest => rest
  | _ => []

/-- What holds while a service is stopped that was ready for it. -/
structure Winds (streams : List Bytes) (t : Teardown) : Prop where
  down : WindingDown t.clients t.untold streams t.service
  reached : ∀ m : Milestone, m.stage ≤ t.stopper.stage → m.Reached t.service

/-- A service that is ready to be wound down is stopped from the beginning. -/
theorem Winds.of_windingDown
    (down : WindingDown s.monitor.registered s.monitor.registered streams s) :
    Winds streams { service := s } where
  down := down
  reached := by rintro ⟨⟩ ⟨⟩

/-! ## Steps -/

/-- The workers have ended, as far as they were started. -/
def WorkersOver (s : Service) : Prop := ∀ w ∈ s.workers, w.phase = .idle ∨ w.phase = .ended

/-- What one step of the stopping thread can come to. -/
inductive Passed (s : Service) : Stopper → Service → Stopper → Prop
  | signals {taken : Bool} {stop : Channel Unit} : s.stop.send? () = some (taken, stop) →
      Passed s .signaling { s with stop } .joiningScheduler
  | unscheduled : s.scheduler.phase = .idle →
      Passed s .joiningScheduler s.closeQueues .closingStop
  | joinsScheduler : s.scheduler.phase = .ended → Passed s .joiningScheduler s .closingStop
  | closesStop : Passed s .closingStop { s with stop := s.stop.close } .closingInbound
  | closesInbound : Passed s .closingInbound { s with inbound := s.inbound.close } .taking
  | takes :
      Passed s .taking { s with monitor := { s.monitor with registered := [] } }
        (.telling s.monitor.registered s.monitor.registered)
  | tells {clients rest : List Nat} {client : Nat} :
      Passed s (.telling clients (client :: rest)) (s.stopHandler (client - 1))
        (.telling clients rest)
  | toldAll {clients : List Nat} : Passed s (.telling clients []) s (.awaiting clients)
  | waits {clients : List Nat} : Passed s (.awaiting clients) s (.aborting clients clients)
  | aborts {clients rest : List Nat} {client : Nat} :
      Passed s (.aborting clients (client :: rest)) (s.abortConnection (some (client - 1))).1
        (.aborting clients rest)
  | abortedAll {clients : List Nat} : Passed s (.aborting clients []) s (.joiningHandlers clients)
  | joinsHandlers {clients : List Nat} : (∀ client ∈ clients, s.handlerEnded client = true) →
      Passed s (.joiningHandlers clients) s .joiningWorkers
  | joinsWorkers : WorkersOver s → Passed s .joiningWorkers s .closingEvents
  | closesEvents : Passed s .closingEvents { s with events := s.events.close } .joiningMonitor
  | joinsMonitor : s.monitor.phase = .idle ∨ s.monitor.phase = .ended →
      Passed s .joiningMonitor s .done

theorem passed_of_stopperStep? (step : stopperStep? ⟨s, p⟩ late = some (t', journal)) :
    Passed s p t'.service t'.stopper := by
  cases p with
  | signaling =>
      obtain ⟨⟨taken, stop⟩, hsend, hafter⟩ := Option.bind_eq_some_iff.mp step
      cases hafter
      exact .signals hsend
  | joiningScheduler =>
      simp only [stopperStep?, goOn] at step
      split at step
      · rename_i hphase
        cases step
        exact .unscheduled hphase
      · rename_i hphase
        cases step
        exact .joinsScheduler hphase
      · contradiction
  | closingStop =>
      cases step
      exact .closesStop
  | closingInbound =>
      cases step
      exact .closesInbound
  | taking =>
      cases step
      exact .takes
  | telling clients rest =>
      cases rest with
      | nil =>
          cases step
          exact .toldAll
      | cons client rest =>
          cases step
          exact .tells
  | awaiting clients =>
      obtain ⟨-, hafter⟩ := Option.ite_none_right_eq_some.mp step
      cases hafter
      exact .waits
  | aborting clients rest =>
      cases rest with
      | nil =>
          cases step
          exact .abortedAll
      | cons client rest =>
          cases step
          exact .aborts
  | joiningHandlers clients =>
      obtain ⟨hended, hafter⟩ := Option.ite_none_right_eq_some.mp step
      cases hafter
      exact .joinsHandlers (List.all_eq_true.mp hended)
  | joiningWorkers =>
      obtain ⟨hover, hafter⟩ := Option.ite_none_right_eq_some.mp step
      cases hafter
      refine .joinsWorkers fun w hw => ?_
      simpa using List.all_eq_true.mp hover w hw
  | closingEvents =>
      cases step
      exact .closesEvents
  | joiningMonitor =>
      simp only [stopperStep?, goOn] at step
      split at step
      · rename_i hphase
        cases step
        exact .joinsMonitor (Or.inl hphase)
      · rename_i hphase
        cases step
        exact .joinsMonitor (Or.inr hphase)
      · contradiction
  | done => contradiction

/-! ## What every step keeps -/

/-- The other threads go on as they do without the stopping one. -/
theorem Winds.thread {thread : Thread} (winds : Winds streams ⟨s, p⟩)
    (step : s.act? process (.step thread) = some s') : Winds streams ⟨s', p⟩ := by
  obtain ⟨hregistered, hreached⟩ := winds.down.keeps step
  have hclients : clients ⟨s', p⟩ = clients ⟨s, p⟩ := by
    cases p <;> first | exact hregistered | rfl
  have huntold : untold ⟨s', p⟩ = untold ⟨s, p⟩ := by
    cases p <;> first | exact hregistered | rfl
  refine ⟨?_, fun m hm => hreached m (winds.reached m hm)⟩
  rw [hclients, huntold]
  exact winds.down.step step

/-- The stopping thread goes on by one stage at most. -/
theorem Winds.pass (winds : Winds streams ⟨s, p⟩)
    (down : WindingDown (clients ⟨s', p'⟩) (untold ⟨s', p'⟩) streams s')
    (kept : ∀ m : Milestone, m.Reached s → m.Reached s') (stage : p'.stage ≤ p.stage + 1)
    (new : ∀ m : Milestone, m.stage = p'.stage → m.Reached s') : Winds streams ⟨s', p'⟩ := by
  refine ⟨down, fun m hm => ?_⟩
  rcases Nat.lt_or_eq_of_le hm with hbefore | hnow
  · exact kept m (winds.reached m (Nat.le_of_lt_succ (Nat.lt_of_lt_of_le hbefore stage)))
  · exact new m hnow

/-- Without a scheduler there are no workers, whose queues could be closed in its place. -/
theorem closeQueues_eq {clients untold : List Nat}
    (down : WindingDown clients untold streams s) (idle : s.scheduler.phase = .idle) :
    s.workers = [] ∧ s.closeQueues = s := by
  have hnone : s.workers = [] := by
    rcases down.scheduler with ⟨-, hnone⟩ | hselecting | hclosing
    · exact hnone
    · rw [idle] at hselecting
      contradiction
    · rw [idle] at hclosing
      contradiction
  refine ⟨hnone, ?_⟩
  rw [Service.closeQueues, hnone, List.map_nil, ← hnone]

theorem reached_stopHandler {i : Nat} {m : Milestone} (reached : m.Reached s) :
    m.Reached (s.stopHandler i) := by
  unfold Service.stopHandler
  split
  · exact reached.congr rfl rfl rfl rfl rfl
  · exact reached

theorem reached_abortConnection {i : Option Nat} {m : Milestone} (reached : m.Reached s) :
    m.Reached (s.abortConnection i).1 := by
  rw [Service.abortConnection_eq]
  exact reached.congr rfl rfl rfl rfl rfl

/-- **What holds is kept by every step of the stopping thread.** -/
theorem Winds.passed (winds : Winds streams ⟨s, p⟩) (passed : Passed s p s' p') :
    Winds streams ⟨s', p'⟩ := by
  cases passed with
  | @signals taken stop hsend =>
      -- The scheduler cannot overlook the stop, be it sent now or closed before.
      have hready : stop.isReady = true ∧ stop.capacity = s.stop.capacity := by
        rcases Service.send?_cases hsend with ⟨-, hclosed, rfl⟩ | ⟨-, -, -, rfl⟩
        · simp [Channel.isReady, hclosed]
        · simp [Channel.isReady]
      have hdown : WindingDown s.monitor.registered s.monitor.registered streams
          { s with stop } := { winds.down with stop := hready.2.trans winds.down.stop }
      refine winds.pass hdown (fun m reached => ?_) (Nat.le_refl _) ?_
      · cases m with
        | signaled => exact fun _ => hready.1
        | _ => exact reached
      · rintro ⟨⟩ ⟨⟩
        exact fun _ => hready.1
  | unscheduled hidle =>
      obtain ⟨hnone, hsame⟩ := closeQueues_eq winds.down hidle
      rw [hsame]
      refine winds.pass winds.down (fun _ => id) (Nat.le_refl _) ?_
      rintro ⟨⟩ ⟨⟩
      exact Or.inl ⟨hidle, hnone⟩
  | joinsScheduler hended =>
      refine winds.pass winds.down (fun _ => id) (Nat.le_refl _) ?_
      rintro ⟨⟩ ⟨⟩
      exact Or.inr hended
  | closesStop =>
      refine winds.pass { winds.down with } (fun m reached => ?_) (Nat.le_refl _) (by rintro ⟨⟩ ⟨⟩)
      cases m with
      | signaled => exact fun _ => by simp [Channel.isReady, Channel.close]
      | _ => exact reached
  | closesInbound =>
      refine winds.pass { winds.down with } (fun m reached => ?_) (Nat.le_refl _) (by rintro ⟨⟩ ⟨⟩)
      exact reached.congr rfl rfl rfl rfl rfl
  | takes =>
      refine winds.pass { winds.down with } (fun m reached => ?_) (Nat.le_refl _) ?_
      · cases m with
        | taken => rfl
        | _ => exact reached
      · rintro ⟨⟩ ⟨⟩
        rfl
  | tells =>
      exact winds.pass winds.down.stopHandler (fun _ => reached_stopHandler) (Nat.le_succ _)
        (fun m hm => reached_stopHandler (winds.reached m hm.le))
  | toldAll => exact winds.pass winds.down (fun _ => id) (Nat.le_refl _) (by rintro ⟨⟩ ⟨⟩)
  | waits => exact winds.pass winds.down (fun _ => id) (Nat.le_refl _) (by rintro ⟨⟩ ⟨⟩)
  | aborts =>
      exact winds.pass (winds.down.abort _) (fun _ => reached_abortConnection)
        (Nat.le_succ _) (by rintro ⟨⟩ ⟨⟩)
  | abortedAll => exact winds.pass winds.down (fun _ => id) (Nat.le_refl _) (by rintro ⟨⟩ ⟨⟩)
  | joinsHandlers hended =>
      have htold (k : Nat) (h : Handler) (hh : s.handlers[k]? = some h) : h.phase = .ended := by
        rcases winds.down.told k h hh with hover | ⟨hlisted, -⟩
        · exact hover
        · have hover := hended _ hlisted
          rw [Service.handlerEnded, Nat.add_sub_cancel, hh] at hover
          simpa using hover
      have hdown : WindingDown [] [] streams s :=
        { winds.down with told := fun k h hh => Or.inl (htold k h hh) }
      exact winds.pass hdown (fun _ => id) (Nat.le_refl _) (by rintro ⟨⟩ ⟨⟩)
  | joinsWorkers hover =>
      refine winds.pass winds.down (fun _ => id) (Nat.le_refl _) ?_
      rintro ⟨⟩ ⟨⟩
      intro w hw
      rcases hover w hw with hidle | hended
      · rcases (winds.down.workers w hw).2 with hreceiving | ⟨hended, -⟩
        · rw [hidle] at hreceiving
          contradiction
        · exact hended
      · exact hended
  | closesEvents =>
      refine winds.pass { winds.down with } (fun m reached => ?_) (Nat.le_refl _) ?_
      · cases m with
        | unheard => rfl
        | _ => exact reached
      · rintro ⟨⟩ ⟨⟩
        rfl
  | joinsMonitor hover =>
      refine winds.pass winds.down (fun _ => id) (Nat.le_refl _) ?_
      rintro ⟨⟩ ⟨⟩
      exact hover

/-! ## Every step is on the way to the end -/

theorem work_stopHandler (s : Service) (i : Nat) : (s.stopHandler i).work = s.work := by
  unfold Service.stopHandler
  split
  · rename_i h hh
    have hsame := Service.map_set_same (b := { h with stopRequested := true }) (·.phase.work) hh rfl
    simp only [Service.work, Service.setHandler, Service.serving, List.map_take, hsame]
  · rfl

theorem work_abortConnection (s : Service) (i : Option Nat) :
    (s.abortConnection i).1.work ≤ s.work := by
  rw [Service.abortConnection_eq]
  have habort := Service.work_abortAt i s.connections
  simp only [Service.work, Service.serving, Service.length_abortAt]
  omega

/-- What is left to do: steps of the stopping thread, and of the others. -/
def price (t : Teardown) : Nat := t.stepsLeft + t.service.work

theorem Passed.stepsLeft (passed : Passed s p s' p') :
    stepsLeft ⟨s', p'⟩ < stepsLeft ⟨s, p⟩ := by
  have hsame : s.closeQueues.monitor = s.monitor := rfl
  cases passed <;> simp only [Teardown.stepsLeft, hsame, List.length_cons, List.length_nil] <;>
    omega

/-- The stopping thread makes no work for the others. -/
theorem Passed.work (passed : Passed s p s' p') : s'.work ≤ s.work := by
  have hqueues : s.closeQueues.work = s.work := by
    have hworkers : (s.closeQueues.workers.map Worker.work) = s.workers.map Worker.work := by
      rw [Service.closeQueues, List.map_map]
      rfl
    have hlength : s.closeQueues.workers.length = s.workers.length := List.length_map _
    rw [Service.work, hworkers, hlength]
    rfl
  cases passed with
  | unscheduled => exact hqueues.le
  | tells => exact (work_stopHandler s _).le
  | aborts => exact work_abortConnection s _
  | _ => exact Nat.le_refl _

theorem Winds.thread_price {thread : Thread} (winds : Winds streams ⟨s, p⟩)
    (step : s.act? process (.step thread) = some s') : price ⟨s', p⟩ < price ⟨s, p⟩ := by
  have hsame : stepsLeft ⟨s', p⟩ = stepsLeft ⟨s, p⟩ := by
    rw [stepsLeft, stepsLeft, (winds.down.keeps step).1]
  have hwork := winds.down.work step
  rw [price, price, hsame]
  exact Nat.add_lt_add_left hwork _

/-- **Every step of anybody keeps what holds and lowers what is left to do.** -/
theorem Winds.step {actor : Actor} (winds : Winds streams t)
    (step : t.act? process actor = some t') : Winds streams t' ∧ t'.price < t.price := by
  obtain ⟨s, p⟩ := t
  obtain ⟨⟨after, journal⟩, hstep, rfl⟩ := Option.map_eq_some_iff.mp step
  cases actor with
  | thread thread =>
      obtain ⟨⟨s', lines⟩, hthread, hafter⟩ := Option.map_eq_some_iff.mp hstep
      cases hafter
      have hact : s.act? process (.step thread) = some s' := by
        rw [Service.act?, hthread]
        rfl
      exact ⟨winds.thread hact, winds.thread_price hact⟩
  | stopper late =>
      have hpassed := passed_of_stopperStep? hstep
      exact ⟨winds.passed hpassed, Nat.add_lt_add_of_lt_of_le hpassed.stepsLeft hpassed.work⟩

theorem Winds.run {past : List (Moment Teardown Actor)} (winds : Winds streams t)
    (run : Run (act? process) t past t') :
    Winds streams t' ∧ past.length + t'.price ≤ t.price := by
  induction run with
  | start => exact ⟨winds, by simp⟩
  | snoc _ step ih =>
      obtain ⟨hwinds, hbefore⟩ := ih
      obtain ⟨hnext, hless⟩ := hwinds.step step
      refine ⟨hnext, ?_⟩
      rw [List.length_append, List.length_singleton]
      omega

/-! ## Nobody waits in vain -/

/-- Who is told to stop has ended, if no thread can do anything. -/
theorem Winds.handlers_ended (winds : Winds streams ⟨s, p⟩) (told : untold ⟨s, p⟩ = [])
    (settled : s.Settled process) : ∀ h ∈ s.handlers, h.phase = .ended := by
  intro h hmem
  obtain ⟨k, hh⟩ := List.mem_iff_getElem?.mp hmem
  have hlt : k < s.connections.length := by
    rw [← winds.down.paired]
    exact (List.getElem?_eq_some_iff.mp hh).1
  have hc := List.getElem?_eq_getElem hlt
  refine ((winds.down.departing k h _ hh hc).gone_of_stuck hh hc ?_ (settled (.handler k 0))
    (settled (.writer k 0))).1
  refine (winds.down.told k h hh).imp_right fun ⟨_, htold⟩ => ?_
  rw [told] at htold
  exact htold.resolve_right List.not_mem_nil

/-- Once the scheduler has ended no worker waits for tickets. -/
theorem Winds.workers_ended (winds : Winds streams ⟨s, p⟩) (halted : Milestone.halted.Reached s)
    (settled : s.Settled process) : ∀ w ∈ s.workers, w.phase = .ended := by
  intro w hmem
  rcases halted with ⟨-, hnone⟩ | hended
  · rw [hnone] at hmem
    contradiction
  · obtain ⟨i, hw⟩ := List.mem_iff_getElem?.mp hmem
    have hclosed := winds.down.shut i w hw (by rw [hended]; rfl)
    rcases (winds.down.workers w hmem).2 with hreceiving | ⟨hphase, -⟩
    · have hstuck := Service.worker_waits hw (settled (.worker i))
      rw [hreceiving, hclosed] at hstuck
      exact absurd hstuck.2.symm Bool.false_ne_true
    · exact hphase

/-- The scheduler does not overlook a stop. -/
theorem Winds.scheduler_halted (winds : Winds streams ⟨s, p⟩)
    (signaled : Milestone.signaled.Reached s) (settled : s.Settled process) :
    s.scheduler.phase = .idle ∨ s.scheduler.phase = .ended := by
  have hwaits := Service.scheduler_waits (settled .scheduler)
  cases hphase : s.scheduler.phase with
  | idle => exact Or.inl rfl
  | ended => exact Or.inr rfl
  | sending => exact absurd hphase winds.down.not_sending
  | selecting =>
      rw [hphase, signaled hphase] at hwaits
      exact absurd hwaits.1.symm Bool.false_ne_true
  | closing =>
      rw [hphase] at hwaits
      exact hwaits.elim

theorem Winds.monitor_ended (winds : Winds streams ⟨s, p⟩)
    (unheard : Milestone.unheard.Reached s) (settled : s.Settled process) :
    s.monitor.phase = .idle ∨ s.monitor.phase = .ended := by
  have hwaits := Service.monitor_waits (settled .monitor)
  rcases winds.down.monitor with hidle | hreceiving | hended
  · exact Or.inl hidle
  · rw [hreceiving, show s.events.closed = true from unheard] at hwaits
    exact absurd hwaits.2.symm Bool.false_ne_true
  · exact Or.inr hended

/-- **Nobody waits in vain**: where the other threads can do nothing, the stopping thread goes
on, if it does not wait for handlers for ever, until it is done. -/
theorem Winds.done_of_stuck (winds : Winds streams ⟨s, p⟩) (settled : s.Settled process)
    (stuck : stopperStep? ⟨s, p⟩ true = none) : p = .done := by
  cases p with
  | done => rfl
  | signaling =>
      have hwaits : s.stop.send? () = none := by
        cases hsend : s.stop.send? () with
        | none => rfl
        | some sent => simp [stopperStep?, hsend, goOn] at stuck
      have hfull := (Service.send?_eq_none hwaits).2
      rw [Channel.hasRoom, winds.down.stop] at hfull
      contradiction
  | joiningScheduler =>
      have hhalted := winds.scheduler_halted (winds.reached .signaled (Nat.le_refl _)) settled
      rcases hhalted with h | h <;> simp [stopperStep?, h, goOn] at stuck
  | telling clients rest => cases rest <;> contradiction
  | aborting clients rest => cases rest <;> contradiction
  | joiningHandlers clients =>
      have hended := winds.handlers_ended rfl settled
      have hall : clients.all s.handlerEnded = true := by
        rw [List.all_eq_true]
        intro client _
        unfold Service.handlerEnded
        cases hh : s.handlers[client - 1]? with
        | none => rfl
        | some h => simpa using hended h (List.mem_of_getElem? hh)
      simp [stopperStep?, hall, goOn] at stuck
  | joiningWorkers =>
      have hended := winds.workers_ended (winds.reached .halted (by simp [Milestone.stage,
        Stopper.stage])) settled
      have hall : (s.workers.all fun w => w.phase = .idle || w.phase = .ended) = true := by
        rw [List.all_eq_true]
        intro w hw
        simp [hended w hw]
      simp [stopperStep?, hall, goOn] at stuck
  | joiningMonitor =>
      have hended := winds.monitor_ended (winds.reached .unheard (Nat.le_refl _)) settled
      rcases hended with h | h <;> simp [stopperStep?, h, goOn] at stuck
  | _ => contradiction

/-- A service that is being stopped goes on until that is done. -/
theorem Winds.goes_on (process : Processing) (winds : Winds streams t) :
    t.stopper = .done ∨ ∃ actor t', t.act? process actor = some t' := by
  obtain ⟨s, p⟩ := t
  by_contra hstuck
  rw [not_or, not_exists] at hstuck
  obtain ⟨hgoing, hnone⟩ := hstuck
  have hwaits (actor : Actor) : step? process ⟨s, p⟩ actor = none := by
    cases hstep : step? process ⟨s, p⟩ actor with
    | none => rfl
    | some after => exact absurd ⟨after.1, by rw [act?, hstep]; rfl⟩ (hnone actor)
  have hsettled : s.Settled process := fun thread =>
    Option.map_eq_none_iff.mp (hwaits (.thread thread))
  exact hgoing (winds.done_of_stuck hsettled (hwaits (.stopper true)))

/-! ## The end -/

/-- A service in which every thread has ended. -/
structure WoundDown (streams : List Bytes) (s : Service) : Prop where
  workers : ∀ w ∈ s.workers, w.phase = .ended ∧ w.queue.closed = true ∧ w.queue.items = []
  scheduler : s.scheduler.phase = .idle ∧ s.workers = [] ∨ s.scheduler.phase = .ended
  handlers : ∀ h ∈ s.handlers, h.phase = .ended
  writers : ∀ c ∈ s.connections, c.writer.isRunning = false
  monitor : s.monitor.phase = .idle ∨ s.monitor.phase = .ended
  registered : s.monitor.registered = []
  streams : s.connections.map (·.written) = streams

/-- **At the end every thread has ended**, and nothing has been written to anybody. -/
theorem Winds.wound_down (winds : Winds streams ⟨s, .done⟩) : WoundDown streams s := by
  have hreached (m : Milestone) : m.Reached s :=
    winds.reached m (by cases m <;> simp [Milestone.stage, Stopper.stage])
  have hended (k : Nat) (h : Handler) (hh : s.handlers[k]? = some h) : h.phase = .ended := by
    rcases winds.down.told k h hh with hover | ⟨hlisted, -⟩
    · exact hover
    · exact absurd hlisted List.not_mem_nil
  refine ⟨?_, hreached .halted, ?_, ?_, hreached .monitorEnded, hreached .taken,
    winds.down.streams⟩
  · intro w hw
    have hphase := hreached .workersEnded w hw
    obtain ⟨hempty, hreceiving | ⟨-, hclosed⟩⟩ := winds.down.workers w hw
    · rw [hphase] at hreceiving
      contradiction
    · exact ⟨hphase, hclosed, hempty⟩
  · intro h hmem
    obtain ⟨k, hh⟩ := List.mem_iff_getElem?.mp hmem
    exact hended k h hh
  · intro c hmem
    obtain ⟨k, hc⟩ := List.mem_iff_getElem?.mp hmem
    have hlt : k < s.handlers.length := by
      rw [winds.down.paired]
      exact (List.getElem?_eq_some_iff.mp hc).1
    have hh := List.getElem?_eq_getElem hlt
    cases winds.down.departing k _ c hh hc with
    | gone _ hquiet => exact hquiet
    | reads hphase | finishes hphase | joins hphase =>
        rw [hended k _ hh] at hphase
        contradiction

/-! ## One order -/

/-- What the threads of the service do without the stopping one, they do beside it, and leave
it as many steps as before. -/
theorem Winds.run_of_steps {past : List (Moment Service Service.Act)}
    (winds : Winds streams ⟨s, p⟩) (run : Run (Service.act? process) s past s')
    (steps : ∀ m ∈ past, m.act.isStep = true) :
    (∃ later, Run (Teardown.act? process) ⟨s, p⟩ later ⟨s', p⟩) ∧
      stepsLeft ⟨s', p⟩ = stepsLeft ⟨s, p⟩ := by
  induction run with
  | start => exact ⟨⟨[], .start⟩, rfl⟩
  | @snoc past now next act _ step ih =>
      obtain ⟨⟨later, hrun⟩, hleft⟩ := ih fun m hm => steps m (List.mem_append_left _ hm)
      have hact := steps _ (List.mem_append_right _ (List.mem_singleton_self _))
      cases act with
      | step thread =>
          have hkept := ((winds.run hrun).1.down.keeps step).1
          obtain ⟨⟨next, lines⟩, hstep, rfl⟩ := Option.map_eq_some_iff.mp step
          have hbeside : Teardown.act? process ⟨now, p⟩ (.thread thread) = some ⟨next, p⟩ := by
            rw [Teardown.act?, step?, hstep]
            rfl
          refine ⟨⟨_, hrun.snoc hbeside⟩, ?_⟩
          rw [← hleft, stepsLeft, stepsLeft, hkept]
      | _ => contradiction

theorem run_of_stopperStep? (step : t.stopperStep? late = some (t', journal)) :
    Run (act? process) t ([] ++ [⟨t, .stopper late, t'⟩]) t' :=
  Run.start.snoc (by rw [act?, step?, step]; rfl)

theorem finishWithin_run {steps : Nat} (winds : Winds streams t)
    (enough : t.stepsLeft ≤ steps) :
    ∃ past, Run (act? process) t past (finishWithin process steps t journal).1 ∧
      (finishWithin process steps t journal).1.stopper = .done := by
  induction steps generalizing t journal with
  | zero =>
      obtain ⟨s, p⟩ := t
      rw [finishWithin]
      refine ⟨[], .start, ?_⟩
      cases p <;> first | rfl | simp [stepsLeft] at enough
  | succ steps ih =>
      rw [finishWithin]
      -- Every step of the stopping thread costs one of those allowed.
      have hgoes {t t' : Teardown} {late : Bool} {lines : Log.Journal} (winds : Winds streams t)
          (enough : t.stepsLeft ≤ steps + 1) (h : t.stopperStep? late = some (t', lines))
          (journal : Log.Journal) :
          ∃ past, Run (act? process) t past (finishWithin process steps t' journal).1 ∧
            (finishWithin process steps t' journal).1.stopper = .done := by
        have hpassed := passed_of_stopperStep? h
        have hless : t'.stepsLeft < t.stepsLeft := hpassed.stepsLeft
        obtain ⟨past, hrun, hdone⟩ := @ih t' journal (winds.passed hpassed)
          (show t'.stepsLeft ≤ steps by omega)
        exact ⟨_, (run_of_stopperStep? h).append hrun, hdone⟩
      split
      · rename_i t' lines hstep
        exact hgoes winds enough hstep _
      · obtain ⟨past, hrun, hsteps, hsettled⟩ := Service.settle_run process t.service
        generalize t.service.settle process = settled at hrun hsettled ⊢
        obtain ⟨s', worked⟩ := settled
        obtain ⟨⟨later, hrun⟩, hsame⟩ := winds.run_of_steps hrun hsteps
        have hwinds := (winds.run hrun).1
        dsimp only
        split
        · rename_i t' lines hstep
          obtain ⟨more, hrest, hdone⟩ :=
            hgoes hwinds (hsame.le.trans enough) hstep (journal ++ worked ++ lines)
          exact ⟨_, hrun.append hrest, hdone⟩
        · rename_i hstuck
          exact ⟨_, hrun, hwinds.done_of_stuck hsettled hstuck⟩

/-- **Letting the stopping thread go first is one of the orders**, and it comes to the end. -/
theorem finish_run (process : Processing) (winds : Winds streams t) :
    ∃ past, Run (act? process) t past (t.finish process).1 ∧
      (t.finish process).1.stopper = .done :=
  finishWithin_run winds (Nat.le_refl _)

end Teardown

end SearchDaemon
