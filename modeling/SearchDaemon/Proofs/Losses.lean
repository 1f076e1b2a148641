import SearchDaemon.Proofs.Accounting

/-!
# Losing the workers

A worker that meets a fault says so, once, and the monitor decides from the number of such
reports whether the service is of any use. `Toll` ties the reports to the workers: each has
made one report or none, by what it has been through, and the monitor has asked for a
shutdown just when it has counted as many as there are workers.
-/

namespace SearchDaemon

/-- What a worker has told of itself. -/
def Worker.report (w : Worker) : List Event :=
  if w.hasReported then [.workerDied w.index] else []

namespace Service

/-! ## Observations -/

/-- What the worker at a position tells the monitor. -/
def toldIn (i : Nat) (m : Moment Service Act) : List Event :=
  if m.act = .step (.worker i) then m.after.events.items.drop m.before.events.items.length
  else []

def toldBy (i : Nat) (past : List (Moment Service Act)) : List Event := past.flatMap (toldIn i)

/-- The worker at a position has been given a ticket that gave no response. -/
def hasFaulted (process : Processing) (past : List (Moment Service Act)) (i : Nat) : Bool :=
  (calls i past).any (!succeeds process ·)

variable {process : Processing} {s s' : Service} {act : Act} {past : List (Moment Service Act)}
  {m : Moment Service Act} {i n : Nat} {w w' : Worker} {told : List Event}

theorem toldBy_snoc : toldBy i (past ++ [m]) = toldBy i past ++ toldIn i m := by
  simp [toldBy]

theorem toldIn_worker {j : Nat} {cs : List Connection} :
    toldIn j ⟨s, .step (.worker i), s.afterWorker i w' cs told⟩ = if i = j then told else [] := by
  by_cases hij : i = j <;> simp [toldIn, hij, afterWorker, Channel.put]

/-! ## Steps -/

theorem Worked.index {cs : List Connection} (step : Worked process s w w' cs told) :
    w'.index = w.index := by
  cases step <;> rfl

theorem eq_of_departures_nil {events : List Event} (h : departures events = []) :
    events = (deaths events).map .workerDied := by
  induction events with
  | nil => rfl
  | cons event events ih =>
      cases event with
      | disconnected => contradiction
      | workerDied worker => exact congrArg _ (ih h)

/-- What a worker tells is added to what it has told. -/
theorem Worked.report {cs : List Connection} {offers done : List Ticket}
    (step : Worked process s w w' cs told) (served : Served process s w offers done)
    (isOpen : s.events.closed = false) : w'.report = w.report ++ told := by
  have hreport (u : Worker) : u.report = (fallen [u]).map .workerDied := by
    rw [fallen_singleton, Worker.report]
    split <;> rfl
  obtain ⟨hdeparts, htells⟩ := step.tells served isOpen
  rw [hreport, hreport, htells, List.map_append, ← eq_of_departures_nil hdeparts]

/-- The scheduler changes nothing about a worker but its queue. -/
theorem Dealt.queue (dealt : Dealt s s') (hw : s'.workers[i]? = some w') :
    ∃ w queue, s.workers[i]? = some w ∧ w' = { w with queue } := by
  have hset {j : Nat} {u : Worker} {queue : Channel Ticket} (hu : s.workers[j]? = some u)
      (h : (s.workers.set j { u with queue })[i]? = some w') :
      ∃ w queue, s.workers[i]? = some w ∧ w' = { w with queue } := by
    rcases getElem?_set_cases hu h with ⟨rfl, rfl⟩ | ⟨-, hold⟩
    · exact ⟨u, queue, hu, rfl⟩
    · exact ⟨w', w'.queue, hold, rfl⟩
  cases dealt with
  | sends _ hu => exact hset hu hw
  | closes _ hu => exact hset hu hw
  | _ => exact ⟨w', w'.queue, hw, rfl⟩

/-! ## The toll -/

/-- What the workers have told, and what the monitor has made of it. -/
structure Toll (past : List (Moment Service Act)) (s : Service) : Prop where
  told : ∀ i w, s.workers[i]? = some w → w.index = i ∧ toldBy i past = w.report
  absent : ∀ i, s.workers[i]? = none → toldBy i past = []
  asked : s.monitor.shutdownRequested = decide (s.workers.length ≤ s.monitor.deadWorkers)

theorem toll_launch {inbound queue : Nat} (positive : 0 < n) :
    Toll [] (launch n inbound queue) := by
  rw [launch_eq]
  refine ⟨?_, fun _ _ => rfl, ?_⟩
  · intro i w hw
    rw [eq_of_getElem?_crew hw]
    exact ⟨rfl, rfl⟩
  · have hsome : ¬(crew n queue).length ≤ 0 := by
      rw [crew, List.length_map, List.length_range]
      omega
    exact (decide_eq_false hsome).symm

/-- An act of anybody but a worker. -/
theorem Toll.other (toll : Toll past s) (nobody : ∀ i, act ≠ .step (.worker i))
    (size : s'.workers.length = s.workers.length)
    (workers : ∀ (i : Nat) (w' : Worker), s'.workers[i]? = some w' →
      ∃ w, s.workers[i]? = some w ∧ w'.index = w.index ∧ w'.report = w.report)
    (asked : s'.monitor.shutdownRequested =
      decide (s.workers.length ≤ s'.monitor.deadWorkers)) :
    Toll (past ++ [⟨s, act, s'⟩]) s' := by
  have hquiet (i : Nat) : toldBy i (past ++ [⟨s, act, s'⟩]) = toldBy i past := by
    rw [toldBy_snoc, toldIn, if_neg (nobody i), List.append_nil]
  refine ⟨?_, ?_, ?_⟩
  · intro i w' hw'
    obtain ⟨w, hw, hindex, hreport⟩ := workers i w' hw'
    rw [hquiet, hindex, hreport]
    exact toll.told i w hw
  · intro i hnone
    rw [hquiet]
    apply toll.absent
    rwa [List.getElem?_eq_none_iff, size, ← List.getElem?_eq_none_iff] at hnone
  · rw [asked, size]

/-- A worker does something. -/
theorem Toll.worker {cs : List Connection} (toll : Toll past s) (hw : s.workers[i]? = some w)
    (index : w'.index = w.index) (report : w'.report = w.report ++ told) :
    Toll (past ++ [⟨s, .step (.worker i), s.afterWorker i w' cs told⟩])
      (s.afterWorker i w' cs told) := by
  refine ⟨?_, ?_, ?_⟩
  · intro j u hu
    rw [toldBy_snoc, toldIn_worker]
    rcases getElem?_set_cases hw hu with ⟨rfl, rfl⟩ | ⟨hij, hu⟩
    · rw [if_pos rfl, index, report, (toll.told i w hw).2]
      exact ⟨(toll.told i w hw).1, rfl⟩
    · rw [if_neg hij, List.append_nil]
      exact toll.told j u hu
  · intro j hnone
    have habsent : s.workers[j]? = none := by
      rwa [List.getElem?_eq_none_iff, afterWorker, List.length_set,
        ← List.getElem?_eq_none_iff] at hnone
    have hij : i ≠ j := by
      rintro rfl
      rw [hw] at habsent
      contradiction
    rw [toldBy_snoc, toldIn_worker, if_neg hij, List.append_nil]
    exact toll.absent j habsent
  · show s.monitor.shutdownRequested = _
    rw [toll.asked, afterWorker, List.length_set]

/-- The monitor asks for a shutdown with the report that leaves no worker. -/
theorem Heard.asked (step : Heard s s')
    (before : s.monitor.shutdownRequested =
      decide (s.workers.length ≤ s.monitor.deadWorkers)) :
    s'.monitor.shutdownRequested = decide (s.workers.length ≤ s'.monitor.deadWorkers) := by
  cases step with
  | died =>
      show (_ || _) = _
      rw [before, ← Bool.decide_or]
      apply decide_eq_decide.mpr
      show _ ↔ s.workers.length ≤ s.monitor.deadWorkers + 1
      omega
  | _ => exact before

/-- An act of the clients touches neither the workers nor what the monitor counts of them. -/
theorem monitor_kept (others : act.isOrdinary = true) (notStep : ∀ thread, act ≠ .step thread)
    (step : s.act? process act = some s') :
    s'.monitor.shutdownRequested = s.monitor.shutdownRequested ∧
      s'.monitor.deadWorkers = s.monitor.deadWorkers := by
  cases act with
  | accept capacity =>
      cases step
      rw [accept_eq]
      rcases (s.welcomed capacity).startHandler_cases s.connections.length with
        heq | ⟨_, _, -, -, heq⟩ <;> rw [heq] <;> exact ⟨rfl, rfl⟩
  | step thread => exact absurd rfl (notStep thread)
  | clientWrites | clientFinishes | clientReads | clientCloses =>
      cases step
      exact ⟨rfl, rfl⟩
  | _ => contradiction

theorem toll_run {inbound queue : Nat} (positive : 0 < n)
    (run : Run (act? process) (launch n inbound queue) past s)
    (ordinary : ∀ m ∈ past, m.act.isOrdinary = true) : Toll past s := by
  induction run with
  | start => exact toll_launch positive
  | @snoc past now next act run step ih =>
      have hpast : ∀ m ∈ past, m.act.isOrdinary = true :=
        fun m hm => ordinary m (List.mem_append_left _ hm)
      have hact : act.isOrdinary = true :=
        ordinary _ (List.mem_append_right _ (List.mem_singleton_self _))
      have toll := ih hpast
      -- Where the workers are as before, only what the monitor does is of interest.
      have hsame (notWorker : ∀ i, act ≠ .step (.worker i)) (workers : next.workers = now.workers)
          (asked : next.monitor.shutdownRequested =
            decide (now.workers.length ≤ next.monitor.deadWorkers)) :
          Toll (past ++ [⟨now, act, next⟩]) next :=
        toll.other notWorker (by rw [workers])
          (fun i w hw => ⟨w, by rwa [workers] at hw, rfl, rfl⟩) asked
      by_cases hthread : ∃ thread, act = .step thread
      · obtain ⟨thread, rfl⟩ := hthread
        cases stepped_of_act? step with
        | worker hw hworked =>
            obtain ⟨heard, ledger⟩ := ledger_run run hpast
            exact toll.worker hw hworked.index
              (hworked.report ((deals_run run).served _ _ hw) ledger.isOpen)
        | scheduler hdealt =>
            refine toll.other (by exact nofun) hdealt.size ?_ ?_
            · intro i w' hw'
              obtain ⟨w, queue, hw, rfl⟩ := hdealt.queue hw'
              exact ⟨w, hw, rfl, rfl⟩
            · cases hdealt <;> exact toll.asked
        | monitor =>
            obtain ⟨⟨after, journal⟩, hstep, hafter⟩ := Option.map_eq_some_iff.mp step
            have hheard := heard_of_monitorStep? hstep
            cases hafter
            exact hsame (by exact nofun) (pool_unchanged rfl step).1 (hheard.asked toll.asked)
        | writer => exact hsame (by exact nofun) rfl toll.asked
        | handler => exact hsame (by exact nofun) rfl toll.asked
      · have hnot (thread : Thread) : act ≠ .step thread := fun h => hthread ⟨thread, h⟩
        obtain ⟨hshutdown, hdead⟩ := monitor_kept hact hnot step
        have hpool : act.isOfPool = false := by
          cases act with
          | step thread => exact absurd rfl (hnot thread)
          | _ => rfl
        refine hsame (fun i => hnot _) (pool_unchanged hpool step).1 ?_
        rw [hshutdown, hdead]
        exact toll.asked

/-! ## Once nothing can be done -/

/-- A worker that waits or has ended has told of its fault if it has met one. -/
theorem hasReported_of_waits (waits : w.phase = .receiving ∨ w.phase = .ended) :
    w.hasReported = w.dead := by
  rcases waits with h | h <;> rw [Worker.hasReported, h, Bool.and_true]

/-- A worker is dead if one of its calls has failed. -/
theorem Served.dead_iff {offers done : List Ticket} (served : Served process s w offers done) :
    w.dead = done.any (!succeeds process ·) := by
  cases served with
  | alive halive _ hdone =>
      rw [halive, eq_comm, List.any_eq_false]
      intro t ht
      rw [hdone t ht]
      exact Bool.false_ne_true
  | @dead good rest fatal hdead _ _ hfatal =>
      rw [hdead, eq_comm, List.any_append, List.any_cons, hfatal, List.any_nil]
      exact Bool.or_true _

/-- Workers that stand in the order of their numbers. -/
theorem fallen_eq_filter {workers : List Worker} {p : Nat → Bool}
    (each : ∀ i w, workers[i]? = some w → w.index = i ∧ w.hasReported = p i) :
    fallen workers = (List.range workers.length).filter p := by
  have hindex : workers.map (·.index) = List.range workers.length := by
    apply List.ext_getElem (by rw [List.length_map, List.length_range])
    intro i hi hi'
    rw [List.getElem_map, List.getElem_range]
    exact (each i _ (List.getElem?_eq_getElem _)).1
  rw [← hindex, List.filter_map, fallen]
  refine congrArg (List.map fun w : Worker => w.index) (List.filter_congr ?_)
  intro w hw
  obtain ⟨i, hi⟩ := List.mem_iff_getElem?.mp hw
  obtain ⟨rfl, hreported⟩ := each i w hi
  exact hreported

/-- Never are more workers counted dead than there are. -/
theorem Ledger.deadWorkers_le {heard : List Event} (ledger : Ledger heard s) :
    s.monitor.deadWorkers ≤ s.workers.length := by
  have hall := ledger.died.length_eq
  rw [deaths_append, List.length_append, fallen, List.length_map] at hall
  have hsome := s.workers.length_filter_le (·.hasReported)
  rw [ledger.deadWorkers]
  omega

/-- What is known of the dead workers once neither they nor the monitor can do anything. -/
theorem deadWorkers_of_stuck {inbound queue : Nat} (positive : 0 < n)
    (run : Run (act? process) (launch n inbound queue) past s)
    (ordinary : ∀ m ∈ past, m.act.isOrdinary = true) (stuck : s.Stuck process Thread.isInner) :
    s.monitor.deadWorkers = ((List.range n).filter (hasFaulted process past)).length ∧
      ∀ i < n, toldBy i past = if hasFaulted process past i then [.workerDied i] else [] := by
  have deals := deals_run run
  have toll := toll_run positive run ordinary
  obtain ⟨heard, ledger⟩ := ledger_run run ordinary
  have hworker (i : Nat) (w : Worker) (hw : s.workers[i]? = some w) :
      w.index = i ∧ w.hasReported = hasFaulted process past i := by
    have hserved := deals.served i w hw
    obtain ⟨hwaits, -⟩ := hserved.waits hw (events_unbounded run) (stuck.pool.worker i)
    exact ⟨(toll.told i w hw).1, (hasReported_of_waits hwaits).trans hserved.dead_iff⟩
  have hdied := ledger.died.length_eq
  rw [ledger.all_heard stuck.monitor, List.append_nil, fallen_eq_filter hworker,
    deals.size] at hdied
  refine ⟨ledger.deadWorkers.trans hdied, ?_⟩
  intro i hi
  rw [← deals.size] at hi
  have hw := List.getElem?_eq_getElem hi
  obtain ⟨hindex, hreported⟩ := hworker i _ hw
  rw [(toll.told i _ hw).2, Worker.report, hindex, hreported]

end Service

namespace Daemon

open Service (Act act? launch toldBy hasFaulted settled_of_threads)

/-- **A shutdown is asked for when all workers are lost, and not before.** After a successful
start, and as long as only the service's threads and its clients act, no worker reports more
than one fault, and a shutdown has been asked for exactly if as many workers are counted dead
as there are. Whenever scheduler, workers and monitor can do nothing, these are the workers
that have met a fault, whatever the clients and the threads that serve them are doing. -/
theorem shutdown_exactly_on_total_loss {config : Config} {processor : FileTree → Processor}
    {site site' : Site} {d : Daemon} {journal : Log.Journal} {process : Processing} {s : Service}
    {past : List (Moment Service Act)}
    (started : (new config processor).start site = (true, d, site', journal))
    (run : Run (act? process) d.service past s)
    (ordinary : ∀ m ∈ past, m.act.isOrdinary = true) :
    (∀ i, toldBy i past = [] ∨ toldBy i past = [.workerDied i]) ∧
      s.monitor.deadWorkers ≤ config.workers ∧
      (s.monitor.shutdownRequested = true ↔ s.monitor.deadWorkers = config.workers) ∧
      (s.Stuck process Thread.isInner →
        s.monitor.deadWorkers =
          ((List.range config.workers).filter (hasFaulted process past)).length ∧
        ∀ i < config.workers,
          toldBy i past = if hasFaulted process past i then [.workerDied i] else []) := by
  obtain ⟨hpositive, hservice⟩ := service_of_start started
  rw [hservice] at run
  have hsize := (Service.deals_run run).size
  have toll := Service.toll_run hpositive run ordinary
  obtain ⟨heard, ledger⟩ := Service.ledger_run run ordinary
  have hle := ledger.deadWorkers_le
  rw [hsize] at hle
  refine ⟨?_, hle, ?_, Service.deadWorkers_of_stuck hpositive run ordinary⟩
  · intro i
    cases hw : s.workers[i]? with
    | none => exact Or.inl (toll.absent i hw)
    | some w =>
        obtain ⟨hindex, htold⟩ := toll.told i w hw
        rw [htold, Worker.report, hindex]
        cases w.hasReported with
        | false => exact Or.inl rfl
        | true => exact Or.inr rfl
  · rw [toll.asked, hsize, decide_eq_true_iff]
    omega

/-- Two workers, each of which dies of the request of one of two clients. -/
theorem shutdown_exactly_on_total_loss_both_die :
    ∃ (config : Config) (processor : FileTree → Processor) (site site' : Site) (d : Daemon)
      (journal : Log.Journal) (process : Processing) (past : List (Moment Service Act))
      (s : Service),
      (new config processor).start site = (true, d, site', journal) ∧
      Run (act? process) d.service past s ∧ (∀ m ∈ past, m.act.isOrdinary = true) ∧
      s.Settled process ∧ s.monitor.shutdownRequested = true ∧ s.monitor.deadWorkers = 2 ∧
      toldBy 0 past = [.workerDied 0] ∧ toldBy 1 past = [.workerDied 1] := by
  let config : Config := { socketPath := text "/s", pidFile := text "/p", workers := 2 }
  let processor : FileTree → Processor := fun _ => .scripted [] [] []
  let site : Site := { host := {}, process := { pid := 7, vantage := { cwd := [] } } }
  let process : Processing := fun _ => (.fault none, [])
  let asks (id : UInt64) : Bytes := Frame.encode (Message.ofRequest ⟨id, .create⟩).encode
  let handles (i n : Nat) : List Act := List.replicate n (.step (.handler i 100))
  let works (i n : Nat) : List Act := List.replicate n (.step (.worker i))
  let leaves (i : Nat) : List Act := .step (.writer i 0) :: handles i 4
  have hok : ((new config processor).start site).1 = true := by cbv
  have started : (new config processor).start site = (true, _, _, _) := Prod.ext hok rfl
  have hservice := (service_of_start started).2
  have hrun : (perform? (act? process) (launch 2 1024 0)
      ([.accept, .accept, .clientWrites 0 (asks 1), .clientWrites 1 (asks 2)] ++
        handles 0 2 ++ handles 1 2 ++ List.replicate 4 (.step .scheduler) ++
        works 0 6 ++ works 1 6 ++ leaves 0 ++ leaves 1 ++
        List.replicate 6 (.step .monitor))).map
      (fun p => decide (p.1.all (·.act.isOrdinary) = true ∧
        (p.2.threads.all fun thread => (p.2.step? process thread).isNone) = true ∧
        hasFaulted process p.1 0 = true ∧ hasFaulted process p.1 1 = true)) = some true := by
    decide +kernel
  obtain ⟨⟨past, s⟩, hperform, hshows⟩ := Option.map_eq_some_iff.mp hrun
  rw [decide_eq_true_iff] at hshows
  obtain ⟨hordinary, hstuck, hfirst, hsecond⟩ := hshows
  rw [List.all_eq_true] at hordinary hstuck
  have hsettled : s.Settled process :=
    settled_of_threads fun thread h => Option.isNone_iff_eq_none.mp (hstuck thread h)
  have run : Run (act? process) _ past s := Run.of_perform? hperform
  rw [← hservice] at run
  obtain ⟨-, -, hshutdown, hthen⟩ := shutdown_exactly_on_total_loss started run hordinary
  obtain ⟨hdead, htold⟩ := hthen (hsettled.stuck _)
  have hboth : s.monitor.deadWorkers = 2 := by
    rw [hdead]
    simp [config, List.range_succ, hfirst, hsecond]
  have htold0 := htold 0 (Nat.zero_lt_succ 1)
  have htold1 := htold 1 (Nat.lt_succ_self 1)
  rw [hfirst] at htold0
  rw [hsecond] at htold1
  exact ⟨config, processor, site, _, _, _, process, past, s, started, run, hordinary, hsettled,
    hshutdown.mpr hboth, hboth, htold0, htold1⟩

end Daemon

end SearchDaemon
