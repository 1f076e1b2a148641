import Mathlib.Data.List.TakeWhile
import SearchDaemon.Proofs.Tickets

/-!
# Dealing requests to workers

The scheduler offers the tickets it takes to the workers in turn and never skips one,
whether its send is taken or refused. A worker has its own tickets processed in order
until the first fault; from then on every ticket offered to it is lost, be it in its
queue or refused by it. `Served` is the invariant of one worker: what it has been
offered is what it has had processed, what it still has, and what is lost.
-/

namespace SearchDaemon

/-- Processing the ticket gives a response. -/
def succeeds (process : Processing) (t : Ticket) : Bool := (responseTo process t).isSome

/-- Tickets with the workers whose turn they are, among `n`. -/
def deal (n : Nat) (ts : List Ticket) : List (Nat × Ticket) := ts.mapIdx fun k t => (k % n, t)

/-- The tickets dealt to one worker. -/
def dealtTo (w : Nat) (offers : List (Nat × Ticket)) : List Ticket :=
  (offers.filter (·.1 = w)).map Prod.snd

namespace Worker.Phase

/-- What an unharmed worker has taken from its queue and not had processed. -/
def held : Worker.Phase → Option (List Ticket)
  | .receiving | .delivering .. | .ended => some []
  | .processing t => some [t]
  | _ => none

/-- The worker has met a fault. -/
def isDying : Worker.Phase → Bool
  | .failing _ | .reporting | .closing | .draining | .ended => true
  | _ => false

/-- The ticket that is processed by the next step. -/
def processed : Worker.Phase → List Ticket
  | .processing t => [t]
  | _ => []

/-- The responses that are not counted yet. -/
def uncounted : Worker.Phase → Nat
  | .delivering .. => 1
  | _ => 0

end Worker.Phase

/-- The scheduler takes no more tickets. -/
def Scheduler.Phase.isClosing : Scheduler.Phase → Bool
  | .closing _ | .ended => true
  | _ => false

namespace Service

/-! ## Observations of the pool -/

/-- The tickets the scheduler takes from the inbound channel. -/
def takenIn (m : Moment Service Act) : List Ticket :=
  match m.act, m.after.scheduler.phase with
  | .step .scheduler, .sending _ t => [t]
  | _, _ => []

/-- The offers the scheduler makes, whether they are taken or refused. -/
def offeredIn (m : Moment Service Act) : List (Nat × Ticket) :=
  match m.act, m.before.scheduler.phase with
  | .step .scheduler, .sending n t => [(n, t)]
  | _, _ => []

/-- The tickets the worker at a position has processed. -/
def callsIn (i : Nat) (m : Moment Service Act) : List Ticket :=
  match m.act with
  | .step (.worker j) =>
      if j = i then
        match m.before.workers[i]? with
        | some w => w.phase.processed
        | none => []
      else []
  | _ => []

/-- The connections that are aborted. -/
def abortedIn (m : Moment Service Act) : List Nat :=
  (List.range m.after.connections.length).filter fun k =>
    (m.before.connections[k]?).all (!·.aborted) && (m.after.connections[k]?).any (·.aborted)

def taken (past : List (Moment Service Act)) : List Ticket := past.flatMap takenIn

def offered (past : List (Moment Service Act)) : List (Nat × Ticket) := past.flatMap offeredIn

def calls (i : Nat) (past : List (Moment Service Act)) : List Ticket := past.flatMap (callsIn i)

/-- The connections that the scheduler and the workers have aborted, or that all others
have. -/
def abortedBy (pool : Bool) (past : List (Moment Service Act)) : List Nat :=
  past.flatMap fun m => if m.act.isOfPool = pool then abortedIn m else []

/-- The offer the scheduler is about to make. -/
def pendingOffer (s : Service) : List (Nat × Ticket) :=
  match s.scheduler.phase with
  | .sending n t => [(n, t)]
  | _ => []

variable {process : Processing} {s s' : Service} {act : Act} {past : List (Moment Service Act)}
  {m : Moment Service Act} {t : Ticket} {w w' : Worker} {offers done : List Ticket}

@[simp]
theorem taken_snoc : taken (past ++ [m]) = taken past ++ takenIn m := by
  simp [taken]

@[simp]
theorem offered_snoc : offered (past ++ [m]) = offered past ++ offeredIn m := by
  simp [offered]

@[simp]
theorem calls_snoc {i : Nat} : calls i (past ++ [m]) = calls i past ++ callsIn i m := by
  simp [calls]

@[simp]
theorem abortedBy_snoc {pool : Bool} : abortedBy pool (past ++ [m]) =
    abortedBy pool past ++ if m.act.isOfPool = pool then abortedIn m else [] := by
  simp [abortedBy]

theorem dealtTo_append {i : Nat} {offers more : List (Nat × Ticket)} :
    dealtTo i (offers ++ more) = dealtTo i offers ++ dealtTo i more := by
  rw [dealtTo, List.filter_append, List.map_append]
  rfl

theorem dealtTo_singleton {i n : Nat} : dealtTo i [(n, t)] = if n = i then [t] else [] := by
  by_cases h : n = i <;> simp [dealtTo, h]

theorem deal_snoc {n : Nat} {ts : List Ticket} :
    deal n (ts ++ [t]) = deal n ts ++ [(ts.length % n, t)] := by
  rw [deal, List.mapIdx_concat]
  rfl

/-! ## One worker -/

/-- What has become of the tickets offered to a worker, and which of them it has had
processed. -/
inductive Served (process : Processing) (s : Service) (w : Worker) :
    List Ticket → List Ticket → Prop
  | alive {done held : List Ticket} : w.dead = false → w.phase.held = some held →
      (∀ t ∈ done, succeeds process t = true) →
      (w.queue.closed = true → s.scheduler.phase.isClosing = true) →
      (w.phase = .ended → w.queue.items = [] ∧ w.queue.closed = true) →
      Served process s w (done ++ held ++ w.queue.items) done
  | dead {good rest : List Ticket} {fatal : Ticket} : w.dead = true → w.phase.isDying = true →
      (∀ t ∈ good, succeeds process t = true) → succeeds process fatal = false →
      (∀ t ∈ fatal :: rest, t ∈ w.queue.items ∨ w.phase = .failing t ∨ s.Cut t) →
      (∀ t, w.phase = .failing t → t = fatal) → (∀ t ∈ w.queue.items, t ∈ rest) →
      (w.phase = .draining ∨ w.phase = .ended → w.queue.closed = true) →
      (w.phase = .ended → w.queue.items = []) →
      Served process s w (good ++ fatal :: rest) (good ++ [fatal])

theorem Served.kept (served : Served process s w offers done) (cut : ∀ t, s.Cut t → s'.Cut t)
    (closing : s.scheduler.phase.isClosing = true → s'.scheduler.phase.isClosing = true) :
    Served process s' w offers done := by
  cases served with
  | alive halive hheld hdone hclosed hended =>
      exact .alive halive hheld hdone (fun h => closing (hclosed h)) hended
  | dead hdead hdying hgood hfatal hlost hfailing hqueue hshut hended =>
      refine .dead hdead hdying hgood hfatal ?_ hfailing hqueue hshut hended
      intro t ht
      exact (hlost t ht).imp_right fun h => h.imp_right (cut t)

/-- A ticket goes into the worker's queue. -/
theorem Served.sent (served : Served process s w offers done) (t : Ticket)
    (isOpen : w.queue.closed = false) (cut : ∀ t, s.Cut t → s'.Cut t) :
    Served process s' { w with queue := { w.queue with items := w.queue.items ++ [t] } }
      (offers ++ [t]) done := by
  cases served with
  | alive halive hheld hdone hclosed hended =>
      rw [List.append_assoc]
      refine .alive halive hheld hdone ?_ ?_
      · intro h
        rw [show w.queue.closed = true from h] at isOpen
        contradiction
      · intro h
        rw [(hended h).2] at isOpen
        contradiction
  | dead hdead hdying hgood hfatal hlost hfailing hqueue hshut hended =>
      rw [List.append_assoc, List.cons_append]
      refine .dead hdead hdying hgood hfatal ?_ hfailing ?_ hshut ?_
      · intro u hu
        rw [← List.cons_append] at hu
        rcases List.mem_append.mp hu with hu | hu
        · rcases hlost u hu with h | h | h
          · exact Or.inl (List.mem_append_left _ h)
          · exact Or.inr (Or.inl h)
          · exact Or.inr (Or.inr (cut u h))
        · exact Or.inl (List.mem_append_right _ hu)
      · intro u hu
        rcases List.mem_append.mp hu with hu | hu
        · exact List.mem_append_left _ (hqueue u hu)
        · exact List.mem_append_right _ hu
      · intro h
        rw [hshut (Or.inr h)] at isOpen
        contradiction

/-- The worker's queue refuses a ticket. -/
theorem Served.refused (served : Served process s w offers done) {n : Nat}
    (sending : s.scheduler.phase = .sending n t) (closed : w.queue.closed = true)
    (lost : s'.Cut t) (cut : ∀ t, s.Cut t → s'.Cut t) :
    Served process s' w (offers ++ [t]) done ∧
      t ∈ (offers ++ [t]).dropWhile (succeeds process) := by
  cases served with
  | alive halive hheld hdone hclosed hended =>
      have hclosing := hclosed closed
      rw [sending] at hclosing
      contradiction
  | dead hdead hdying hgood hfatal hlost hfailing hqueue hshut hended =>
      rw [List.append_assoc, List.cons_append, List.dropWhile_append_of_pos hgood,
        List.dropWhile_cons_of_neg (by rw [hfatal]; exact Bool.false_ne_true)]
      constructor
      · refine .dead hdead hdying hgood hfatal ?_ hfailing ?_ hshut hended
        · intro u hu
          rw [← List.cons_append] at hu
          rcases List.mem_append.mp hu with hu | hu
          · exact (hlost u hu).imp_right fun h => h.imp_right (cut u)
          · rw [List.mem_singleton.mp hu]
            exact Or.inr (Or.inr lost)
        · intro u hu
          exact List.mem_append_left _ (hqueue u hu)
      · exact List.mem_cons_of_mem _ (List.mem_append_right _ (List.mem_singleton_self t))

/-- The scheduler closes the worker's queue. -/
theorem Served.shut (served : Served process s w offers done)
    (closing : s'.scheduler.phase.isClosing = true) (cut : ∀ t, s.Cut t → s'.Cut t) :
    Served process s' { w with queue := w.queue.close } offers done := by
  cases served with
  | alive halive hheld hdone hclosed hended =>
      exact .alive halive hheld hdone (fun _ => closing) fun h => ⟨(hended h).1, rfl⟩
  | dead hdead hdying hgood hfatal hlost hfailing hqueue hshut hended =>
      refine .dead hdead hdying hgood hfatal ?_ hfailing hqueue (fun _ => rfl) hended
      intro t ht
      exact (hlost t ht).imp_right fun h => h.imp_right (cut t)

theorem processed_eq_nil (h : ∀ t, w.phase ≠ .processing t) : w.phase.processed = [] := by
  cases hphase : w.phase with
  | processing t => exact absurd hphase (h t)
  | _ => rfl

/-- A step of a worker that has met no fault so far. -/
theorem Served.worked_alive {cs : List Connection} {told : List Event}
    (served : Served process s w offers done) (step : Worked process s w w' cs told)
    (alive : w.dead = false) (scheduler : s'.scheduler = s.scheduler) :
    Served process s' w' offers (done ++ w.phase.processed) := by
  cases served with
  | dead hdead =>
      rw [alive] at hdead
      contradiction
  | @alive done held halive hheld hdone hclosed hended =>
      rw [← scheduler] at hclosed
      cases step with
      | @takes t rest hphase hitems =>
          rw [processed_eq_nil (by simp [hphase]), List.append_nil]
          rw [hphase] at hheld
          cases hheld
          have hoffers : done ++ [] ++ w.queue.items = done ++ [t] ++ rest := by
            rw [hitems, List.append_nil, List.append_assoc, List.singleton_append]
          rw [hoffers]
          exact .alive halive rfl hdone hclosed nofun
      | leaves hphase hitems hshut =>
          rw [processed_eq_nil (by simp [hphase]), List.append_nil]
          rw [hphase] at hheld
          cases hheld
          exact .alive halive rfl hdone hclosed fun _ => ⟨hitems, hshut⟩
      | @answers t r hphase hr =>
          rw [hphase] at hheld ⊢
          cases hheld
          have hall : ∀ u ∈ done ++ [t], succeeds process u = true := by
            intro u hu
            rcases List.mem_append.mp hu with hu | hu
            · exact hdone u hu
            · rw [List.mem_singleton.mp hu, succeeds, hr]
              rfl
          have hafter : Served process s' { w with phase := .delivering t r }
              (done ++ [t] ++ [] ++ w.queue.items) (done ++ [t]) :=
            .alive halive rfl hall hclosed nofun
          rwa [List.append_nil] at hafter
      | @faults t hphase hr =>
          -- The ticket in hand is the first fatal one; those in the queue are lost with it.
          rw [hphase] at hheld ⊢
          cases hheld
          rw [List.append_assoc, List.singleton_append]
          refine .dead rfl rfl hdone ?_ ?_ ?_ (fun _ h => h) ?_ nofun
          · rw [succeeds, hr]
            rfl
          · intro u hu
            rcases List.mem_cons.mp hu with rfl | hu
            · exact Or.inr (Or.inl rfl)
            · exact Or.inl hu
          · intro u hu
            cases hu
            rfl
          · rintro (h | h) <;> contradiction
      | delivers hphase =>
          rw [processed_eq_nil (by simp [hphase]), List.append_nil]
          rw [hphase] at hheld
          cases hheld
          exact .alive halive rfl hdone hclosed nofun
      | cutsOff hphase => simp [hphase, Worker.Phase.held] at hheld
      | reports hphase => simp [hphase, Worker.Phase.held] at hheld
      | unheard hphase => simp [hphase, Worker.Phase.held] at hheld
      | closes hphase => simp [hphase, Worker.Phase.held] at hheld
      | drains hphase => simp [hphase, Worker.Phase.held] at hheld
      | ends hphase => simp [hphase, Worker.Phase.held] at hheld

/-- A step of a worker after its fault. -/
theorem Served.worked_dead {cs : List Connection} {told : List Event}
    (served : Served process s w offers done) (step : Worked process s w w' cs told)
    (isDead : w.dead = true) (holds : ∀ t ∈ w.tickets, s.holds t = true)
    (connections : s'.connections = cs) (cut : ∀ t, s.Cut t → s'.Cut t) :
    Served process s' w' offers (done ++ w.phase.processed) := by
  cases served with
  | alive halive =>
      rw [isDead] at halive
      contradiction
  | @dead good rest fatal hdead hdying hgood hfatal hlost hfailing hqueue hshut hended =>
      have hquiet : w.phase.processed = [] := by
        apply processed_eq_nil
        intro t hphase
        rw [hphase] at hdying
        contradiction
      rw [hquiet, List.append_nil]
      have hlost' : ∀ t ∈ fatal :: rest, t ∈ w.queue.items ∨ w.phase = .failing t ∨ s'.Cut t :=
        fun t ht => (hlost t ht).imp_right fun h => h.imp_right (cut t)
      -- Outside `failing` every lost ticket is in the queue or cut off.
      have hgone (phase : Worker.Phase) (h : ∀ t, w.phase ≠ .failing t) :
          ∀ t ∈ fatal :: rest, t ∈ w.queue.items ∨ phase = .failing t ∨ s'.Cut t :=
        fun t ht => (hlost' t ht).imp_right fun h' => Or.inr (h'.resolve_left (h t))
      have hopen {phase : Worker.Phase} (h : phase ≠ .draining ∧ phase ≠ .ended) :
          phase = .draining ∨ phase = .ended → w.queue.closed = true :=
        fun h' => absurd h' (not_or.mpr h)
      cases step with
      | takes hphase => simp [hphase, Worker.Phase.isDying] at hdying
      | leaves hphase => simp [hphase, Worker.Phase.isDying] at hdying
      | answers hphase => simp [hphase, Worker.Phase.isDying] at hdying
      | faults hphase => simp [hphase, Worker.Phase.isDying] at hdying
      | delivers hphase => simp [hphase, Worker.Phase.isDying] at hdying
      | @cutsOff t hphase =>
          have hcut : s'.Cut t := by
            apply cut_of_abortAt (holds t ?_) connections
            rw [Worker.tickets, hphase]
            exact List.mem_append_left _ (List.mem_singleton_self t)
          refine .dead hdead rfl hgood hfatal ?_ (by simp) hqueue (hopen (by simp)) (by simp)
          intro u hu
          rcases hlost' u hu with h | h | h
          · exact Or.inl h
          · rw [hphase] at h
            cases h
            exact Or.inr (Or.inr hcut)
          · exact Or.inr (Or.inr h)
      | reports hphase =>
          exact .dead hdead rfl hgood hfatal (hgone _ (by simp [hphase])) (by simp) hqueue
            (hopen (by simp)) (by simp)
      | unheard hphase =>
          exact .dead hdead rfl hgood hfatal (hgone _ (by simp [hphase])) (by simp) hqueue
            (hopen (by simp)) (by simp)
      | closes hphase =>
          exact .dead hdead rfl hgood hfatal (hgone _ (by simp [hphase])) (by simp) hqueue
            (fun _ => rfl) (by simp)
      | @drains t later hphase hitems =>
          have hcut : s'.Cut t := by
            apply cut_of_abortAt (holds t ?_) connections
            rw [Worker.tickets, hitems]
            exact List.mem_append_right _ List.mem_cons_self
          rw [hitems] at hgone hqueue
          refine .dead hdead hdying hgood hfatal ?_ hfailing ?_ (fun _ => hshut (Or.inl hphase)) ?_
          · intro u hu
            rcases hgone w.phase (by simp [hphase]) u hu with h | h
            · rcases List.mem_cons.mp h with rfl | h
              · exact Or.inr (Or.inr hcut)
              · exact Or.inl h
            · exact Or.inr h
          · exact fun u hu => hqueue u (List.mem_cons_of_mem _ hu)
          · intro h
            rw [show w.phase = .ended from h] at hphase
            contradiction
      | ends hphase hitems =>
          exact .dead hdead rfl hgood hfatal (hgone _ (by simp [hphase])) (by simp) hqueue
            (fun _ => hshut (Or.inl hphase)) fun _ => hitems

/-- A step of the worker itself. -/
theorem Served.worked {cs : List Connection} {told : List Event}
    (served : Served process s w offers done) (step : Worked process s w w' cs told)
    (holds : ∀ t ∈ w.tickets, s.holds t = true) (connections : s'.connections = cs)
    (scheduler : s'.scheduler = s.scheduler) (cut : ∀ t, s.Cut t → s'.Cut t) :
    Served process s' w' offers (done ++ w.phase.processed) := by
  cases hdead : w.dead with
  | false => exact served.worked_alive step hdead scheduler
  | true => exact served.worked_dead step hdead holds connections cut

/-- The responses a worker counts are those of its calls. -/
theorem Worked.counted {cs : List Connection} {told : List Event}
    (step : Worked process s w w' cs told)
    (counted : w.processed + w.phase.uncounted = done.countP (succeeds process)) :
    w'.processed + w'.phase.uncounted =
      (done ++ w.phase.processed).countP (succeeds process) := by
  rw [List.countP_append, ← counted]
  cases step with
  | answers hphase hr =>
      simp [hphase, Worker.Phase.uncounted, Worker.Phase.processed, succeeds, hr]
  | faults hphase hr =>
      simp [hphase, Worker.Phase.uncounted, Worker.Phase.processed, succeeds, hr]
  | takes hphase | leaves hphase | delivers hphase | cutsOff hphase | reports hphase
  | unheard hphase | closes hphase | drains hphase | ends hphase =>
      simp [hphase, Worker.Phase.uncounted, Worker.Phase.processed]

/-- Aborting at a position aborts no other connection. -/
theorem eq_of_abortAt {position : Option Nat} {k : Nat} {cs : List Connection}
    (live : (cs[k]?).all (!·.aborted) = true)
    (cut : ((abortAt position cs)[k]?).any (·.aborted) = true) : position = some k := by
  cases hc : cs[k]? with
  | none =>
      have hnone : (abortAt position cs)[k]? = none := by
        cases position with
        | none => exact hc
        | some i => rw [abortAt, List.getElem?_modify, hc]; rfl
      rw [hnone] at cut
      contradiction
  | some c =>
      rw [getElem?_abortAt position hc] at cut
      split at cut
      · assumption
      · rw [hc] at live
        simp_all

/-- Delivering aborts nothing. -/
theorem not_aborted_deliverAt {position : Option Nat} {sequence k : Nat} {r : Response}
    {cs : List Connection} (live : (cs[k]?).all (!·.aborted) = true) :
    ((deliverAt position sequence r cs)[k]?).any (·.aborted) = false := by
  cases hc : cs[k]? with
  | none =>
      have hnone : (deliverAt position sequence r cs)[k]? = none := by
        cases position with
        | none => exact hc
        | some i => rw [deliverAt, List.getElem?_modify, hc]; rfl
      rw [hnone]
      rfl
  | some c =>
      have hlive : c.aborted = false := by simpa [hc] using live
      rw [getElem?_deliverAt position hc]
      split
      · by_cases hr : c.isAnswered sequence = true
        · rw [(Connection.deliver_refused (Or.inr hr)).2]
          simpa using hlive
        · rw [Connection.deliver_taken hlive (Bool.eq_false_iff.mpr hr)]
          simpa [Connection.taking] using hlive
      · simpa using hlive

/-- A worker aborts only connections of tickets that are lost. -/
theorem Served.aborts {cs : List Connection} {told : List Event} {k : Nat}
    (served : Served process s w offers done) (step : Worked process s w w' cs told)
    (live : (s.connections[k]?).all (!·.aborted) = true)
    (cut : (cs[k]?).any (·.aborted) = true) :
    ∃ t ∈ offers.dropWhile (succeeds process), t.connection = some k := by
  have hsame {cs' : List Connection} (h : cs' = s.connections)
      (cut : (cs'[k]?).any (·.aborted) = true) : False := by
    subst h
    cases hc : s.connections[k]? with
    | none =>
        rw [hc] at cut
        contradiction
    | some c =>
        rw [hc] at cut live
        simp_all
  have hlost (t : Ticket) (hdead : w.phase.held = none)
      (ht : w.phase = .failing t ∨ t ∈ w.queue.items) :
      t ∈ offers.dropWhile (succeeds process) := by
    cases served with
    | alive _ hheld =>
        rw [hheld] at hdead
        contradiction
    | dead _ _ hgood hfatal _ hfailing hqueue =>
        rw [List.dropWhile_append_of_pos hgood,
          List.dropWhile_cons_of_neg (by rw [hfatal]; exact Bool.false_ne_true)]
        rcases ht with ht | ht
        · rw [hfailing t ht]
          exact List.mem_cons_self
        · exact List.mem_cons_of_mem _ (hqueue t ht)
  cases step with
  | delivers =>
      rw [not_aborted_deliverAt live] at cut
      contradiction
  | @cutsOff t hphase =>
      exact ⟨t, hlost t (by rw [hphase]; rfl) (Or.inl hphase), eq_of_abortAt live cut⟩
  | @drains t rest hphase hitems =>
      refine ⟨t, hlost t (by rw [hphase]; rfl) (Or.inr ?_), eq_of_abortAt live cut⟩
      rw [hitems]
      exact List.mem_cons_self
  | _ => exact (hsame rfl cut).elim

/-! ## One step of the scheduler -/

theorem offeredIn_scheduler : offeredIn ⟨s, .step .scheduler, s'⟩ = s.pendingOffer := by
  unfold offeredIn pendingOffer
  cases s.scheduler.phase <;> rfl

theorem takenIn_scheduler :
    takenIn ⟨s, .step .scheduler, s'⟩ = s'.pendingOffer.map Prod.snd := by
  unfold takenIn pendingOffer
  cases s'.scheduler.phase <;> rfl

/-- The scheduler takes no ticket, or one that it will offer to the worker whose turn it is. -/
theorem Dealt.turn (dealt : Dealt s s') :
    (s'.pendingOffer = [] ∧ s'.scheduler.cursor = s.scheduler.cursor) ∨
      ∃ t, s'.pendingOffer = [(s.scheduler.cursor, t)] ∧
        s'.scheduler.cursor = (s.scheduler.cursor + 1) % s.workers.length := by
  cases dealt with
  | takes => exact Or.inr ⟨_, rfl, rfl⟩
  | _ => exact Or.inl ⟨rfl, rfl⟩

theorem Dealt.closing (dealt : Dealt s s') (h : s.scheduler.phase.isClosing = true) :
    s'.scheduler.phase.isClosing = true := by
  cases dealt with
  | stops | runsDry | closes | ends => rfl
  | takes hphase | sends hphase | refuses hphase =>
      rw [hphase] at h
      contradiction

/-- The scheduler changes nothing about a worker but its queue. -/
theorem Dealt.worker {i : Nat} (dealt : Dealt s s') (hw : s'.workers[i]? = some w') :
    ∃ w, s.workers[i]? = some w ∧ w'.phase = w.phase ∧ w'.processed = w.processed := by
  have hset {j : Nat} {u u' : Worker} (hu : s.workers[j]? = some u)
      (h : (s.workers.set j u')[i]? = some w')
      (hsame : u'.phase = u.phase ∧ u'.processed = u.processed) :
      ∃ w, s.workers[i]? = some w ∧ w'.phase = w.phase ∧ w'.processed = w.processed := by
    rcases getElem?_set_cases hu h with ⟨rfl, rfl⟩ | ⟨-, hold⟩
    · exact ⟨u, hu, hsame⟩
    · exact ⟨w', hold, rfl, rfl⟩
  cases dealt with
  | sends _ hu => exact hset hu hw ⟨rfl, rfl⟩
  | closes _ hu => exact hset hu hw ⟨rfl, rfl⟩
  | _ => exact ⟨w', hw, rfl, rfl⟩

theorem Dealt.size (dealt : Dealt s s') : s'.workers.length = s.workers.length := by
  cases dealt with
  | sends | closes => exact List.length_set
  | _ => rfl

/-- What the scheduler does to a worker: the offer it makes is one more for that worker. -/
theorem Dealt.serves {i : Nat} (dealt : Dealt s s') (holds : ∀ t, s.InFlight t → s.holds t = true)
    (cut : ∀ t, s.Cut t → s'.Cut t)
    (served : ∀ w, s.workers[i]? = some w → Served process s w offers done)
    (hw : s'.workers[i]? = some w') :
    Served process s' w' (offers ++ dealtTo i s.pendingOffer) done := by
  have hquiet (hnone : dealtTo i s.pendingOffer = []) (h : s.workers[i]? = some w') :
      Served process s' w' (offers ++ dealtTo i s.pendingOffer) done := by
    rw [hnone, List.append_nil]
    exact (served w' h).kept cut dealt.closing
  cases dealt with
  | stops hphase | runsDry hphase | ends hphase | takes hphase =>
      exact hquiet (by rw [pendingOffer, hphase]; rfl) hw
  | @sends n t u hphase hu hopen =>
      have hoffer : s.pendingOffer = [(n, t)] := by rw [pendingOffer, hphase]
      rw [hoffer, dealtTo_singleton] at hquiet ⊢
      rcases getElem?_set_cases hu hw with ⟨rfl, rfl⟩ | ⟨hni, hold⟩
      · rw [if_pos rfl]
        exact (served u hu).sent t hopen cut
      · exact hquiet (if_neg hni) hold
  | @refuses n t u hphase hu hclosed =>
      have hoffer : s.pendingOffer = [(n, t)] := by rw [pendingOffer, hphase]
      have hflight : s.InFlight t := by
        right
        left
        rw [hphase]
        exact List.mem_singleton_self t
      rw [hoffer, dealtTo_singleton] at hquiet ⊢
      by_cases hni : n = i
      · subst hni
        cases hu.symm.trans hw
        rw [if_pos rfl]
        exact ((served _ hw).refused hphase hclosed (cut_of_abortAt (holds t hflight) rfl)
          cut).1
      · exact hquiet (if_neg hni) hw
  | @closes n u hphase hu =>
      have hnone : dealtTo i s.pendingOffer = [] := by rw [pendingOffer, hphase]; rfl
      rcases getElem?_set_cases hu hw with ⟨rfl, rfl⟩ | ⟨-, hold⟩
      · rw [hnone, List.append_nil]
        exact (served u hu).shut rfl cut
      · exact hquiet hnone hold

/-- The scheduler aborts only connections of tickets that are lost. -/
theorem Dealt.aborts {k : Nat} (dealt : Dealt s s')
    (holds : ∀ t, s.InFlight t → s.holds t = true) (cut : ∀ t, s.Cut t → s'.Cut t)
    {offers : List (Nat × Ticket)} {done : Nat → List Ticket}
    (served : ∀ i w, s.workers[i]? = some w → Served process s w (dealtTo i offers) (done i))
    (hk : k ∈ abortedIn ⟨s, .step .scheduler, s'⟩) :
    ∃ i, ∃ t ∈ (dealtTo i (offers ++ s.pendingOffer)).dropWhile (succeeds process),
      t.connection = some k := by
  obtain ⟨-, hk⟩ := List.mem_filter.mp hk
  rw [Bool.and_eq_true] at hk
  obtain ⟨hlive, habort⟩ := hk
  have hsame (h : s'.connections = s.connections) : False := by
    rw [h] at habort
    cases hc : s.connections[k]? with
    | none => simp [hc] at habort
    | some c => simp_all
  cases dealt with
  | @refuses n t w hphase hw hclosed =>
      have hflight : s.InFlight t := by
        right
        left
        rw [hphase]
        exact List.mem_singleton_self t
      refine ⟨n, t, ?_, eq_of_abortAt hlive habort⟩
      rw [pendingOffer, hphase, dealtTo_append, dealtTo_singleton, if_pos rfl]
      exact ((served n w hw).refused hphase hclosed (cut_of_abortAt (holds t hflight) rfl) cut).2
  | _ => exact (hsame rfl).elim

/-! ## Runs of the pool -/

/-- What holds of the scheduler and all workers along every run. -/
structure Deals (process : Processing) (n : Nat) (past : List (Moment Service Act))
    (s : Service) : Prop where
  size : s.workers.length = n
  cursor : s.scheduler.cursor = (taken past).length % n
  offers : offered past ++ s.pendingOffer = deal n (taken past)
  served : ∀ i w, s.workers[i]? = some w →
    Served process s w (dealtTo i (offered past)) (calls i past)
  counted : ∀ i w, s.workers[i]? = some w →
    w.processed + w.phase.uncounted = (calls i past).countP (succeeds process)
  blamed : ∀ k ∈ abortedBy true past, ∃ i, ∃ t ∈ (dealtTo i (offered past)).dropWhile
    (succeeds process), t.connection = some k

theorem mem_dropWhile_append {p : Ticket → Bool} {ts more : List Ticket}
    (h : t ∈ ts.dropWhile p) : t ∈ (ts ++ more).dropWhile p := by
  rw [List.dropWhile_append]
  split
  · rename_i hempty
    rw [List.isEmpty_iff.mp hempty] at h
    contradiction
  · exact List.mem_append_left _ h

theorem blamed_mono {offers more : List (Nat × Ticket)} {k : Nat}
    (h : ∃ i, ∃ t ∈ (dealtTo i offers).dropWhile (succeeds process), t.connection = some k) :
    ∃ i, ∃ t ∈ (dealtTo i (offers ++ more)).dropWhile (succeeds process),
      t.connection = some k := by
  obtain ⟨i, t, ht, hk⟩ := h
  refine ⟨i, t, ?_, hk⟩
  rw [dealtTo_append]
  exact mem_dropWhile_append ht

theorem deals_start {n inbound queue : Nat} :
    Deals process n [] (launch n inbound queue) := by
  rw [launch_eq]
  refine ⟨?_, rfl, rfl, ?_, ?_, ?_⟩
  · simp [crew]
  · intro i w hw
    rw [eq_of_getElem?_crew hw]
    exact Served.alive (w := { index := i, queue := { capacity := queue }, phase := .receiving })
      rfl rfl (fun _ h => absurd h List.not_mem_nil) (by simp) (by simp)
  · intro i w hw
    rw [eq_of_getElem?_crew hw]
    rfl
  · intro k hk
    contradiction

/-- An act of anybody else. -/
theorem Deals.other {n : Nat} (deals : Deals process n past s) (others : act.isOfPool = false)
    (step : s.act? process act = some s') :
    Deals process n (past ++ [⟨s, act, s'⟩]) s' := by
  obtain ⟨hworkers, hscheduler⟩ := pool_unchanged others step
  have htaken : takenIn ⟨s, act, s'⟩ = [] := by
    unfold takenIn
    split
    · simp_all [Act.isOfPool]
    · rfl
  have hoffered : offeredIn ⟨s, act, s'⟩ = [] := by
    unfold offeredIn
    split
    · simp_all [Act.isOfPool]
    · rfl
  have hcalls (i : Nat) : callsIn i ⟨s, act, s'⟩ = [] := by
    unfold callsIn
    split
    · simp_all [Act.isOfPool]
    · rfl
  refine ⟨?_, ?_, ?_, ?_, ?_, ?_⟩
  · rw [hworkers, deals.size]
  · rw [hscheduler, taken_snoc, htaken, List.append_nil, deals.cursor]
  · rw [pendingOffer, hscheduler, offered_snoc, hoffered, taken_snoc, htaken, List.append_nil,
      List.append_nil]
    exact deals.offers
  · intro i w hw
    rw [hworkers] at hw
    rw [offered_snoc, hoffered, calls_snoc, hcalls, List.append_nil, List.append_nil]
    exact (deals.served i w hw).kept (fun t cut => cut.kept step) (by rw [hscheduler]; exact id)
  · intro i w hw
    rw [hworkers] at hw
    rw [calls_snoc, hcalls, List.append_nil]
    exact deals.counted i w hw
  · intro k hk
    rw [abortedBy_snoc, if_neg (by rw [others]; exact Bool.false_ne_true), List.append_nil] at hk
    rw [offered_snoc, hoffered, List.append_nil]
    exact deals.blamed k hk

/-- A step of a worker. -/
theorem Deals.worker {n i : Nat} {cs : List Connection} {told : List Event}
    (deals : Deals process n past s) (hw : s.workers[i]? = some w)
    (worked : Worked process s w w' cs told) (holds : ∀ t, s.InFlight t → s.holds t = true)
    (step : s.act? process (.step (.worker i)) = some (s.afterWorker i w' cs told)) :
    Deals process n (past ++ [⟨s, .step (.worker i), s.afterWorker i w' cs told⟩])
      (s.afterWorker i w' cs told) := by
  have hcalls (j : Nat) :
      callsIn j ⟨s, .step (.worker i), s.afterWorker i w' cs told⟩ =
        if i = j then w.phase.processed else [] := by
    unfold callsIn
    dsimp only
    split
    · rename_i hij
      subst hij
      rw [hw]
    · rfl
  have hheld : ∀ t ∈ w.tickets, s.holds t = true :=
    fun t ht => holds t (Or.inr (Or.inr ⟨i, w, hw, ht⟩))
  refine ⟨?_, ?_, ?_, ?_, ?_, ?_⟩
  · rw [afterWorker, List.length_set, deals.size]
  · rw [taken_snoc, takenIn, List.append_nil]
    exact deals.cursor
  · rw [offered_snoc, offeredIn, taken_snoc, takenIn, List.append_nil, List.append_nil]
    exact deals.offers
  · intro j u hu
    rw [offered_snoc, offeredIn, List.append_nil, calls_snoc, hcalls]
    rcases getElem?_set_cases hw hu with ⟨rfl, rfl⟩ | ⟨hij, hu⟩
    · rw [if_pos rfl]
      exact (deals.served i w hw).worked worked hheld rfl rfl fun t cut => cut.kept step
    · rw [if_neg hij, List.append_nil]
      exact (deals.served j u hu).kept (fun t cut => cut.kept step) id
  · intro j u hu
    rw [calls_snoc, hcalls]
    rcases getElem?_set_cases hw hu with ⟨rfl, rfl⟩ | ⟨hij, hu⟩
    · rw [if_pos rfl]
      exact worked.counted (deals.counted i w hw)
    · rw [if_neg hij, List.append_nil]
      exact deals.counted j u hu
  · intro k hk
    rw [offered_snoc, offeredIn, List.append_nil]
    simp only [abortedBy_snoc, Act.isOfPool, if_true] at hk
    rcases List.mem_append.mp hk with hk | hk
    · exact deals.blamed k hk
    · obtain ⟨-, hk⟩ := List.mem_filter.mp hk
      rw [Bool.and_eq_true] at hk
      exact ⟨i, (deals.served i w hw).aborts worked hk.1 hk.2⟩

/-- A step of the scheduler. -/
theorem Deals.scheduler {n : Nat} (deals : Deals process n past s) (dealt : Dealt s s')
    (holds : ∀ t, s.InFlight t → s.holds t = true)
    (step : s.act? process (.step .scheduler) = some s') :
    Deals process n (past ++ [⟨s, .step .scheduler, s'⟩]) s' := by
  have hcut : ∀ t, s.Cut t → s'.Cut t := fun t cut => cut.kept step
  have hcalls (i : Nat) : callsIn i ⟨s, .step .scheduler, s'⟩ = [] := rfl
  refine ⟨?_, ?_, ?_, ?_, ?_, ?_⟩
  · rw [dealt.size, deals.size]
  · rw [taken_snoc, takenIn_scheduler, List.length_append, List.length_map]
    rcases dealt.turn with ⟨hnone, hcursor⟩ | ⟨t, hone, hcursor⟩
    · rw [hnone, hcursor]
      exact deals.cursor
    · rw [hone, hcursor, deals.cursor, deals.size, List.length_singleton, Nat.mod_add_mod]
  · rw [offered_snoc, offeredIn_scheduler, deals.offers, taken_snoc, takenIn_scheduler]
    rcases dealt.turn with ⟨hnone, -⟩ | ⟨t, hone, -⟩
    · rw [hnone, List.map_nil, List.append_nil, List.append_nil]
    · rw [hone, List.map_singleton, deal_snoc, deals.cursor]
  · intro i w hw
    rw [offered_snoc, offeredIn_scheduler, dealtTo_append, calls_snoc, hcalls, List.append_nil]
    exact dealt.serves holds hcut (deals.served i) hw
  · intro i w' hw'
    obtain ⟨w, hw, hphase, hprocessed⟩ := dealt.worker hw'
    rw [calls_snoc, hcalls, List.append_nil, hphase, hprocessed]
    exact deals.counted i w hw
  · intro k hk
    rw [offered_snoc, offeredIn_scheduler]
    simp only [abortedBy_snoc, Act.isOfPool, if_true] at hk
    rcases List.mem_append.mp hk with hk | hk
    · exact blamed_mono (deals.blamed k hk)
    · exact dealt.aborts holds hcut deals.served hk

theorem Deals.step {n : Nat} (deals : Deals process n past s)
    (holds : ∀ t, s.InFlight t → s.holds t = true) (step : s.act? process act = some s') :
    Deals process n (past ++ [⟨s, act, s'⟩]) s' := by
  by_cases hpool : act.isOfPool = true
  · cases act with
    | step thread =>
        cases stepped_of_act? step with
        | worker hw hworked => exact deals.worker hw hworked holds step
        | scheduler hdealt => exact deals.scheduler hdealt holds step
        | _ => contradiction
    | _ => contradiction
  · rw [Bool.not_eq_true] at hpool
    exact deals.other hpool step

theorem deals_run {n inbound queue : Nat}
    (run : Run (act? process) (launch n inbound queue) past s) : Deals process n past s := by
  induction run with
  | start => exact deals_start
  | snoc run step ih => exact ih.step (inFlight_holds run) step

/-! ## What a run comes to -/

theorem events_unbounded {n inbound queue : Nat}
    (run : Run (act? process) (launch n inbound queue) past s) : s.events.hasRoom = true := by
  have hcapacity : s.events.capacity = 0 := by
    refine run.keeps (P := fun s => s.events.capacity = 0) ?_ ?_
    · intro s act s' h step
      rw [(channels_kept step).2.2, h]
    · rw [launch_eq]
  rw [Channel.hasRoom, hcapacity]
  rfl

/-- An aborted connection was aborted by somebody. -/
theorem aborted_by_somebody {n inbound queue k : Nat} {c : Connection}
    (run : Run (act? process) (launch n inbound queue) past s)
    (hc : s.connections[k]? = some c) (habort : c.aborted = true) :
    k ∈ abortedBy true past ∨ k ∈ abortedBy false past := by
  induction run generalizing c with
  | start =>
      rw [launch_eq] at hc
      contradiction
  | @snoc past now next act run step ih =>
      rw [abortedBy_snoc, abortedBy_snoc]
      -- Either it was aborted before, or this is the moment at which it happens.
      by_cases hbefore : (now.connections[k]?).any (·.aborted) = true
      · rw [Option.any_eq_true] at hbefore
        obtain ⟨c₀, hc₀, habort₀⟩ := hbefore
        exact (ih hc₀ habort₀).imp (List.mem_append_left _) (List.mem_append_left _)
      · have hin : k ∈ abortedIn ⟨now, act, next⟩ := by
          refine List.mem_filter.mpr ⟨?_, ?_⟩
          · exact List.mem_range.mpr (List.getElem?_eq_some_iff.mp hc).1
          · cases hk : now.connections[k]? with
            | none => simp [hc, habort]
            | some c₀ => simp_all
        cases hpool : act.isOfPool with
        | true =>
            left
            rw [if_pos rfl]
            exact List.mem_append_right _ hin
        | false =>
            right
            rw [if_pos rfl]
            exact List.mem_append_right _ hin

/-- A worker that has nothing left and waits for a ticket or has ended. -/
theorem Served.settled (served : Served process s w offers done)
    (counted : w.processed + w.phase.uncounted = done.countP (succeeds process))
    (stuck : w.phase = .receiving ∨ w.phase = .ended) (empty : w.queue.items = []) :
    done = offers.takeWhile (succeeds process) ++ (offers.dropWhile (succeeds process)).take 1 ∧
      w.processed = (offers.takeWhile (succeeds process)).length ∧
      ∀ t ∈ offers.dropWhile (succeeds process), s.Cut t := by
  have huncounted : w.phase.uncounted = 0 := by
    rcases stuck with h | h <;> rw [h] <;> rfl
  rw [huncounted, Nat.add_zero] at counted
  cases served with
  | @alive _ held halive hheld hdone hclosed hended =>
      have hnothing : held = [] := by
        rcases stuck with h | h <;> rw [h] at hheld <;> cases hheld <;> rfl
      have htake : done.takeWhile (succeeds process) = done := List.takeWhile_eq_self_iff.mpr hdone
      have hdrop : done.dropWhile (succeeds process) = [] := List.dropWhile_eq_nil_iff.mpr hdone
      rw [hnothing, empty, List.append_nil, List.append_nil, htake, hdrop]
      refine ⟨?_, ?_, ?_⟩
      · rw [List.take_nil, List.append_nil]
      · rw [counted, List.countP_eq_length.mpr hdone]
      · exact fun t ht => absurd ht List.not_mem_nil
  | @dead good rest fatal hdead hdying hgood hfatal hlost hfailing hqueue hshut hended =>
      -- A dead worker never waits for a ticket again.
      have hphase : w.phase = .ended := by
        rcases stuck with h | h
        · rw [h] at hdying
          contradiction
        · exact h
      have hfatal' : ¬succeeds process fatal = true := by
        rw [hfatal]
        exact Bool.false_ne_true
      rw [List.takeWhile_append_of_pos hgood, List.dropWhile_append_of_pos hgood,
        List.takeWhile_cons_of_neg hfatal', List.dropWhile_cons_of_neg hfatal', List.append_nil]
      refine ⟨rfl, ?_, ?_⟩
      · rw [counted, List.countP_append, List.countP_eq_length.mpr hgood,
          List.countP_singleton, if_neg hfatal', Nat.add_zero]
      · intro t ht
        rcases hlost t ht with h | h | h
        · rw [empty] at h
          contradiction
        · rw [hphase] at h
          contradiction
        · exact h

/-- A worker that can do nothing has nothing left, and waits for a ticket or has ended. -/
theorem Served.waits {i : Nat} (served : Served process s w offers done)
    (hw : s.workers[i]? = some w) (room : s.events.hasRoom = true)
    (stuck : s.workerStep? process i = none) :
    (w.phase = .receiving ∨ w.phase = .ended) ∧ w.queue.items = [] := by
  have hwaits := worker_waits hw stuck
  cases hphase : w.phase with
  | idle =>
      cases served with
      | alive _ hheld => simp [hphase, Worker.Phase.held] at hheld
      | dead _ hdying => simp [hphase, Worker.Phase.isDying] at hdying
  | receiving =>
      rw [hphase] at hwaits
      exact ⟨Or.inl rfl, hwaits.1⟩
  | reporting =>
      rw [hphase, room] at hwaits
      exact absurd hwaits.2.symm Bool.false_ne_true
  | ended =>
      cases served with
      | alive _ _ _ _ hended => exact ⟨Or.inr rfl, (hended hphase).1⟩
      | dead _ _ _ _ _ _ _ _ hended => exact ⟨Or.inr rfl, hended hphase⟩
  | _ =>
      rw [hphase] at hwaits
      exact hwaits.elim

theorem mem_deal {n i : Nat} {ts : List Ticket} (h : (i, t) ∈ deal n ts) :
    ∃ k, ts[k]? = some t ∧ k % n = i := by
  obtain ⟨k, hk⟩ := List.mem_iff_getElem?.mp h
  rw [deal, List.getElem?_mapIdx] at hk
  obtain ⟨u, hu, heq⟩ := Option.map_eq_some_iff.mp hk
  cases heq
  exact ⟨k, hu, rfl⟩

/-- Once no thread of the pool can do anything, no offer is pending. -/
theorem Deals.no_offer {n : Nat} (deals : Deals process n past s) (positive : 0 < n)
    (room : s.events.hasRoom = true) (scheduler : s.schedulerStep? = none)
    (workers : ∀ i, s.workerStep? process i = none) : s.pendingOffer = [] := by
  have hwaits := scheduler_waits scheduler
  cases hphase : s.scheduler.phase with
  | sending m t =>
      rw [hphase] at hwaits
      have hoffer : (m, t) ∈ deal n (taken past) := by
        rw [← deals.offers, pendingOffer, hphase]
        exact List.mem_append_right _ (List.mem_singleton_self _)
      obtain ⟨k, -, rfl⟩ := mem_deal hoffer
      have hlt : k % n < s.workers.length := by
        rw [deals.size]
        exact Nat.mod_lt k positive
      have hw := List.getElem?_eq_getElem hlt
      obtain ⟨-, hfull⟩ := hwaits _ hw
      -- A worker that waits has an empty queue, which is never full.
      obtain ⟨-, hempty⟩ := (deals.served _ _ hw).waits hw room (workers _)
      rw [Channel.hasRoom, hempty] at hfull
      simp at hfull
  | _ => rw [pendingOffer, hphase]

/-- **Requests are dealt out in turn, and each worker serves its own until the first fault.**
Along every run of a service the k-th ticket that the scheduler takes is offered to worker
`k % n` and to no other, and the cursor moves on whatever becomes of the offer. Once neither
the scheduler nor a worker can do anything, a worker has processed exactly the tickets of its
class up to and including the first fault and has counted those before it; the connections of
the tickets from the fault on are aborted, and the scheduler and the workers have aborted no
others. -/
theorem dealt_in_turn_and_served_until_fault {n inbound queue : Nat} (positive : 0 < n)
    (run : Run (act? process) (launch n inbound queue) past s) :
    s.workers.length = n ∧
    offered past ++ s.pendingOffer = deal n (taken past) ∧
    s.scheduler.cursor = (taken past).length % n ∧
    (s.schedulerStep? = none → (∀ i, s.workerStep? process i = none) →
      s.pendingOffer = [] ∧
      (∀ i w, s.workers[i]? = some w →
        calls i past =
          (dealtTo i (deal n (taken past))).takeWhile (succeeds process) ++
            ((dealtTo i (deal n (taken past))).dropWhile (succeeds process)).take 1 ∧
        w.processed = ((dealtTo i (deal n (taken past))).takeWhile (succeeds process)).length) ∧
      ∀ i, ∀ t ∈ (dealtTo i (deal n (taken past))).dropWhile (succeeds process), s.Cut t) ∧
    (∀ k ∈ abortedBy true past, ∃ i, ∃ t ∈ (dealtTo i (deal n (taken past))).dropWhile
      (succeeds process), t.connection = some k) ∧
    (∀ k c, s.connections[k]? = some c → c.aborted = true →
      k ∈ abortedBy true past ∨ k ∈ abortedBy false past) := by
  have deals := deals_run run
  have hroom := events_unbounded run
  refine ⟨deals.size, deals.offers, deals.cursor, ?_, ?_, ?_⟩
  · intro hscheduler hworkers
    have hnone := deals.no_offer positive hroom hscheduler hworkers
    have hoffers := deals.offers
    rw [hnone, List.append_nil] at hoffers
    have hsettled (i : Nat) (w : Worker) (hw : s.workers[i]? = some w) := by
      have hserved := deals.served i w hw
      obtain ⟨hstuck, hempty⟩ := hserved.waits hw hroom (hworkers i)
      exact hserved.settled (deals.counted i w hw) hstuck hempty
    rw [hoffers] at hsettled
    refine ⟨hnone, ?_, ?_⟩
    · intro i w hw
      obtain ⟨hcalls, hprocessed, -⟩ := hsettled i w hw
      exact ⟨hcalls, hprocessed⟩
    · intro i t ht
      obtain ⟨⟨j, u⟩, hmem, hu⟩ :=
        List.mem_map.mp ((List.dropWhile_suffix (succeeds process)).subset ht)
      obtain ⟨hdealt, hji⟩ := List.mem_filter.mp hmem
      cases hu
      obtain rfl : j = i := of_decide_eq_true hji
      obtain ⟨k, -, rfl⟩ := mem_deal hdealt
      have hlt : k % n < s.workers.length := by
        rw [deals.size]
        exact Nat.mod_lt k positive
      exact (hsettled _ _ (List.getElem?_eq_getElem hlt)).2.2 u ht
  · intro k hk
    obtain ⟨i, t, ht, hconnection⟩ : ∃ i, ∃ t ∈ (dealtTo i (offered past ++
        s.pendingOffer)).dropWhile (succeeds process), t.connection = some k :=
      blamed_mono (deals.blamed k hk)
    rw [deals.offers] at ht
    exact ⟨i, t, ht, hconnection⟩
  · exact fun k c hc habort => aborted_by_somebody run hc habort

/-- Two workers, the second of which dies of its first ticket: its second one is left in its
queue, its third one refused. -/
theorem dealt_in_turn_and_served_until_fault_second_dies :
    ∃ (process : Processing) (ts : List Ticket) (past : List (Moment Service Act)) (s : Service),
      Run (act? process) (launch 2 0 1) past s ∧ 0 < 2 ∧ taken past = ts ∧ ts.length = 6 ∧
      s.schedulerStep? = none ∧ (∀ i, s.workerStep? process i = none) ∧
      calls 0 past = dealtTo 0 (deal 2 ts) ∧ calls 1 past = (dealtTo 1 (deal 2 ts)).take 1 ∧
      abortedBy true past = [1, 2] ∧ s.scheduler.cursor = 6 % 2 ∧
      ∀ i, ∀ t ∈ (dealtTo i (deal 2 ts)).dropWhile (succeeds process), s.Cut t := by
  let process : Processing := fun t =>
    (if t.sequence = 1 then .fault none else .answer (.ok t.request.id), [])
  let ticket (sequence position : Nat) : Ticket :=
    { sequence, request := ⟨0, .create⟩, connection := some position }
  let ts : List Ticket :=
    [ticket 0 0, ticket 1 1, ticket 2 0, ticket 3 1, ticket 4 0, ticket 5 2]
  let deals : Act := .step .scheduler
  let works (i : Nat) : Act := .step (.worker i)
  have hrun : (perform? (act? process) (launch 2 0 1)
      ([.accept, .accept, .accept] ++ ts.map .submit ++
        [deals, deals, deals, deals, works 1, works 0, deals, deals, deals, deals,
          works 1, works 1, works 1, works 1, works 0, works 0, works 0, works 0, works 0,
          deals, deals, deals, deals, works 0, works 0, works 0, works 1, works 1])).map
      (fun p => decide (taken p.1 = ts ∧ p.2.schedulerStep?.isNone = true ∧
        (p.2.workerStep? process 0).isNone = true ∧ (p.2.workerStep? process 1).isNone = true ∧
        calls 0 p.1 = dealtTo 0 (deal 2 ts) ∧ calls 1 p.1 = (dealtTo 1 (deal 2 ts)).take 1 ∧
        abortedBy true p.1 = [1, 2])) = some true := by decide +kernel
  obtain ⟨⟨past, s⟩, hperform, hshows⟩ := Option.map_eq_some_iff.mp hrun
  rw [decide_eq_true_iff] at hshows
  simp only [Option.isNone_iff_eq_none] at hshows
  obtain ⟨htaken, hscheduler, hfirst, hsecond, hcalls, hcalls', haborted⟩ := hshows
  have run := Run.of_perform? hperform
  obtain ⟨hsize, -, hcursor, hsettled, -⟩ :=
    dealt_in_turn_and_served_until_fault (Nat.zero_lt_succ 1) run
  have hworkers : ∀ i, s.workerStep? process i = none
    | 0 => hfirst
    | 1 => hsecond
    | i + 2 => by
        have hnone : s.workers[i + 2]? = none := by
          rw [List.getElem?_eq_none_iff, hsize]
          omega
        simp [workerStep?, hnone]
  obtain ⟨-, -, hcut⟩ := hsettled hscheduler hworkers
  rw [htaken] at hcursor hcut
  exact ⟨process, ts, past, s, run, by decide, htaken, rfl, hscheduler, hworkers, hcalls, hcalls',
    haborted, hcursor, hcut⟩

end Service

end SearchDaemon
