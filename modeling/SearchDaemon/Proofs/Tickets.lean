import SearchDaemon.Proofs.Acts

/-!
# Tickets on their way

A ticket is in flight from the moment it is put on the inbound channel until a worker
has delivered its response or its connection has been aborted for it. The lemmas here
say where the tickets in flight come from and what becomes of them in one act.
-/

namespace SearchDaemon

/-- The ticket a worker has taken from its queue. -/
def Worker.Phase.tickets : Worker.Phase → List Ticket
  | .processing t | .delivering t _ | .failing t => [t]
  | _ => []

/-- The tickets a worker has. -/
def Worker.tickets (w : Worker) : List Ticket := w.phase.tickets ++ w.queue.items

/-- The ticket the scheduler has taken from the inbound channel. -/
def Scheduler.Phase.tickets : Scheduler.Phase → List Ticket
  | .sending _ t => [t]
  | _ => []

namespace Service

/-- Some thread has the ticket, or a channel between them. -/
def InFlight (s : Service) (t : Ticket) : Prop :=
  t ∈ s.inbound.items ∨ t ∈ s.scheduler.phase.tickets ∨
    ∃ (i : Nat) (w : Worker), s.workers[i]? = some w ∧ t ∈ w.tickets

/-- The ticket's connection has been aborted. -/
def Cut (s : Service) (t : Ticket) : Prop :=
  ∀ k, t.connection = some k → ∃ c, s.connections[k]? = some c ∧ c.aborted = true

variable {process : Processing} {s s' : Service} {act : Act} {t : Ticket}

/-! ## A service just started -/

/-- The workers of a service just started. -/
def crew (n queue : Nat) : List Worker :=
  (List.range n).map fun index => { index, queue := { capacity := queue }, phase := .receiving }

theorem eq_of_getElem?_crew {n queue i : Nat} {w : Worker} (hw : (crew n queue)[i]? = some w) :
    w = { index := i, queue := { capacity := queue }, phase := .receiving } := by
  rw [crew, List.getElem?_map] at hw
  obtain ⟨j, hj, rfl⟩ := Option.map_eq_some_iff.mp hw
  obtain ⟨-, rfl⟩ := List.getElem?_eq_some_iff.mp hj
  rw [List.getElem_range]

theorem startWorker_workers (s : Service) (i : Nat) :
    (s.startWorker i).1 =
      { s with workers := s.workers.modify i fun w => { w with phase := .receiving } } := by
  unfold startWorker
  split
  · rename_i w hw
    rw [← set_eq_modify (fun w => { w with phase := .receiving }) hw]
    rfl
  · rename_i hnone
    rw [List.modify_eq_self (List.getElem?_eq_none_iff.mp hnone)]

/-- Starting the first `m` workers one by one. -/
theorem foldl_startWorker (s : Service) (m : Nat) (journal : Log.Journal) :
    ∃ ws, ((List.range m).foldl
        (fun (s, journal) i =>
          let (s, lines) := s.startWorker i
          (s, journal ++ lines)) (s, journal)).1 = { s with workers := ws } ∧
      ∀ j, ws[j]? = if j < m then (s.workers[j]?).map fun w => { w with phase := .receiving }
        else s.workers[j]? := by
  induction m with
  | zero => exact ⟨s.workers, rfl, fun j => by simp⟩
  | succ m ih =>
      obtain ⟨ws, heq, hws⟩ := ih
      refine ⟨ws.modify m fun w => { w with phase := .receiving }, ?_, ?_⟩
      · rw [List.range_succ, List.foldl_append, List.foldl_cons, List.foldl_nil]
        dsimp only
        rw [startWorker_workers, heq]
      · intro j
        rw [List.getElem?_modify, hws]
        by_cases hj : m = j
        · subst hj
          simp
        · have hlt : j < m + 1 ↔ j < m := by omega
          simp [hj, hlt]

theorem startWorkers_pool (n inbound queue : Nat) :
    ({ inbound := { capacity := inbound }, workers := Worker.pool n queue } :
      Service).startWorkers.1 =
        { inbound := { capacity := inbound }, workers := crew n queue } := by
  have hidle : (Worker.pool n queue).all (·.phase = .idle) = true := by
    simp [Worker.pool]
  obtain ⟨ws, heq, hws⟩ := foldl_startWorker
    { inbound := { capacity := inbound }, workers := Worker.pool n queue }
    (Worker.pool n queue).length []
  have hcrew : ws = crew n queue := by
    apply List.ext_getElem?
    intro j
    rw [hws]
    by_cases hj : j < n <;> simp [crew, Worker.pool, hj]
  unfold startWorkers
  dsimp only
  rw [if_pos hidle]
  dsimp only
  rw [heq, hcrew]

theorem launch_eq (n inbound queue : Nat) :
    launch n inbound queue =
      { inbound := { capacity := inbound }
        scheduler := { phase := .selecting }
        workers := crew n queue
        monitor := { phase := .receiving } } := by
  unfold launch
  dsimp only
  rw [startWorkers_pool]
  rfl

theorem not_inFlight_launch {n inbound queue : Nat} : ¬(launch n inbound queue).InFlight t := by
  rw [launch_eq]
  rintro (h | h | ⟨i, w, hw, ht⟩)
  · contradiction
  · contradiction
  · rw [eq_of_getElem?_crew hw] at ht
    contradiction

/-! ## Where tickets come from -/

theorem inbound_origin (step : s.act? process act = some s') (put : t ∈ s'.inbound.items) :
    t ∈ s.inbound.items ∨ act = .submit t ∧ s.holds t = true ∨
      ∃ k budget h c request, act = .step (.handler k budget) ∧ s.handlers[k]? = some h ∧
        s.connections[k]? = some c ∧ h.phase = .forwarding request ∧
        t = ticketOf k h c request := by
  cases acted_of_act? step with
  | step hstepped =>
      cases hstepped with
      | scheduler hdealt =>
          left
          cases hdealt with
          | takes _ _ hitems =>
              rw [hitems]
              exact List.mem_cons_of_mem _ put
          | _ => exact put
      | @handler k budget h _ c _ _ _ hh hc hhandled =>
          cases hhandled with
          | @forwards request hphase =>
              rcases List.mem_append.mp put with hold | hnew
              · exact Or.inl hold
              · exact Or.inr (Or.inr ⟨k, budget, h, c, request, rfl, hh, hc, hphase,
                  List.mem_singleton.mp hnew⟩)
          | _ => exact Or.inl (by simpa [afterHandler] using put)
      | _ => exact Or.inl put
  | atClient hinbound =>
      rw [hinbound] at put
      exact Or.inl put
  | onChannel _ hitems => exact (hitems t put).imp_right Or.inl

theorem Worked.tickets {w w' : Worker} {cs : List Connection} {told : List Event}
    (step : Worked process s w w' cs told) (h : t ∈ w'.tickets) : t ∈ w.tickets := by
  unfold Worker.tickets at h ⊢
  cases step with
  | takes hphase hitems => simpa [hphase, hitems, Worker.Phase.tickets] using h
  | leaves hphase | answers hphase | faults hphase | reports hphase | unheard hphase
  | ends hphase => simpa [hphase, Worker.Phase.tickets] using h
  | delivers hphase => exact List.mem_append_right _ (by simpa [Worker.Phase.tickets] using h)
  | cutsOff hphase => exact List.mem_append_right _ (by simpa [Worker.Phase.tickets] using h)
  | closes hphase => simpa [hphase, Worker.Phase.tickets, Channel.close] using h
  | drains hphase hitems =>
      rw [hitems]
      simp only [hphase, Worker.Phase.tickets, List.nil_append] at h ⊢
      exact List.mem_cons_of_mem _ h

theorem tickets_set {ws : List Worker} {i : Nat} {w' : Worker}
    (h : ∃ (j : Nat) (u : Worker), (ws.set i w')[j]? = some u ∧ t ∈ u.tickets) :
    t ∈ w'.tickets ∨ ∃ (j : Nat) (u : Worker), ws[j]? = some u ∧ t ∈ u.tickets := by
  obtain ⟨j, u, hu, ht⟩ := h
  rw [List.getElem?_set] at hu
  split at hu
  · split at hu
    · cases hu
      exact Or.inl ht
    · contradiction
  · exact Or.inr ⟨j, u, hu, ht⟩

/-- Dealing tickets out makes none. -/
theorem Dealt.inFlight (step : Dealt s s') (flight : s'.InFlight t) : s.InFlight t := by
  rcases flight with h | h | h
  · cases step with
    | takes _ _ hitems =>
        left
        rw [hitems]
        exact List.mem_cons_of_mem _ h
    | _ => exact Or.inl h
  · cases step with
    | takes _ _ hitems =>
        left
        rw [hitems, List.mem_singleton.mp h]
        exact List.mem_cons_self
    | _ => exact absurd h List.not_mem_nil
  · cases step with
    | sends hphase hw =>
        rcases tickets_set h with h | h
        · simp only [Worker.tickets, List.mem_append, List.mem_singleton] at h
          rcases h with h | h | rfl
          · exact Or.inr (Or.inr ⟨_, _, hw, List.mem_append_left _ h⟩)
          · exact Or.inr (Or.inr ⟨_, _, hw, List.mem_append_right _ h⟩)
          · right
            left
            rw [hphase]
            exact List.mem_singleton_self _
        · exact Or.inr (Or.inr h)
    | closes hphase hw =>
        rcases tickets_set h with h | h
        · exact Or.inr (Or.inr ⟨_, _, hw, h⟩)
        · exact Or.inr (Or.inr h)
    | _ => exact Or.inr (Or.inr h)

/-- Every ticket in flight was in flight before, or came in by this act. -/
theorem inFlight_origin (step : s.act? process act = some s') (flight : s'.InFlight t) :
    s.InFlight t ∨ act = .submit t ∧ s.holds t = true ∨
      ∃ k budget h c request, act = .step (.handler k budget) ∧ s.handlers[k]? = some h ∧
        s.connections[k]? = some c ∧ h.phase = .forwarding request ∧
        t = ticketOf k h c request := by
  by_cases hpool : act.isOfPool = true
  · left
    cases act with
    | step thread =>
        cases stepped_of_act? step with
        | @worker i w w' _ _ hw hworked =>
            rcases flight with h | h | h
            · exact Or.inl h
            · exact Or.inr (Or.inl h)
            · rcases tickets_set h with h | h
              · exact Or.inr (Or.inr ⟨i, w, hw, hworked.tickets h⟩)
              · exact Or.inr (Or.inr h)
        | scheduler hdealt => exact hdealt.inFlight flight
        | _ => contradiction
    | _ => contradiction
  · rw [Bool.not_eq_true] at hpool
    obtain ⟨hworkers, hscheduler⟩ := pool_unchanged hpool step
    rcases flight with h | h | h
    · exact (inbound_origin step h).imp_left Or.inl
    · rw [hscheduler] at h
      exact Or.inl (Or.inr (Or.inl h))
    · rw [hworkers] at h
      exact Or.inl (Or.inr (Or.inr h))

/-! ## Connections of tickets -/

theorem holds_iff : s.holds t = true ↔ ∀ k, t.connection = some k → k < s.connections.length := by
  unfold holds
  cases t.connection with
  | none => simp
  | some k => simp

/-- Connections are never taken away, and an abort lasts. -/
theorem connection_kept {k : Nat} {c : Connection} (step : s.act? process act = some s')
    (hc : s.connections[k]? = some c) :
    ∃ c', s'.connections[k]? = some c' ∧ (c.aborted = true → c'.aborted = true) := by
  by_cases hown : act.isOfHandler k = true
  · obtain ⟨budget, rfl⟩ := Act.eq_of_isOfHandler hown
    cases stepped_of_act? step with
    | @handler _ _ _ _ _ c' _ _ _ hc₀ hhandled =>
        cases hc.symm.trans hc₀
        refine ⟨c', ?_, ?_⟩
        · rw [afterHandler, getElem?_set_here hc]
        · intro habort
          cases hhandled with
          | rejects | objects => exact Connection.abort_aborted _
          | _ => exact habort
  · rw [Bool.not_eq_true] at hown
    obtain ⟨c', hc', touched⟩ := connection_touched hown step hc
    exact ⟨c', hc', fun habort => (touched.grown.aborted habort).1⟩

theorem Cut.kept (cut : s.Cut t) (step : s.act? process act = some s') : s'.Cut t := by
  intro k hk
  obtain ⟨c, hc, habort⟩ := cut k hk
  obtain ⟨c', hc', hkept⟩ := connection_kept step hc
  exact ⟨c', hc', hkept habort⟩

theorem holds_kept (h : s.holds t = true) (step : s.act? process act = some s') :
    s'.holds t = true := by
  rw [holds_iff] at h ⊢
  intro k hk
  obtain ⟨c', hc', -⟩ := connection_kept step (List.getElem?_eq_getElem (h k hk))
  exact (List.getElem?_eq_some_iff.mp hc').1

/-- Aborting a ticket's connection cuts the ticket off. -/
theorem cut_of_abortAt (h : s.holds t = true)
    (hs : s'.connections = abortAt t.connection s.connections) : s'.Cut t := by
  intro k hk
  have hc := List.getElem?_eq_getElem (holds_iff.mp h k hk)
  have hcut := getElem?_abortAt t.connection hc
  rw [← hs, if_pos hk] at hcut
  exact ⟨_, hcut, Connection.abort_aborted _⟩

/-- Every ticket in flight has its connection in the service. -/
theorem inFlight_holds {n inbound queue : Nat} {past : List (Moment Service Act)}
    (run : Run (act? process) (launch n inbound queue) past s) :
    ∀ t, s.InFlight t → s.holds t = true := by
  refine run.keeps (P := fun s => ∀ t, s.InFlight t → s.holds t = true) ?_ ?_
  · -- A ticket that has come in carries the position of the handler that made it.
    intro s act s' ih step t flight
    rcases inFlight_origin step flight with h | ⟨-, h⟩ | ⟨k, _, _, c, _, -, -, hc, -, rfl⟩
    · exact holds_kept (ih t h) step
    · exact holds_kept h step
    · refine holds_kept ?_ step
      rw [holds_iff]
      intro j hj
      cases hj
      exact (List.getElem?_eq_some_iff.mp hc).1
  · exact fun t flight => absurd flight not_inFlight_launch

/-! ## Where tickets go -/

/-- A worker parts from a ticket by delivering its response or aborting its connection. -/
theorem Worked.parts {w w' : Worker} {cs : List Connection} {told : List Event}
    (step : Worked process s w w' cs told) (h : t ∈ w.tickets) :
    t ∈ w'.tickets ∨
      (∃ r, w.phase = .delivering t r ∧ cs = deliverAt t.connection t.sequence r s.connections) ∨
      cs = abortAt t.connection s.connections := by
  unfold Worker.tickets at h ⊢
  cases step with
  | takes hphase hitems =>
      left
      simpa [hphase, hitems, Worker.Phase.tickets] using h
  | leaves hphase | answers hphase | faults hphase | reports hphase | unheard hphase
  | ends hphase =>
      left
      simpa [hphase, Worker.Phase.tickets] using h
  | closes hphase =>
      left
      simpa [hphase, Worker.Phase.tickets, Channel.close] using h
  | delivers hphase =>
      rw [hphase] at h
      rcases List.mem_append.mp h with h | h
      · rw [List.mem_singleton.mp h]
        exact Or.inr (Or.inl ⟨_, hphase, rfl⟩)
      · exact Or.inl (List.mem_append_right _ h)
  | cutsOff hphase =>
      rw [hphase] at h
      rcases List.mem_append.mp h with h | h
      · rw [List.mem_singleton.mp h]
        exact Or.inr (Or.inr rfl)
      · exact Or.inl (List.mem_append_right _ h)
  | drains hphase hitems =>
      rw [hphase, hitems] at h
      rcases List.mem_cons.mp h with rfl | h
      · exact Or.inr (Or.inr rfl)
      · exact Or.inl (List.mem_append_right _ h)

/-- The scheduler parts from a ticket by aborting its connection. -/
theorem Dealt.parts (step : Dealt s s') (flight : s.InFlight t) :
    s'.InFlight t ∨ s'.connections = abortAt t.connection s.connections := by
  have hstays (hnone : s.scheduler.phase.tickets = []) (hinbound : s'.inbound = s.inbound)
      (hworkers : ∀ (i : Nat) (u : Worker), s.workers[i]? = some u → t ∈ u.tickets →
        ∃ (j : Nat) (u' : Worker), s'.workers[j]? = some u' ∧ t ∈ u'.tickets) :
      s'.InFlight t := by
    rcases flight with h | h | ⟨i, u, hu, ht⟩
    · exact Or.inl (hinbound ▸ h)
    · rw [hnone] at h
      contradiction
    · exact Or.inr (Or.inr (hworkers i u hu ht))
  have hset {n : Nat} {w w' : Worker} (hw : s.workers[n]? = some w)
      (hall : ∀ t ∈ w.tickets, t ∈ w'.tickets) (i : Nat) (u : Worker)
      (hu : s.workers[i]? = some u) (ht : t ∈ u.tickets) :
      ∃ (j : Nat) (u' : Worker), (s.workers.set n w')[j]? = some u' ∧ t ∈ u'.tickets := by
    by_cases hin : n = i
    · subst hin
      cases hw.symm.trans hu
      exact ⟨n, w', getElem?_set_here hw, hall t ht⟩
    · exact ⟨i, u, by rw [List.getElem?_set_ne hin, hu], ht⟩
  cases step with
  | stops hphase | runsDry hphase | ends hphase =>
      exact Or.inl (hstays (by rw [hphase]; rfl) rfl fun i u hu ht => ⟨i, u, hu, ht⟩)
  | closes hphase hw =>
      exact Or.inl (hstays (by rw [hphase]; rfl) rfl (hset hw fun _ hu => hu))
  | takes hphase _ hitems =>
      left
      rcases flight with h | h | h
      · rw [hitems] at h
        rcases List.mem_cons.mp h with rfl | h
        · exact Or.inr (Or.inl (List.mem_singleton_self _))
        · exact Or.inl h
      · rw [hphase] at h
        contradiction
      · exact Or.inr (Or.inr h)
  | @sends n u w hphase hw =>
      left
      rcases flight with h | h | ⟨i, v, hv, ht⟩
      · exact Or.inl h
      · rw [hphase] at h
        rw [List.mem_singleton.mp h]
        refine Or.inr (Or.inr ⟨n, _, getElem?_set_here hw, ?_⟩)
        simp [Worker.tickets]
      · refine Or.inr (Or.inr (hset hw ?_ i v hv ht))
        intro u hu
        rw [Worker.tickets, ← List.append_assoc]
        exact List.mem_append_left _ hu
  | refuses hphase =>
      rcases flight with h | h | h
      · exact Or.inl (Or.inl h)
      · rw [hphase] at h
        rw [List.mem_singleton.mp h]
        exact Or.inr rfl
      · exact Or.inl (Or.inr (Or.inr h))

end Service

end SearchDaemon
