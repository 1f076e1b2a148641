import Mathlib.Data.List.Basic
import SearchDaemon.Proofs.Delivery
import SearchDaemon.Service.Step

/-!
# What a step of a service comes to

For every thread one inductive type lists all it can do in one step, with the
conditions under which it does so and the service it leaves. Later proofs go by
these cases and do not look at the definition of a step again.
-/

namespace SearchDaemon

/-- The response to a ticket, under the request's own number; none if processing it fails. -/
def responseTo (process : Processing) (t : Ticket) : Option Response :=
  match (process t).1 with
  | .answer response => some { response with requestId := t.request.id }
  | .fault _ => none

/-- The connection with these bytes unread. -/
def Connection.withUnread (c : Connection) (bs : Bytes) : Connection :=
  { c with inlet := { c.inlet with unread := bs } }

/-! ## Channels -/

/-- A channel with some more items. -/
def Channel.put {α : Type} (ch : Channel α) (items : List α) : Channel α :=
  { ch with items := ch.items ++ items }

@[simp]
theorem Channel.put_nil {α : Type} (ch : Channel α) : ch.put [] = ch := by
  rw [put, List.append_nil]

namespace Service

variable {process : Processing} {s s' : Service} {journal : Log.Journal}

/-! ## Connections at a position -/

/-- Aborts the connection at a position, if there is one. -/
def abortAt (position : Option Nat) (cs : List Connection) : List Connection :=
  match position with
  | none => cs
  | some k => cs.modify k fun c => c.abort.1

/-- Delivers a response to the connection at a position, if there is one. -/
def deliverAt (position : Option Nat) (sequence : Nat) (r : Response)
    (cs : List Connection) : List Connection :=
  match position with
  | none => cs
  | some k => cs.modify k fun c => (c.deliver sequence r).2.1

theorem set_eq_modify {α : Type} {l : List α} {i : Nat} {a : α} (f : α → α)
    (h : l[i]? = some a) : l.set i (f a) = l.modify i f := by
  apply List.ext_getElem?
  intro j
  rw [List.getElem?_set, List.getElem?_modify]
  by_cases hij : i = j
  · subst hij
    obtain ⟨hlt, -⟩ := List.getElem?_eq_some_iff.mp h
    rw [if_pos rfl, if_pos hlt, h]
    simp
  · simp [hij]

theorem set_self {α : Type} {l : List α} {i : Nat} {a : α} (h : l[i]? = some a) :
    l.set i a = l := by
  have hmodify := set_eq_modify id h
  rw [List.modify_id] at hmodify
  exact hmodify

theorem getElem?_set_here {α : Type} {l : List α} {i : Nat} {a b : α} (h : l[i]? = some a) :
    (l.set i b)[i]? = some b :=
  List.getElem?_set_self (List.getElem?_eq_some_iff.mp h).1

/-- What stands at a position after a change at one. -/
theorem getElem?_set_cases {α : Type} {l : List α} {i j : Nat} {a b found : α}
    (h : l[i]? = some a) (hfound : (l.set i b)[j]? = some found) :
    i = j ∧ found = b ∨ i ≠ j ∧ l[j]? = some found := by
  by_cases hij : i = j
  · subst hij
    rw [getElem?_set_here h] at hfound
    cases hfound
    exact Or.inl ⟨rfl, rfl⟩
  · rw [List.getElem?_set_ne hij] at hfound
    exact Or.inr ⟨hij, hfound⟩

theorem abortConnection_eq (s : Service) (position : Option Nat) :
    (s.abortConnection position).1 =
      { s with connections := abortAt position s.connections } := by
  cases position with
  | none => rfl
  | some k =>
      unfold abortConnection abortAt
      dsimp only
      split
      · rename_i hnone
        rw [List.modify_eq_self (List.getElem?_eq_none_iff.mp hnone)]
      · rename_i c hsome
        rw [← set_eq_modify (fun c => c.abort.1) hsome]
        rfl

theorem handOver_eq (s : Service) (i : Nat) (w : Worker) (t : Ticket) (r : Response) :
    (s.handOver i w t r).1 =
      { s with
        connections := deliverAt t.connection t.sequence r s.connections
        workers :=
          s.workers.set i { w with phase := .receiving, processed := w.processed + 1 } } := by
  unfold handOver
  cases htc : t.connection with
  | none => rfl
  | some k =>
      dsimp only [deliverAt]
      split
      · rename_i hnone
        rw [List.modify_eq_self (List.getElem?_eq_none_iff.mp hnone)]
        rfl
      · rename_i c hsome
        rw [← set_eq_modify (fun c => (c.deliver t.sequence r).2.1) hsome]
        rfl

/-! ## Sending and receiving -/

/-- What `send?` can answer. -/
theorem send?_cases {α : Type} {ch ch' : Channel α} {item : α} {taken : Bool}
    (h : ch.send? item = some (taken, ch')) :
    (taken = false ∧ ch.closed = true ∧ ch' = ch) ∨
      (taken = true ∧ ch.closed = false ∧ ch.hasRoom = true ∧
        ch' = { ch with items := ch.items ++ [item] }) := by
  unfold Channel.send? at h
  split at h
  · rename_i hclosed
    cases h
    exact Or.inl ⟨rfl, hclosed, rfl⟩
  · rename_i hopen
    split at h
    · rename_i hroom
      cases h
      exact Or.inr ⟨rfl, Bool.eq_false_iff.mpr hopen, hroom, rfl⟩
    · contradiction

/-- What `take` gives. -/
theorem take_cases {α : Type} (ch : Channel α) :
    (ch.items = [] ∧ ch.take = (none, ch)) ∨
      ∃ item rest, ch.items = item :: rest ∧ ch.take = (some item, { ch with items := rest }) := by
  unfold Channel.take
  split
  · rename_i hnil
    exact Or.inl ⟨hnil, rfl⟩
  · rename_i item rest hcons
    exact Or.inr ⟨item, rest, hcons, rfl⟩

@[simp] theorem take_capacity {α : Type} (ch : Channel α) : ch.take.2.capacity = ch.capacity := by
  rcases take_cases ch with ⟨-, h⟩ | ⟨_, _, -, h⟩ <;> rw [h]

/-- What `receive?` can answer. -/
theorem receive?_cases {α : Type} {ch ch' : Channel α} {item : Option α}
    (h : ch.receive? = some (item, ch')) :
    (item = none ∧ ch.items = [] ∧ ch.closed = true ∧ ch' = ch) ∨
      ∃ first rest, item = some first ∧ ch.items = first :: rest ∧
        ch' = { ch with items := rest } := by
  unfold Channel.receive? at h
  split at h
  · rename_i hready
    rcases take_cases ch with ⟨hnil, htake⟩ | ⟨first, rest, hcons, htake⟩
    · rw [htake] at h
      cases h
      refine Or.inl ⟨rfl, hnil, ?_, rfl⟩
      simpa [Channel.isReady, hnil] using hready
    · rw [htake] at h
      cases h
      exact Or.inr ⟨first, rest, rfl, hcons, rfl⟩
  · contradiction

/-! ## Handlers -/

/-- The ticket a handler makes of a request. -/
def ticketOf (i : Nat) (h : Handler) (c : Connection) (request : Request) : Ticket :=
  { client := c.client, sequence := h.forwarded, request, connection := some i }

/-- What one step of the handler at a position can come to: the handler and its connection
afterwards, the tickets it puts on the inbound channel and the events it emits. -/
inductive Handled (s : Service) (i : Nat) (h : Handler) (c : Connection) :
    Handler → Connection → List Ticket → List Event → Prop
  | stops {reader : Frame.Reader} : h.phase = .reading reader → h.stopRequested = true →
      Handled s i h c { h with phase := .finishing .stopped } c [] []
  /-- There is nothing more to read. -/
  | runsDry {reader : Frame.Reader} : h.phase = .reading reader → h.stopRequested = false →
      c.inlet.unread = [] → c.inlet.ended = true →
      Handled s i h c { h with phase := .finishing .disconnected }
        { c with inlet := { c.inlet with reset := false } } [] []
  | readsOn {reader reader' : Frame.Reader} {piece later : Bytes} :
      h.phase = .reading reader → h.stopRequested = false →
      c.inlet.unread = piece ++ later → reader.take piece = .waiting reader' → piece ≠ [] →
      Handled s i h c { h with phase := .reading reader' } (c.withUnread later) [] []
  | finds {reader : Frame.Reader} {piece later body rest : Bytes} {request : Request} :
      h.phase = .reading reader → h.stopRequested = false →
      c.inlet.unread = piece ++ later → reader.take piece = .frame body rest →
      Request.decode body = .ok request → piece ≠ [] →
      Handled s i h c { h with phase := .forwarding request } (c.withUnread (rest ++ later)) [] []
  /-- The body of a frame is no request. -/
  | rejects {reader : Frame.Reader} {piece later body rest : Bytes} {e : DecodeError} :
      h.phase = .reading reader → h.stopRequested = false →
      c.inlet.unread = piece ++ later → reader.take piece = .frame body rest →
      Request.decode body = .error e → piece ≠ [] →
      Handled s i h c { h with phase := .finishing .disconnected }
        (c.withUnread (rest ++ later)).abort.1 [] []
  /-- A frame has a length that no frame may announce. -/
  | objects {reader : Frame.Reader} {piece later rest : Bytes} {n : Nat} :
      h.phase = .reading reader → h.stopRequested = false →
      c.inlet.unread = piece ++ later → reader.take piece = .invalid n rest → piece ≠ [] →
      Handled s i h c { h with phase := .finishing .disconnected }
        (c.withUnread (rest ++ later)).abort.1 [] []
  | forwards {request : Request} : h.phase = .forwarding request →
      s.inbound.closed = false → s.inbound.hasRoom = true →
      Handled s i h c { h with phase := .reading Frame.Reader.start, forwarded := h.forwarded + 1 }
        c [ticketOf i h c request] []
  | turnedAway {request : Request} : h.phase = .forwarding request → s.inbound.closed = true →
      Handled s i h c { h with phase := .finishing .stopped } c [] []
  | finishes {why : Handler.Ending} : h.phase = .finishing why →
      Handled s i h c { h with phase := .joining why } (c.finish h.forwarded) [] []
  | leaves : h.phase = .joining .stopped → c.writer.isRunning = false →
      Handled s i h c { h with phase := .ended } c [] []
  | joins : h.phase = .joining .disconnected → c.writer.isRunning = false →
      Handled s i h c { h with phase := .reporting } c [] []
  | reports : h.phase = .reporting → s.events.closed = false → s.events.hasRoom = true →
      Handled s i h c { h with phase := .ended } c [] [.disconnected c.client h.forwarded]
  /-- Nobody listens to events any more. -/
  | unheard : h.phase = .reporting → s.events.closed = true →
      Handled s i h c { h with phase := .ended } c [] []

/-- The service after a step of the handler at a position. -/
def afterHandler (s : Service) (i : Nat) (h : Handler) (c : Connection) (tickets : List Ticket)
    (told : List Event) : Service :=
  { s with
    inbound := s.inbound.put tickets
    events := s.events.put told
    connections := s.connections.set i c
    handlers := s.handlers.set i h }

theorem afterHandler_quiet {i : Nat} {h : Handler} {c : Connection} :
    s.afterHandler i h c [] [] = (s.setConnection i c).setHandler i h := by
  simp [afterHandler, setConnection, setHandler]

/-- A handler that reads goes by a stop before it looks for bytes. -/
theorem read?_eq (budget i : Nat) (h : Handler) (c : Connection) (reader : Frame.Reader) :
    s.read? budget i h c reader =
      if h.stopRequested then some (s.setHandler i { h with phase := .finishing .stopped }, [])
      else if c.inlet.isReady then some (s.receive budget i h c reader)
      else none := by
  simp only [read?, Poll.wait_input]
  cases h.stopRequested <;> cases c.inlet.isReady <;> rfl

theorem handled_of_receive {budget i : Nat} {h : Handler} {c : Connection}
    {reader : Frame.Reader} (hphase : h.phase = .reading reader)
    (hgo : h.stopRequested = false) (ready : c.inlet.isReady = true) :
    ∃ h' c', Handled s i h c h' c' [] [] ∧
      (s.receive budget i h c reader).1 = s.afterHandler i h' c' [] [] := by
  have hsplit := (List.take_append_drop (budget + 1) c.inlet.unread).symm
  simp only [receive, partWays, interpret]
  -- An empty piece can only mean that the stream has ended.
  split
  · rename_i hempty
    have hdry : c.inlet.unread = [] := by
      rw [List.isEmpty_iff, List.take_eq_nil_iff] at hempty
      simpa using hempty
    have hended : c.inlet.ended = true := by simpa [Inlet.isReady, hdry] using ready
    exact ⟨_, _, .runsDry hphase hgo hdry hended, afterHandler_quiet.symm⟩
  · rename_i hempty
    have hsome : c.inlet.unread.take (budget + 1) ≠ [] := by simpa using hempty
    split
    · rename_i htake
      exact ⟨_, _, .readsOn hphase hgo hsplit htake hsome, afterHandler_quiet.symm⟩
    · rename_i htake
      split
      · rename_i hdecode
        exact ⟨_, _, .finds hphase hgo hsplit htake hdecode hsome, afterHandler_quiet.symm⟩
      · rename_i hdecode
        exact ⟨_, _, .rejects hphase hgo hsplit htake hdecode hsome, afterHandler_quiet.symm⟩
    · rename_i htake
      exact ⟨_, _, .objects hphase hgo hsplit htake hsome, afterHandler_quiet.symm⟩

theorem handled_of_read? {budget i : Nat} {h : Handler} {c : Connection} {reader : Frame.Reader}
    (hc : s.connections[i]? = some c) (hphase : h.phase = .reading reader)
    (step : s.read? budget i h c reader = some (s', journal)) :
    ∃ h' c', Handled s i h c h' c' [] [] ∧ s' = s.afterHandler i h' c' [] [] := by
  rw [read?_eq] at step
  split at step
  · rename_i hstop
    cases step
    refine ⟨_, _, .stops hphase hstop, ?_⟩
    rw [afterHandler_quiet, setConnection, set_self hc]
  · rename_i hgo
    split at step
    · rename_i hready
      obtain ⟨h', c', handled, hafter⟩ :=
        @handled_of_receive s budget _ _ _ _ hphase (Bool.eq_false_iff.mpr hgo) hready
      exact ⟨h', c', handled, by rw [← hafter, Option.some.inj step]⟩
    · contradiction

theorem handled_of_handlerStep? {budget i : Nat}
    (step : s.handlerStep? budget i = some (s', journal)) :
    ∃ h c h' c' tickets told, s.handlers[i]? = some h ∧ s.connections[i]? = some c ∧
      Handled s i h c h' c' tickets told ∧ s' = s.afterHandler i h' c' tickets told := by
  unfold handlerStep? at step
  cases hh : s.handlers[i]? with
  | none => simp [hh] at step
  | some h =>
      cases hc : s.connections[i]? with
      | none => simp [hh, hc] at step
      | some c =>
          have hkept {h' : Handler} : s.setHandler i h' = s.afterHandler i h' c [] [] := by
            rw [afterHandler_quiet, setConnection, set_self hc]
          simp only [hh, hc, Option.bind_eq_bind, Option.bind_some] at step
          split at step
          · contradiction
          · contradiction
          · rename_i hphase
            obtain ⟨h', c', hhandled, hafter⟩ := handled_of_read? hc hphase step
            exact ⟨h, c, h', c', [], [], rfl, rfl, hhandled, hafter⟩
          · rename_i request hphase
            cases hsend : s.inbound.send? (ticketOf i h c request) with
            | none =>
                rw [ticketOf] at hsend
                simp [hsend] at step
            | some sent =>
                obtain ⟨taken, inbound⟩ := sent
                rw [ticketOf] at hsend
                simp only [hsend, Option.bind_some] at step
                rcases send?_cases hsend with ⟨rfl, hclosed, -⟩ | ⟨rfl, hopen, hroom, rfl⟩
                · cases step
                  exact ⟨h, c, _, _, _, _, rfl, rfl, .turnedAway hphase hclosed, hkept⟩
                · cases step
                  refine ⟨h, c, _, _, _, _, rfl, rfl, .forwards hphase hopen hroom, ?_⟩
                  rw [afterHandler, Channel.put_nil, set_self hc]
                  rfl
          · rename_i hphase
            cases step
            exact ⟨h, c, _, _, _, _, rfl, rfl, .finishes hphase, afterHandler_quiet.symm⟩
          · rename_i why hphase
            split at step
            · contradiction
            · rename_i hdone
              rw [Bool.not_eq_true] at hdone
              cases why with
              | stopped =>
                  cases step
                  exact ⟨h, c, _, _, _, _, rfl, rfl, .leaves hphase hdone, hkept⟩
              | disconnected =>
                  cases step
                  exact ⟨h, c, _, _, _, _, rfl, rfl, .joins hphase hdone, hkept⟩
          · rename_i hphase
            cases hsend : s.events.send? (.disconnected c.client h.forwarded) with
            | none => simp [hsend] at step
            | some sent =>
                obtain ⟨accepted, events⟩ := sent
                simp only [hsend, Option.bind_some] at step
                cases step
                rcases send?_cases hsend with ⟨-, hclosed, rfl⟩ | ⟨-, hopen, hroom, rfl⟩
                · exact ⟨h, c, _, _, _, _, rfl, rfl, .unheard hphase hclosed, hkept⟩
                · refine ⟨h, c, _, _, _, _, rfl, rfl, .reports hphase hopen hroom, ?_⟩
                  rw [afterHandler, Channel.put_nil, set_self hc]
                  rfl

/-! ## Workers -/

/-- What one step of a worker can come to: the worker and all connections afterwards, and
the events it emits. -/
inductive Worked (process : Processing) (s : Service) (w : Worker) :
    Worker → List Connection → List Event → Prop
  | takes {t : Ticket} {rest : List Ticket} : w.phase = .receiving → w.queue.items = t :: rest →
      Worked process s w
        { w with queue := { w.queue with items := rest }, phase := .processing t }
        s.connections []
  | leaves : w.phase = .receiving → w.queue.items = [] → w.queue.closed = true →
      Worked process s w { w with phase := .ended } s.connections []
  | answers {t : Ticket} {r : Response} : w.phase = .processing t →
      responseTo process t = some r →
      Worked process s w { w with phase := .delivering t r } s.connections []
  | faults {t : Ticket} : w.phase = .processing t → responseTo process t = none →
      Worked process s w { w with phase := .failing t, dead := true } s.connections []
  | delivers {t : Ticket} {r : Response} : w.phase = .delivering t r →
      Worked process s w { w with phase := .receiving, processed := w.processed + 1 }
        (deliverAt t.connection t.sequence r s.connections) []
  | cutsOff {t : Ticket} : w.phase = .failing t →
      Worked process s w { w with phase := .reporting } (abortAt t.connection s.connections) []
  | reports : w.phase = .reporting → s.events.closed = false → s.events.hasRoom = true →
      Worked process s w { w with phase := .closing } s.connections [.workerDied w.index]
  /-- Nobody listens to events any more. -/
  | unheard : w.phase = .reporting → s.events.closed = true →
      Worked process s w { w with phase := .closing } s.connections []
  | closes : w.phase = .closing →
      Worked process s w { w with queue := w.queue.close, phase := .draining } s.connections []
  | drains {t : Ticket} {rest : List Ticket} : w.phase = .draining → w.queue.items = t :: rest →
      Worked process s w
        { w with queue := { w.queue with items := rest }, stranded := w.stranded + 1 }
        (abortAt t.connection s.connections) []
  | ends : w.phase = .draining → w.queue.items = [] →
      Worked process s w { w with phase := .ended } s.connections []

/-- The service after a step of the worker at a position. -/
def afterWorker (s : Service) (i : Nat) (w : Worker) (connections : List Connection)
    (told : List Event) : Service :=
  { s with
    events := s.events.put told
    workers := s.workers.set i w
    connections }

theorem afterWorker_quiet {i : Nat} {w : Worker} {cs : List Connection} :
    s.afterWorker i w cs [] = { s with workers := s.workers.set i w, connections := cs } := by
  rw [afterWorker, Channel.put_nil]

theorem workOn_eq (s : Service) (i : Nat) (w : Worker) (t : Ticket) :
    (s.workOn process i w t).1 =
      match responseTo process t with
      | some r => s.setWorker i { w with phase := .delivering t r }
      | none => s.setWorker i { w with phase := .failing t, dead := true } := by
  unfold workOn responseTo
  cases h : process t with
  | mk verdict lines => cases verdict <;> rfl

theorem worked_of_workerStep? {i : Nat} (step : s.workerStep? process i = some (s', journal)) :
    ∃ w w' cs told, s.workers[i]? = some w ∧ Worked process s w w' cs told ∧
      s' = s.afterWorker i w' cs told := by
  unfold workerStep? at step
  cases hw : s.workers[i]? with
  | none => simp [hw] at step
  | some w =>
      simp only [hw, Option.bind_eq_bind, Option.bind_some] at step
      split at step
      · contradiction
      · contradiction
      · rename_i hphase
        cases hreceive : w.queue.receive? with
        | none => simp [hreceive] at step
        | some received =>
            obtain ⟨item, queue⟩ := received
            simp only [hreceive, Option.bind_some] at step
            rcases receive?_cases hreceive with ⟨rfl, hnil, hclosed, -⟩ | ⟨t, rest, rfl, hcons, rfl⟩
            · cases step
              exact ⟨w, _, _, _, rfl, .leaves hphase hnil hclosed, afterWorker_quiet.symm⟩
            · cases step
              exact ⟨w, _, _, _, rfl, .takes hphase hcons, afterWorker_quiet.symm⟩
      · rename_i t hphase
        have hafter : (s.workOn process i w t).1 = s' := congrArg Prod.fst (Option.some.inj step)
        rw [workOn_eq] at hafter
        cases hr : responseTo process t with
        | some r =>
            rw [hr] at hafter
            subst hafter
            exact ⟨w, _, _, _, rfl, .answers hphase hr, afterWorker_quiet.symm⟩
        | none =>
            rw [hr] at hafter
            subst hafter
            exact ⟨w, _, _, _, rfl, .faults hphase hr, afterWorker_quiet.symm⟩
      · rename_i t r hphase
        have hafter : (s.handOver i w t r).1 = s' := congrArg Prod.fst (Option.some.inj step)
        rw [handOver_eq] at hafter
        subst hafter
        exact ⟨w, _, _, _, rfl, .delivers hphase, afterWorker_quiet.symm⟩
      · rename_i t hphase
        have hafter : (s.abortConnection t.connection).1.setWorker i
            { w with phase := .reporting } = s' := congrArg Prod.fst (Option.some.inj step)
        rw [abortConnection_eq] at hafter
        subst hafter
        exact ⟨w, _, _, _, rfl, .cutsOff hphase, afterWorker_quiet.symm⟩
      · rename_i hphase
        cases hsend : s.events.send? (.workerDied w.index) with
        | none => simp [hsend] at step
        | some sent =>
            obtain ⟨accepted, events⟩ := sent
            simp only [hsend, Option.bind_some] at step
            cases step
            rcases send?_cases hsend with ⟨-, hclosed, rfl⟩ | ⟨-, hopen, hroom, rfl⟩
            · exact ⟨w, _, _, _, rfl, .unheard hphase hclosed, afterWorker_quiet.symm⟩
            · exact ⟨w, _, _, _, rfl, .reports hphase hopen hroom, rfl⟩
      · rename_i hphase
        cases step
        exact ⟨w, _, _, _, rfl, .closes hphase, afterWorker_quiet.symm⟩
      · rename_i hphase
        rcases take_cases w.queue with ⟨hnil, htake⟩ | ⟨t, rest, hcons, htake⟩
        · rw [htake] at step
          cases step
          exact ⟨w, _, _, _, rfl, .ends hphase hnil, afterWorker_quiet.symm⟩
        · rw [htake] at step
          have hafter := congrArg Prod.fst (Option.some.inj step)
          dsimp only at hafter
          rw [abortConnection_eq] at hafter
          subst hafter
          exact ⟨w, _, _, _, rfl, .drains hphase hcons, afterWorker_quiet.symm⟩

/-! ## The scheduler -/

/-- What one step of the scheduler can come to. -/
inductive Dealt (s : Service) : Service → Prop
  | stops : s.scheduler.phase = .selecting → s.stop.isReady = true →
      Dealt s
        { s with
          stop := s.stop.take.2
          scheduler := { s.scheduler with phase := .closing 0 } }
  | runsDry : s.scheduler.phase = .selecting → s.stop.isReady = false → s.inbound.items = [] →
      s.inbound.closed = true →
      Dealt s { s with scheduler := { s.scheduler with phase := .closing 0 } }
  | takes {t : Ticket} {rest : List Ticket} : s.scheduler.phase = .selecting →
      s.stop.isReady = false → s.inbound.items = t :: rest →
      Dealt s
        { s with
          inbound := { s.inbound with items := rest }
          scheduler :=
            { s.scheduler with
              phase := .sending s.scheduler.cursor t
              cursor := (s.scheduler.cursor + 1) % s.workers.length } }
  | sends {n : Nat} {t : Ticket} {w : Worker} : s.scheduler.phase = .sending n t →
      s.workers[n]? = some w → w.queue.closed = false → w.queue.hasRoom = true →
      Dealt s
        { s with
          workers := s.workers.set n
            { w with queue := { w.queue with items := w.queue.items ++ [t] } }
          scheduler :=
            { s.scheduler with phase := .selecting, dispatched := s.scheduler.dispatched + 1 } }
  /-- The worker whose turn it is has closed its queue. -/
  | refuses {n : Nat} {t : Ticket} {w : Worker} : s.scheduler.phase = .sending n t →
      s.workers[n]? = some w → w.queue.closed = true →
      Dealt s
        { s with
          connections := abortAt t.connection s.connections
          scheduler :=
            { s.scheduler with phase := .selecting, refused := s.scheduler.refused + 1 } }
  | closes {n : Nat} {w : Worker} : s.scheduler.phase = .closing n → s.workers[n]? = some w →
      Dealt s
        { s with
          workers := s.workers.set n { w with queue := w.queue.close }
          scheduler := { s.scheduler with phase := .closing (n + 1) } }
  | ends {n : Nat} : s.scheduler.phase = .closing n → s.workers[n]? = none →
      Dealt s { s with scheduler := { s.scheduler with phase := .ended } }

theorem dealt_of_select? (hphase : s.scheduler.phase = .selecting)
    (step : s.select? = some (s', journal)) : Dealt s s' := by
  unfold select? Channel.select? at step
  split at step
  · rename_i hstop
    rcases take_cases s.stop with ⟨-, htake⟩ | ⟨first, rest, -, htake⟩
    · simp only [htake, Option.bind_eq_bind, Option.bind_some] at step
      cases step
      have := Dealt.stops hphase hstop
      rw [htake] at this
      exact this
    · simp only [htake, Option.bind_eq_bind, Option.bind_some] at step
      cases step
      have := Dealt.stops hphase hstop
      rw [htake] at this
      exact this
  · rename_i hquiet
    rw [Bool.not_eq_true] at hquiet
    split at step
    · rename_i hinbound
      rcases take_cases s.inbound with ⟨hnil, htake⟩ | ⟨t, rest, hcons, htake⟩
      · have hclosed : s.inbound.closed = true := by
          simpa [Channel.isReady, hnil] using hinbound
        simp only [htake, Option.bind_eq_bind, Option.bind_some] at step
        cases step
        exact .runsDry hphase hquiet hnil hclosed
      · simp only [htake, Option.bind_eq_bind, Option.bind_some] at step
        cases step
        exact .takes hphase hquiet hcons
    · contradiction

theorem dealt_of_schedulerStep? (step : s.schedulerStep? = some (s', journal)) : Dealt s s' := by
  unfold schedulerStep? at step
  split at step
  · contradiction
  · contradiction
  · rename_i hphase
    exact dealt_of_select? hphase step
  · rename_i n t hphase
    unfold dispatch? at step
    cases hw : s.workers[n]? with
    | none => simp [hw] at step
    | some w =>
        cases hsend : w.queue.send? t with
        | none => simp [hw, hsend] at step
        | some sent =>
            obtain ⟨taken, queue⟩ := sent
            simp only [hw, hsend, Option.bind_eq_bind, Option.bind_some] at step
            rcases send?_cases hsend with ⟨rfl, hclosed, -⟩ | ⟨rfl, hopen, hroom, rfl⟩
            · have hafter := congrArg Prod.fst (Option.some.inj step)
              dsimp only at hafter
              rw [abortConnection_eq] at hafter
              subst hafter
              exact .refuses hphase hw hclosed
            · cases step
              exact .sends hphase hw hopen hroom
  · rename_i n hphase
    cases hw : s.workers[n]? with
    | none =>
        rw [hw] at step
        cases step
        exact .ends hphase hw
    | some w =>
        rw [hw] at step
        cases step
        exact .closes hphase hw

/-! ## The monitor -/

/-- What one step of the monitor can come to. -/
inductive Heard (s : Service) : Service → Prop
  | left {client requests : Nat} {rest : List Event} : s.monitor.phase = .receiving →
      s.events.items = .disconnected client requests :: rest →
      Heard s
        { s with
          events := { s.events with items := rest }
          monitor :=
            { s.monitor with
              phase := if client ∈ s.monitor.registered then .joining client else .receiving
              registered := s.monitor.registered.filter (· ≠ client)
              disconnected := s.monitor.disconnected + 1
              requestsFromDisconnected := s.monitor.requestsFromDisconnected + requests } }
  | died {worker : Nat} {rest : List Event} : s.monitor.phase = .receiving →
      s.events.items = .workerDied worker :: rest →
      Heard s
        { s with
          events := { s.events with items := rest }
          monitor :=
            { s.monitor with
              deadWorkers := s.monitor.deadWorkers + 1
              shutdownRequested := s.monitor.shutdownRequested ||
                decide (s.workers.length ≤ s.monitor.deadWorkers + 1) } }
  | ends : s.monitor.phase = .receiving → s.events.items = [] → s.events.closed = true →
      Heard s { s with monitor := { s.monitor with phase := .ended } }
  /-- The handler of the client it waits for has ended. -/
  | joins {client : Nat} : s.monitor.phase = .joining client → s.handlerEnded client = true →
      Heard s { s with monitor := { s.monitor with phase := .receiving } }

theorem countDead_eq (s : Service) (worker : Nat) :
    (s.countDead worker).1 =
      { s with
        monitor :=
          { s.monitor with
            deadWorkers := s.monitor.deadWorkers + 1
            shutdownRequested := s.monitor.shutdownRequested ||
              decide (s.workers.length ≤ s.monitor.deadWorkers + 1) } } := by
  unfold countDead
  by_cases hlast : s.workers.length ≤ s.monitor.deadWorkers + 1
  · simp [hlast, requestShutdown]
  · simp [hlast]

theorem heard_of_monitorStep? (step : s.monitorStep? = some (s', journal)) : Heard s s' := by
  unfold monitorStep? at step
  split at step
  · contradiction
  · contradiction
  · rename_i hphase
    cases hreceive : s.events.receive? with
    | none => simp [hreceive] at step
    | some received =>
        obtain ⟨event, events⟩ := received
        simp only [hreceive, Option.bind_eq_bind, Option.bind_some] at step
        rcases receive?_cases hreceive with
          ⟨rfl, hnil, hclosed, rfl⟩ | ⟨first, rest, rfl, hcons, rfl⟩
        · cases step
          exact .ends hphase hnil hclosed
        · have hafter := congrArg Prod.fst (Option.some.inj step)
          cases first with
          | disconnected client requests =>
              subst hafter
              exact .left hphase hcons
          | workerDied worker =>
              dsimp only at hafter
              rw [countDead_eq] at hafter
              subst hafter
              exact .died hphase hcons
  · rename_i client hphase
    split at step
    · rename_i hended
      cases step
      exact .joins hphase hended
    · contradiction

/-- The monitor only takes events and changes what it has counted. -/
theorem monitored_of_monitorStep? (step : s.monitorStep? = some (s', journal)) :
    ∃ taken items monitor, s.events.items = taken ++ items ∧
      s' = { s with events := { s.events with items }, monitor } := by
  cases heard_of_monitorStep? step with
  | left _ hitems => exact ⟨[_], _, _, hitems, rfl⟩
  | died _ hitems => exact ⟨[_], _, _, hitems, rfl⟩
  | ends => exact ⟨[], _, _, rfl, rfl⟩
  | joins => exact ⟨[], _, _, rfl, rfl⟩

/-! ## Threads that wait -/

/-- The one thing a sender waits for is room in an open channel. -/
theorem send?_eq_none {α : Type} {ch : Channel α} {item : α} (h : ch.send? item = none) :
    ch.closed = false ∧ ch.hasRoom = false := by
  unfold Channel.send? at h
  split at h
  · contradiction
  · rename_i hopen
    split at h
    · contradiction
    · rename_i hfull
      exact ⟨Bool.eq_false_iff.mpr hopen, Bool.eq_false_iff.mpr hfull⟩

/-- The one thing a receiver waits for is an item in an open channel. -/
theorem receive?_eq_none {α : Type} {ch : Channel α} (h : ch.receive? = none) :
    ch.items = [] ∧ ch.closed = false := by
  unfold Channel.receive? at h
  split at h
  · contradiction
  · rename_i hwait
    simpa [Channel.isReady] using hwait

theorem handler_waits {budget i : Nat} {h : Handler} {c : Connection}
    (hh : s.handlers[i]? = some h) (hc : s.connections[i]? = some c)
    (stuck : s.handlerStep? budget i = none) :
    match h.phase with
    | .idle | .ended => True
    | .reading _ => h.stopRequested = false ∧ c.inlet.unread = [] ∧ c.inlet.ended = false
    | .forwarding _ => s.inbound.closed = false ∧ s.inbound.hasRoom = false
    | .finishing _ => False
    | .joining _ => c.writer.isRunning = true
    | .reporting => s.events.closed = false ∧ s.events.hasRoom = false := by
  unfold handlerStep? at stuck
  simp only [hh, hc, Option.bind_eq_bind, Option.bind_some] at stuck
  cases hphase : h.phase with
  | idle => trivial
  | ended => trivial
  | reading reader =>
      simp only [hphase, read?_eq] at stuck
      split at stuck
      · contradiction
      · rename_i hgo
        split at stuck
        · contradiction
        · rename_i hwait
          refine ⟨Bool.eq_false_iff.mpr hgo, ?_⟩
          simpa [Inlet.isReady] using hwait
  | forwarding request =>
      simp only [hphase] at stuck
      cases hsend : s.inbound.send? (ticketOf i h c request) with
      | none => exact send?_eq_none hsend
      | some sent =>
          obtain ⟨taken, inbound⟩ := sent
          rw [ticketOf] at hsend
          cases taken <;> simp [hsend] at stuck
  | finishing why => simp [hphase] at stuck
  | joining why =>
      simp only [hphase] at stuck
      split at stuck
      · assumption
      · cases why <;> contradiction
  | reporting =>
      simp only [hphase] at stuck
      cases hsend : s.events.send? (.disconnected c.client h.forwarded) with
      | none => exact send?_eq_none hsend
      | some sent => simp [hsend] at stuck

theorem writer_stuck {budget i : Nat} {c : Connection} (hc : s.connections[i]? = some c)
    (stuck : s.writerStep? budget i = none) : c.writerStep? budget = none := by
  simp only [writerStep?, hc, Option.bind_eq_bind, Option.bind_some] at stuck
  cases hw : c.writerStep? budget with
  | none => rfl
  | some after => simp [hw] at stuck

theorem worker_waits {i : Nat} {w : Worker} (hw : s.workers[i]? = some w)
    (stuck : s.workerStep? process i = none) :
    match w.phase with
    | .idle | .ended => True
    | .receiving => w.queue.items = [] ∧ w.queue.closed = false
    | .reporting => s.events.closed = false ∧ s.events.hasRoom = false
    | _ => False := by
  unfold workerStep? at stuck
  simp only [hw, Option.bind_eq_bind, Option.bind_some] at stuck
  cases hphase : w.phase with
  | idle => trivial
  | ended => trivial
  | receiving =>
      simp only [hphase] at stuck
      cases hreceive : w.queue.receive? with
      | none => exact receive?_eq_none hreceive
      | some received =>
          obtain ⟨item, queue⟩ := received
          cases item <;> simp [hreceive] at stuck
  | processing t => simp [hphase] at stuck
  | delivering t r => simp [hphase] at stuck
  | failing t => simp [hphase] at stuck
  | reporting =>
      simp only [hphase] at stuck
      cases hsend : s.events.send? (.workerDied w.index) with
      | none => exact send?_eq_none hsend
      | some sent => simp [hsend] at stuck
  | closing => simp [hphase] at stuck
  | draining =>
      simp only [hphase] at stuck
      rcases take_cases w.queue with ⟨-, htake⟩ | ⟨t, rest, -, htake⟩
      · simp [htake] at stuck
      · simp [htake] at stuck

theorem scheduler_waits (stuck : s.schedulerStep? = none) :
    match s.scheduler.phase with
    | .idle | .ended => True
    | .selecting =>
        s.stop.isReady = false ∧ s.inbound.items = [] ∧ s.inbound.closed = false
    | .sending n _ =>
        ∀ w, s.workers[n]? = some w → w.queue.closed = false ∧ w.queue.hasRoom = false
    | .closing _ => False := by
  unfold schedulerStep? at stuck
  cases hphase : s.scheduler.phase with
  | idle => trivial
  | ended => trivial
  | selecting =>
      simp only [hphase, select?, Channel.select?] at stuck
      split at stuck
      · cases htake : s.stop.take.1 <;> simp [htake] at stuck
      · rename_i hstop
        split at stuck
        · cases htake : s.inbound.take.1 <;> simp [htake] at stuck
        · rename_i hinbound
          refine ⟨Bool.eq_false_iff.mpr hstop, ?_⟩
          simpa [Channel.isReady] using hinbound
  | sending n t =>
      intro w hw
      simp only [hphase, dispatch?, hw] at stuck
      cases hsend : w.queue.send? t with
      | none => exact send?_eq_none hsend
      | some sent =>
          obtain ⟨taken, queue⟩ := sent
          cases taken <;> simp [hsend] at stuck
  | closing n =>
      simp only [hphase] at stuck
      split at stuck <;> contradiction

theorem monitor_waits (stuck : s.monitorStep? = none) :
    match s.monitor.phase with
    | .idle | .ended => True
    | .receiving => s.events.items = [] ∧ s.events.closed = false
    | .joining client => s.handlerEnded client = false := by
  unfold monitorStep? at stuck
  cases hphase : s.monitor.phase with
  | idle => trivial
  | ended => trivial
  | receiving =>
      simp only [hphase] at stuck
      cases hreceive : s.events.receive? with
      | none => exact receive?_eq_none hreceive
      | some received =>
          obtain ⟨event, events⟩ := received
          simp [hreceive] at stuck
  | joining client =>
      simp only [hphase] at stuck
      split at stuck
      · contradiction
      · rename_i hgoing
        exact Bool.eq_false_iff.mpr hgoing

/-! ## Services at rest -/

theorem Settled.stuck (settled : s.Settled process) (who : Thread → Bool) :
    s.Stuck process who := fun thread _ => settled thread

theorem Stuck.mono {who who' : Thread → Bool} (stuck : s.Stuck process who)
    (fewer : ∀ thread, who' thread = true → who thread = true) : s.Stuck process who' :=
  fun thread h => stuck thread (fewer thread h)

theorem Stuck.pool (stuck : s.Stuck process Thread.isInner) :
    s.Stuck process Thread.isOfPool :=
  stuck.mono fun thread h => by cases thread <;> first | rfl | contradiction

theorem Stuck.monitor (stuck : s.Stuck process Thread.isInner) : s.monitorStep? = none :=
  stuck .monitor rfl

theorem Stuck.scheduler (stuck : s.Stuck process Thread.isOfPool) : s.schedulerStep? = none :=
  stuck .scheduler rfl

theorem Stuck.worker (stuck : s.Stuck process Thread.isOfPool) (i : Nat) :
    s.workerStep? process i = none := stuck (.worker i) rfl

theorem Stuck.handler {k : Nat} (stuck : s.Stuck process (Thread.isAt k)) (budget : Nat) :
    s.handlerStep? budget k = none := stuck (.handler k budget) (by simp [Thread.isAt])

theorem Stuck.writer {k : Nat} (stuck : s.Stuck process (Thread.isAt k)) (budget : Nat) :
    s.writerStep? budget k = none := stuck (.writer k budget) (by simp [Thread.isAt])

/-- Whether a writer has to wait does not depend on how much it may write. -/
theorem writerStep?_eq_none {budget budget' i : Nat} (stuck : s.writerStep? budget i = none) :
    s.writerStep? budget' i = none := by
  unfold writerStep? at stuck ⊢
  cases hc : s.connections[i]? with
  | none => rfl
  | some c =>
      have hwriter := writer_stuck hc stuck
      by_cases hrunning : c.writer.isRunning = true
      · obtain ⟨hlive, ⟨hready, hempty, hmore⟩ | hstalled⟩ :=
          Connection.writer_waits hrunning hwriter
        · simp [Connection.writerStep?, hlive, hready, hempty, hmore]
        · obtain ⟨rest, hwriting, -, hthere, hfull⟩ := Connection.isStalled_iff.mp hstalled
          simp [Connection.writerStep?_writing hwriting, hlive, hthere, hfull]
      · cases hw : c.writer <;> simp_all [Connection.writerStep?, Writer.isRunning]

/-- Whether a handler has to wait does not depend on how much it may read. -/
theorem handlerStep?_eq_none {budget budget' i : Nat} (stuck : s.handlerStep? budget i = none) :
    s.handlerStep? budget' i = none := by
  cases hh : s.handlers[i]? with
  | none => simp [handlerStep?, hh]
  | some h =>
      cases hc : s.connections[i]? with
      | none => simp [handlerStep?, hh, hc]
      | some c =>
          have hwaits := handler_waits hh hc stuck
          unfold handlerStep? at stuck ⊢
          simp only [hh, hc, Option.bind_eq_bind, Option.bind_some] at stuck ⊢
          cases hphase : h.phase with
          | reading reader =>
              rw [hphase] at hwaits
              obtain ⟨hgo, hdry, hopen⟩ := hwaits
              simp [read?_eq, hgo, hdry, hopen, Inlet.isReady]
          | idle | ended => rfl
          | _ =>
              rw [hphase] at stuck
              exact stuck

/-- A service is settled if the threads there are cannot take a step. -/
theorem settled_of_threads (stuck : ∀ thread ∈ s.threads, s.step? process thread = none) :
    s.Settled process := by
  intro thread
  cases thread with
  | monitor => exact stuck .monitor List.mem_cons_self
  | scheduler => exact stuck .scheduler (by simp [threads])
  | worker i =>
      by_cases hi : i < s.workers.length
      · exact stuck (.worker i) (by simp [threads, hi])
      · simp [step?, workerStep?, List.getElem?_eq_none_iff.mpr (Nat.le_of_not_lt hi)]
  | writer i budget =>
      by_cases hi : i < s.connections.length
      · exact writerStep?_eq_none (stuck (.writer i _) (by simp [threads, hi]; rfl))
      · simp [step?, writerStep?, List.getElem?_eq_none_iff.mpr (Nat.le_of_not_lt hi)]
  | handler i budget =>
      by_cases hi : i < s.connections.length
      · exact handlerStep?_eq_none (stuck (.handler i _) (by simp [threads, hi]; rfl))
      · simp [step?, handlerStep?, List.getElem?_eq_none_iff.mpr (Nat.le_of_not_lt hi)]

end Service

end SearchDaemon
