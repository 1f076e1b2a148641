import SearchDaemon.Proofs.Dealing
import SearchDaemon.Proofs.Handling

/-!
# Every request is answered

Handlers, scheduler, workers and writers together: as long as nobody stops the service,
what is written to a client are the replies to its requests in their order, and when no
thread can do anything more, every request has its reply or the connection is aborted.
The processor may treat every ticket differently, so that it stands for whatever comes of
each request.

The proof follows the tickets. One in flight belongs to a client that has asked for it,
and a request forwarded has its response or its ticket is in flight.
-/

namespace SearchDaemon

/-- The replies to some tickets as they travel, up to the first that cannot be answered. -/
def replies (process : Processing) : List Ticket → Bytes
  | [] => []
  | t :: ts =>
      match responseTo process t with
      | some r => r.frame ++ replies process ts
      | none => []

variable {process : Processing}

theorem replies_append {ts more : List Ticket} (h : ∀ t ∈ ts, succeeds process t = true) :
    replies process (ts ++ more) = replies process ts ++ replies process more := by
  induction ts with
  | nil => rfl
  | cons t ts ih =>
      have ht : succeeds process t = true := h t List.mem_cons_self
      obtain ⟨r, hr⟩ := Option.isSome_iff_exists.mp ht
      rw [List.cons_append, replies, replies, hr]
      dsimp only
      rw [ih fun u hu => h u (List.mem_cons_of_mem _ hu), List.append_assoc]

theorem replies_mono {ts ts' : List Ticket} (h : ts <+: ts') :
    replies process ts <+: replies process ts' := by
  obtain ⟨more, rfl⟩ := h
  induction ts with
  | nil => exact List.nil_prefix
  | cons t ts ih =>
      rw [List.cons_append, replies, replies]
      cases responseTo process t with
      | none => exact List.prefix_refl _
      | some r => exact (List.prefix_append_right_inj _).mpr ih

/-- The answer to each of some tickets, by its number. -/
def answerOf (process : Processing) (ts : List Ticket) (i : Nat) : Option Response :=
  ts[i]?.bind (responseTo process)

/-- The first responses, all of them there, are the replies to the first tickets. -/
theorem bodies_answerOf {ts : List Ticket} {n : Nat}
    (h : ∀ i < n, ∃ r, answerOf process ts i = some r) :
    (Connection.bodies (answerOf process ts) n).flatMap Frame.encode =
      replies process (ts.take n) ∧ ∀ t ∈ ts.take n, succeeds process t = true := by
  induction n with
  | zero => exact ⟨rfl, fun _ ht => absurd ht List.not_mem_nil⟩
  | succ n ih =>
      obtain ⟨heq, hall⟩ := ih fun i hi => h i (Nat.lt_succ_of_lt hi)
      obtain ⟨r, hr⟩ := h n (Nat.lt_succ_self n)
      obtain ⟨t, ht, hrt⟩ := Option.bind_eq_some_iff.mp hr
      have htake : ts.take (n + 1) = ts.take n ++ [t] := by
        rw [List.take_add_one, ht]
        rfl
      rw [htake]
      refine ⟨?_, ?_⟩
      · rw [Connection.bodies_succ hr, List.flatMap_append, heq, replies_append hall, replies,
          hrt, replies]
        simp [Response.frame]
      · intro u hu
        rcases List.mem_append.mp hu with hu | hu
        · exact hall u hu
        · rw [List.mem_singleton.mp hu, succeeds, hrt]
          rfl

theorem getElem?_of_prefix {ts ts' : List Ticket} (h : ts <+: ts') {i : Nat} {t : Ticket}
    (found : ts[i]? = some t) : ts'[i]? = some t := by
  obtain ⟨hlt, heq⟩ := List.getElem?_eq_some_iff.mp found
  rw [List.prefix_iff_getElem?.mp h i hlt, heq]

theorem answerOf_mono {ts ts' : List Ticket} (h : ts <+: ts') {i : Nat} {r : Response}
    (found : answerOf process ts i = some r) : answerOf process ts' i = some r := by
  obtain ⟨t, ht, hr⟩ := Option.bind_eq_some_iff.mp found
  rw [answerOf, getElem?_of_prefix h ht]
  exact hr

namespace Service

open Handler (Reads)

/-- The tickets for everything a client has asked for so far. -/
def askedBy (k : Nat) (past : List (Moment Service Act)) : List Ticket :=
  ticketsOf (k + 1) k (Request.readAll (streamOf k past)).1

variable {s s' : Service} {act : Act} {past : List (Moment Service Act)} {m : Moment Service Act}
  {k : Nat} {h h' : Handler} {c c' : Connection} {t : Ticket}

theorem askedBy_snoc : askedBy k past <+: askedBy k (past ++ [m]) := by
  rw [askedBy, askedBy, streamOf_snoc]
  exact ticketsOf_prefix (Request.readAll_prefix _ _)

theorem getElem?_ticketsOf {client i : Nat} {requests : List Request} {r : Request}
    (hr : requests[i]? = some r) : (ticketsOf client k requests)[i]? =
      some { client, sequence := i, request := r, connection := some k } := by
  rw [ticketsOf, List.getElem?_mapIdx, hr]
  rfl

/-- The request a handler is about to forward is one its client has asked for. -/
theorem askedBy_forwarding {causes : List Handler.Cause} {requests : List Request} {r : Request}
    {closed : Bool} (reads : Reads (streamOf k past) causes closed h c requests)
    (named : c.client = k + 1) (hphase : h.phase = .forwarding r) :
    (askedBy k past)[h.forwarded]? = some (ticketOf k h c r) := by
  rw [askedBy, getElem?_ticketsOf (reads.forwarding hphase), ticketOf, named]

/-! ## What ordinary acts leave alone -/

/-- Nobody has stopped any part of the service. -/
structure Undisturbed (s : Service) : Prop where
  stop : s.stop.isReady = false
  inbound : s.inbound.closed = false
  dealing : s.scheduler.phase.isClosing = false ∧ s.scheduler.phase ≠ .idle
  paired : s.handlers.length = s.connections.length

theorem undisturbed_launch (n inbound queue : Nat) : (launch n inbound queue).Undisturbed := by
  rw [launch_eq]
  exact ⟨rfl, rfl, ⟨rfl, nofun⟩, rfl⟩

/-- A new client gets a handler that reads and a connection with a writer. -/
theorem accept_appends (paired : s.handlers.length = s.connections.length)
    (capacity : Option Nat) :
    (s.accept capacity).1.handlers =
        s.handlers ++ [{ phase := .reading Frame.Reader.start }] ∧
      (s.accept capacity).1.connections =
        s.connections ++
          [{ client := s.connections.length + 1, writer := .ready, capacity }] := by
  have hh : (s.welcomed capacity).handlers[s.connections.length]? = some {} := by
    rw [welcomed, ← paired, List.getElem?_concat_length]
  have hc : (s.welcomed capacity).connections[s.connections.length]? =
      some { client := s.connections.length + 1, capacity } := by
    rw [welcomed, List.getElem?_concat_length]
  rw [accept_eq, startHandler, hh, hc]
  dsimp only [setHandler, setConnection, welcomed]
  constructor
  · rw [← paired, List.set_append_right _ _ (Nat.le_refl _), Nat.sub_self]
    rfl
  · rw [List.set_append_right _ _ (Nat.le_refl _), Nat.sub_self]
    rfl

theorem length_abortAt {position : Option Nat} {cs : List Connection} :
    (abortAt position cs).length = cs.length := by
  cases position with
  | none => rfl
  | some i => exact List.length_modify ..

theorem length_deliverAt {position : Option Nat} {sequence : Nat} {r : Response}
    {cs : List Connection} : (deliverAt position sequence r cs).length = cs.length := by
  cases position with
  | none => rfl
  | some i => exact List.length_modify ..

/-- Only clients that connect add to the handlers and connections. -/
theorem size_kept (ordinary : act.isOrdinary = true) (step : s.act? process act = some s') :
    (∃ capacity, act = .accept capacity) ∨ s'.handlers.length = s.handlers.length ∧
      s'.connections.length = s.connections.length := by
  cases act with
  | accept capacity => exact Or.inl ⟨capacity, rfl⟩
  | step thread =>
      right
      cases stepped_of_act? step with
      | monitor => exact ⟨rfl, rfl⟩
      | writer => exact ⟨rfl, List.length_set⟩
      | worker _ hworked =>
          cases hworked with
          | delivers => exact ⟨rfl, length_deliverAt⟩
          | cutsOff | drains => exact ⟨rfl, length_abortAt⟩
          | _ => exact ⟨rfl, rfl⟩
      | scheduler hdealt =>
          cases hdealt with
          | refuses => exact ⟨rfl, length_abortAt⟩
          | _ => exact ⟨rfl, rfl⟩
      | handler => exact ⟨List.length_set, List.length_set⟩
  | clientWrites | clientFinishes | clientReads | clientCloses =>
      right
      cases step
      exact ⟨rfl, List.length_modify ..⟩
  | _ => contradiction

theorem Undisturbed.step (quiet : s.Undisturbed) (ordinary : act.isOrdinary = true)
    (step : s.act? process act = some s') : s'.Undisturbed := by
  have hpaired : s'.handlers.length = s'.connections.length := by
    rcases size_kept ordinary step with ⟨capacity, rfl⟩ | ⟨hhandlers, hconnections⟩
    · cases step
      obtain ⟨hhandlers, hconnections⟩ := accept_appends quiet.paired capacity
      rw [hhandlers, hconnections, List.length_append, List.length_append, quiet.paired]
      rfl
    · rw [hhandlers, hconnections, quiet.paired]
  cases acted_of_act? step with
  | step hstepped =>
      cases hstepped with
      | scheduler hdealt =>
          obtain ⟨hgoing, hbusy⟩ := quiet.dealing
          cases hdealt with
          | stops _ hstop =>
              rw [quiet.stop] at hstop
              contradiction
          | runsDry _ _ _ hclosed =>
              rw [quiet.inbound] at hclosed
              contradiction
          | takes | sends | refuses => exact ⟨quiet.stop, quiet.inbound, ⟨rfl, nofun⟩, hpaired⟩
          | closes hphase | ends hphase =>
              rw [hphase] at hgoing
              contradiction
      | _ => exact ⟨quiet.stop, quiet.inbound, quiet.dealing, hpaired⟩
  | atClient hinbound hstop _ _ hscheduler =>
      refine ⟨?_, ?_, ?_, hpaired⟩
      · rw [hstop]
        exact quiet.stop
      · rw [hinbound]
        exact quiet.inbound
      · rw [hscheduler]
        exact quiet.dealing
  | onChannel hother =>
      rw [ordinary] at hother
      contradiction

/-- Nobody but a handler touches itself. -/
theorem handler_kept (ordinary : act.isOrdinary = true) (others : act.isOfHandler k = false)
    (step : s.act? process act = some s') (hh : s.handlers[k]? = some h)
    (hc : s.connections[k]? = some c) : s'.handlers[k]? = some h := by
  obtain ⟨h', hh', nudged⟩ := handler_nudged others step hh hc
  cases nudged with
  | kept => exact hh'
  | starts => contradiction
  | stops => contradiction

/-- Only the scheduler takes tickets off the inbound channel. -/
theorem inbound_kept (ordinary : act.isOrdinary = true) (others : act.isOfPool = false)
    (step : s.act? process act = some s') (waits : t ∈ s.inbound.items) :
    t ∈ s'.inbound.items := by
  cases acted_of_act? step with
  | step hstepped =>
      cases hstepped with
      | handler => exact List.mem_append_left _ waits
      | worker | scheduler => contradiction
      | _ => exact waits
  | atClient hinbound =>
      rw [hinbound]
      exact waits
  | onChannel hother =>
      rw [ordinary] at hother
      contradiction

/-- A ticket leaves the service only with its response delivered or its connection aborted. -/
theorem inFlight_kept (ordinary : act.isOrdinary = true) (step : s.act? process act = some s')
    (flight : s.InFlight t) (hk : t.connection = some k) (hc : s.connections[k]? = some c)
    (hc' : s'.connections[k]? = some c') (live : c'.aborted = false) :
    s'.InFlight t ∨ c'.isAnswered t.sequence = true := by
  have haborted (h : s'.connections = abortAt t.connection s.connections) : False := by
    have hcut := getElem?_abortAt t.connection hc
    rw [← h, if_pos hk] at hcut
    cases hc'.symm.trans hcut
    rw [Connection.abort_aborted] at live
    contradiction
  by_cases hpool : act.isOfPool = true
  · cases act with
    | step thread =>
        cases stepped_of_act? step with
        | scheduler hdealt => exact (hdealt.parts flight).imp_right fun h => (haborted h).elim
        | @worker i w w' cs told hw hworked =>
            rcases flight with h | h | ⟨j, u, hu, ht⟩
            · exact Or.inl (Or.inl h)
            · exact Or.inl (Or.inr (Or.inl h))
            · by_cases hij : i = j
              · subst hij
                cases hw.symm.trans hu
                rcases hworked.parts ht with h | ⟨r, hphase, rfl⟩ | h
                · exact Or.inl (Or.inr (Or.inr ⟨i, w', getElem?_set_here hw, h⟩))
                · right
                  have hafter : (deliverAt t.connection t.sequence r s.connections)[k]? =
                      some (c.deliver t.sequence r).2.1 := by
                    rw [getElem?_deliverAt t.connection hc, if_pos hk]
                  cases hc'.symm.trans hafter
                  by_cases habort : c.aborted = true
                  · rw [(Connection.deliver_refused (Or.inl habort)).2, habort] at live
                    contradiction
                  · rw [Bool.not_eq_true] at habort
                    exact (Connection.isAnswered_deliver habort).mpr (Or.inr rfl)
                · exact (haborted h).elim
              · refine Or.inl (Or.inr (Or.inr ⟨j, u, ?_, ht⟩))
                rw [afterWorker, List.getElem?_set_ne hij, hu]
        | _ => contradiction
    | _ => contradiction
  · rw [Bool.not_eq_true] at hpool
    obtain ⟨hworkers, hscheduler⟩ := pool_unchanged hpool step
    left
    rcases flight with h | h | h
    · exact Or.inl (inbound_kept ordinary hpool step h)
    · rw [← hscheduler] at h
      exact Or.inr (Or.inl h)
    · rw [← hworkers] at h
      exact Or.inr (Or.inr h)

/-! ## One client -/

/-- What holds of one client, its handler and its connection. -/
structure Attends (process : Processing) (k : Nat) (past : List (Moment Service Act))
    (s : Service) (h : Handler) (c : Connection) : Prop where
  named : c.client = k + 1
  busy : h.phase ≠ .idle ∧ h.stopRequested = false
  reads : ∃ causes requests, Reads (streamOf k past) causes s.inbound.closed h c requests
  orderly : c.Orderly
  follows : c.Follows (answerOf process (askedBy k past))
  /-- A request that has been forwarded is answered, or its ticket is on its way. -/
  present : c.aborted = false → ∀ i < h.forwarded, c.isAnswered i = true ∨
    ∃ t, s.InFlight t ∧ t.connection = some k ∧ t.sequence = i
  started : c.writer ≠ .absent
  expected : c.expected = none ∨ c.expected = some h.forwarded ∧ ∃ why, h.phase.IsPast why
  finished : c.writer = .ended → c.aborted = false → c.isFinished = true

/-- A client that has just connected. -/
theorem attends_start (silent : streamOf k past = []) (capacity : Option Nat) :
    Attends process k past s { phase := .reading Frame.Reader.start }
      { client := k + 1, writer := .ready, capacity } where
  named := rfl
  busy := ⟨nofun, rfl⟩
  reads := by
    rw [silent]
    exact ⟨[], [], rfl, [], [], .nil, rfl, .reading rfl Frame.Reader.isPartial_start⟩
  orderly := (Connection.orderly_fresh (k + 1) capacity).startWriter
  follows := (Connection.follows_fresh _ (k + 1) capacity).startWriter
  present := fun _ i hi => absurd hi (Nat.not_lt_zero i)
  started := nofun
  expected := Or.inl rfl
  finished := nofun

/-- An act of somebody else. -/
theorem Attends.other (attends : Attends process k past s h c) (ordinary : act.isOrdinary = true)
    (others : act.isOfHandler k = false) (step : s.act? process act = some s')
    (hh : s.handlers[k]? = some h) (hc : s.connections[k]? = some c)
    (mailed : ∀ i r, s.Mailed k act i r →
      i < h.forwarded ∧ answerOf process (askedBy k past) i = some r) :
    ∃ c', s'.handlers[k]? = some h ∧ s'.connections[k]? = some c' ∧
      Attends process k (past ++ [⟨s, act, s'⟩]) s' h c' := by
  obtain ⟨c', hc', touched⟩ := connection_touched others step hc
  obtain ⟨causes, requests, hreads⟩ := attends.reads
  have hgrown := touched.grown
  exact ⟨c', handler_kept ordinary others step hh hc, hc',
    { named := by rw [hgrown.client, attends.named]
      busy := attends.busy
      reads := by
        have hkept : Nudged k h act h := .kept
        rw [streamOf_snoc]
        exact ⟨causes, requests, hreads.grown hkept hgrown (channels_kept step).1⟩
      orderly := attends.orderly.touched touched
      follows := by
        have hfollows := attends.follows.touched touched fun i r hsent => (mailed i r hsent).2
        exact hfollows.mono fun i r => answerOf_mono askedBy_snoc
      present := by
        intro live i hi
        rcases attends.present (touched.live live) i hi with hanswered | ⟨t, hflight, hk, rfl⟩
        · exact Or.inl (touched.isAnswered live hanswered)
        · rcases inFlight_kept ordinary step hflight hk hc hc' live with hstill | hanswered
          · exact Or.inr ⟨t, hstill, hk, rfl⟩
          · exact Or.inl hanswered
      started := touched.writer attends.started
      expected := by
        rw [touched.expected]
        exact attends.expected
      finished := by
        refine touched.finished ?_ attends.finished
        intro i r n hsent hexpected
        rcases attends.expected with hnone | ⟨hsome, -⟩
        · rw [hnone] at hexpected
          contradiction
        · rw [hsome] at hexpected
          cases hexpected
          exact (mailed i r hsent).1 }⟩

section Handled

variable {tickets : List Ticket} {told : List Event} {budget : Nat}

theorem Handled.follows {answer : Nat → Option Response}
    (step : Handled s k h c h' c' tickets told) (follows : c.Follows answer) :
    c'.Follows answer := by
  have hsame (inlet : Inlet) (f : c.Follows answer) :
      ({ c with inlet } : Connection).Follows answer :=
    ⟨f.waiting, f.passed, f.stream, f.written⟩
  cases step with
  | runsDry | readsOn | finds => exact hsame _ follows
  | rejects | objects => exact (hsame _ follows).abort
  | finishes => exact ⟨follows.waiting, follows.passed, follows.stream, follows.written⟩
  | _ => exact follows

/-- A handler leaves the writer and the answers of a live connection alone. -/
theorem Handled.keeps (step : Handled s k h c h' c' tickets told) :
    c'.writer = c.writer ∧ (c'.aborted = false →
      c.aborted = false ∧ ∀ i, c'.isAnswered i = c.isAnswered i) := by
  cases step with
  | rejects | objects =>
      refine ⟨Connection.abort_writer _, ?_⟩
      intro live
      rw [Connection.abort_aborted] at live
      contradiction
  | _ => exact ⟨rfl, fun live => ⟨live, fun _ => rfl⟩⟩

theorem Handled.busy (step : Handled s k h c h' c' tickets told) :
    h'.phase ≠ .idle ∧ h'.stopRequested = h.stopRequested := by
  cases step <;> exact ⟨nofun, rfl⟩

/-- A handler puts a ticket on the inbound channel when it forwards a request, and counts it. -/
theorem Handled.forwarded (step : Handled s k h c h' c' tickets told) :
    tickets = [] ∧ h'.forwarded = h.forwarded ∨
      ∃ r, h.phase = .forwarding r ∧ tickets = [ticketOf k h c r] ∧
        h'.forwarded = h.forwarded + 1 := by
  cases step with
  | forwards hphase => exact Or.inr ⟨_, hphase, rfl, rfl⟩
  | _ => exact Or.inl ⟨rfl, rfl⟩

/-- The number of responses to expect is told once reading is over, and it is right. -/
theorem Handled.expected (step : Handled s k h c h' c' tickets told)
    (expected : c.expected = none ∨ c.expected = some h.forwarded ∧ ∃ why, h.phase.IsPast why) :
    c'.expected = none ∨ c'.expected = some h'.forwarded ∧ ∃ why, h'.phase.IsPast why := by
  have hreading {phase : Handler.Phase} (hphase : h.phase = phase)
      (hno : ∀ why, ¬phase.IsPast why) : c.expected = none := by
    rcases expected with hnone | ⟨-, why, hpast⟩
    · exact hnone
    · rw [hphase] at hpast
      exact absurd hpast (hno why)
  have hpast (why : Handler.Ending) (phase : Handler.Phase) (hphase : phase.IsPast why) :
      c.expected = none ∨ c.expected = some h.forwarded ∧ ∃ why, phase.IsPast why :=
    expected.imp_right fun ⟨hsome, _⟩ => ⟨hsome, why, hphase⟩
  cases step with
  | rejects hphase | objects hphase =>
      left
      rw [Connection.abort_expected]
      exact hreading hphase fun _ => id
  | stops hphase | runsDry hphase | readsOn hphase | finds hphase | forwards hphase
  | turnedAway hphase => exact Or.inl (hreading hphase fun _ => id)
  | @finishes why hphase => exact Or.inr ⟨rfl, why, rfl⟩
  | leaves => exact hpast .stopped .ended trivial
  | joins => exact hpast .disconnected .reporting rfl
  | reports | unheard => exact hpast .disconnected .ended trivial

theorem Handled.finished (step : Handled s k h c h' c' tickets told)
    (expected : c.expected = none ∨ c.expected = some h.forwarded ∧ ∃ why, h.phase.IsPast why)
    (finished : c.writer = .ended → c.aborted = false → c.isFinished = true)
    (ended : c'.writer = .ended) (live : c'.aborted = false) : c'.isFinished = true := by
  cases step with
  | rejects | objects =>
      rw [Connection.abort_aborted] at live
      contradiction
  | finishes =>
      -- Before reading was over no number was expected, so the writer had not finished.
      have hdone := finished ended live
      rcases expected with hnone | ⟨hsome, -⟩
      · simp [Connection.isFinished, hnone] at hdone
      · have hsame : c.finish h.forwarded = c := by
          rw [Connection.finish, ← hsome]
        rw [hsame]
        exact hdone
  | _ => exact finished ended live

/-- A step of a handler takes no ticket away. -/
theorem inFlight_afterHandler (flight : s.InFlight t) :
    (s.afterHandler k h' c' tickets told).InFlight t :=
  flight.imp_left (List.mem_append_left _)

/-- A step of the client's own handler. -/
theorem Attends.own (attends : Attends process k past s h c)
    (step : Handled s k h c h' c' tickets told) :
    Attends process k
      (past ++ [⟨s, .step (.handler k budget), s.afterHandler k h' c' tickets told⟩])
      (s.afterHandler k h' c' tickets told) h' c' := by
  obtain ⟨causes, requests, hreads⟩ := attends.reads
  obtain ⟨more, -, hreads'⟩ := hreads.handled step
  obtain ⟨hclient, horderly, -⟩ := handled_connection step
  obtain ⟨hwriter, hkept⟩ := step.keeps
  have hstream : streamOf k
      (past ++ [⟨s, .step (.handler k budget), s.afterHandler k h' c' tickets told⟩]) =
        streamOf k past := by
    rw [streamOf_snoc]
    exact List.append_nil _
  exact
    { named := by rw [hclient, attends.named]
      busy := by
        rw [step.busy.2]
        exact ⟨step.busy.1, attends.busy.2⟩
      reads := by
        rw [hstream]
        exact ⟨_, _, hreads'⟩
      orderly := horderly attends.orderly
      follows := by
        rw [askedBy, hstream]
        exact step.follows attends.follows
      present := by
        intro live i hi
        obtain ⟨hlive, hanswers⟩ := hkept live
        rw [hanswers]
        by_cases hold : i < h.forwarded
        · refine (attends.present hlive i hold).imp_right ?_
          rintro ⟨t, hflight, hk, hi⟩
          exact ⟨t, inFlight_afterHandler hflight, hk, hi⟩
        · -- The request is the one just forwarded.
          right
          rcases step.forwarded with ⟨-, hsame⟩ | ⟨r, -, htickets, hmore⟩
          · rw [hsame] at hi
            exact absurd hi hold
          · refine ⟨ticketOf k h c r, Or.inl ?_, rfl, ?_⟩
            · rw [htickets]
              exact List.mem_append_right _ (List.mem_singleton_self _)
            · show h.forwarded = i
              omega
      started := by
        rw [hwriter]
        exact attends.started
      expected := step.expected attends.expected
      finished := step.finished attends.expected attends.finished }

end Handled

/-! ## All clients -/

/-- What holds of a service that nobody stops, as long as only its threads and its clients
act. -/
structure Tended (process : Processing) (past : List (Moment Service Act)) (s : Service) :
    Prop where
  quiet : s.Undisturbed
  silent : ∀ k, s.connections.length ≤ k → streamOf k past = []
  attends : ∀ (k : Nat) (h : Handler) (c : Connection), s.handlers[k]? = some h →
    s.connections[k]? = some c → Attends process k past s h c
  /-- A ticket in flight is one that its client has asked for and its handler has counted. -/
  genuine : ∀ t, s.InFlight t → ∃ (k : Nat) (h : Handler), t.connection = some k ∧
    s.handlers[k]? = some h ∧ t.sequence < h.forwarded ∧ (askedBy k past)[t.sequence]? = some t
  right : ∀ (i : Nat) (w : Worker) (t : Ticket) (r : Response), s.workers[i]? = some w →
    w.phase = .delivering t r → responseTo process t = some r

theorem tended_start {n inbound queue : Nat} :
    Tended process [] (launch n inbound queue) where
  quiet := undisturbed_launch n inbound queue
  silent := fun _ _ => rfl
  attends := by
    intro k h c hh
    rw [launch_eq] at hh
    contradiction
  genuine := fun t flight => absurd flight not_inFlight_launch
  right := by
    intro i w t r hw hphase
    rw [launch_eq] at hw
    rw [eq_of_getElem?_crew hw] at hphase
    contradiction

theorem arrivedIn_absent (absent : m.before.connections.length ≤ k) : arrivedIn k m = [] := by
  unfold arrivedIn
  split
  · rw [List.getElem?_eq_none_iff.mpr absent, Option.any_none]
    exact if_neg fun h => Bool.false_ne_true h.2
  · rfl

/-- A worker delivers what the processor has returned for its ticket. -/
theorem delivering_right {i : Nat} {w' : Worker} {r : Response}
    (step : s.act? process act = some s')
    (right : ∀ (i : Nat) (w : Worker) (t : Ticket) (r : Response), s.workers[i]? = some w →
      w.phase = .delivering t r → responseTo process t = some r)
    (hw' : s'.workers[i]? = some w') (hphase : w'.phase = .delivering t r) :
    responseTo process t = some r := by
  by_cases hpool : act.isOfPool = true
  · cases act with
    | step thread =>
        cases stepped_of_act? step with
        | scheduler hdealt =>
            obtain ⟨w, hw, hsame, -⟩ := hdealt.worker hw'
            rw [hsame] at hphase
            exact right i w t r hw hphase
        | @worker j u u' _ _ hu hworked =>
            rcases getElem?_set_cases hu hw' with ⟨rfl, rfl⟩ | ⟨-, hold⟩
            · cases hworked with
              | answers _ hr =>
                  cases hphase
                  exact hr
              | drains hdraining =>
                  rw [show u.phase = .delivering t r from hphase] at hdraining
                  contradiction
              | _ => contradiction
            · exact right i w' t r hold hphase
        | _ => contradiction
    | _ => contradiction
  · rw [Bool.not_eq_true] at hpool
    rw [(pool_unchanged hpool step).1] at hw'
    exact right i w' t r hw' hphase

/-- Whatever is delivered is the answer to a request the client has asked for. -/
theorem Tended.mailed (tended : Tended process past s) (ordinary : act.isOrdinary = true)
    (hh : s.handlers[k]? = some h) {i : Nat} {r : Response} (mailed : s.Mailed k act i r) :
    i < h.forwarded ∧ answerOf process (askedBy k past) i = some r := by
  rcases mailed with rfl | ⟨j, w, t, rfl, hw, hphase, hk, rfl⟩
  · contradiction
  · have hflight : s.InFlight t := by
      refine Or.inr (Or.inr ⟨j, w, hw, ?_⟩)
      rw [Worker.tickets, hphase]
      exact List.mem_append_left _ (List.mem_singleton_self t)
    obtain ⟨k', h', hk', hh', hlt, hasked⟩ := tended.genuine t hflight
    cases hk.symm.trans hk'
    cases hh.symm.trans hh'
    -- The ticket is the one asked for under its number, and so is its response.
    refine ⟨hlt, ?_⟩
    rw [answerOf, hasked]
    exact tended.right j w t r hw hphase

/-- What an act makes of a client. -/
theorem Tended.follow (tended : Tended process past s) (ordinary : act.isOrdinary = true)
    (step : s.act? process act = some s') (hh : s.handlers[k]? = some h)
    (hc : s.connections[k]? = some c) :
    ∃ h' c', s'.handlers[k]? = some h' ∧ s'.connections[k]? = some c' ∧
      h.forwarded ≤ h'.forwarded ∧ Attends process k (past ++ [⟨s, act, s'⟩]) s' h' c' := by
  have attends := tended.attends k h c hh hc
  by_cases hown : act.isOfHandler k = true
  · obtain ⟨budget, rfl⟩ := Act.eq_of_isOfHandler hown
    cases stepped_of_act? step with
    | handler hh₀ hc₀ hhandled =>
        cases hh.symm.trans hh₀
        cases hc.symm.trans hc₀
        refine ⟨_, _, handler_afterHandler hh, connection_afterHandler hc, ?_,
          attends.own hhandled⟩
        rcases hhandled.forwarded with ⟨-, hsame⟩ | ⟨r, -, -, hmore⟩ <;> omega
  · rw [Bool.not_eq_true] at hown
    obtain ⟨c', hh', hc', attends'⟩ :=
      attends.other ordinary hown step hh hc fun i r => tended.mailed ordinary hh
    exact ⟨h, c', hh', hc', Nat.le_refl _, attends'⟩

/-- A request that is forwarded is counted. -/
theorem forwarding_counted {budget : Nat} {r : Request} (isOpen : s.inbound.closed = false)
    (step : s.act? process (.step (.handler k budget)) = some s') (hh : s.handlers[k]? = some h)
    (hphase : h.phase = .forwarding r) :
    ∃ h', s'.handlers[k]? = some h' ∧ h'.forwarded = h.forwarded + 1 := by
  cases stepped_of_act? step with
  | handler hh₀ _ hhandled =>
      cases hh.symm.trans hh₀
      cases hhandled with
      | forwards => exact ⟨_, handler_afterHandler hh, rfl⟩
      | turnedAway _ hclosed =>
          rw [isOpen] at hclosed
          contradiction
      | _ => simp_all

theorem Tended.step (tended : Tended process past s) (ordinary : act.isOrdinary = true)
    (step : s.act? process act = some s') : Tended process (past ++ [⟨s, act, s'⟩]) s' where
  quiet := tended.quiet.step ordinary step
  silent := by
    intro k hk
    have hold : s.connections.length ≤ k := by
      by_contra hlt
      obtain ⟨c', hc', -⟩ :=
        connection_kept step (List.getElem?_eq_getElem (Nat.lt_of_not_le hlt))
      exact absurd (List.getElem?_eq_some_iff.mp hc').1 (Nat.not_lt.mpr hk)
    rw [streamOf_snoc, tended.silent k hold, arrivedIn_absent hold]
    rfl
  attends := by
    intro k h' c' hh' hc'
    by_cases hold : k < s.connections.length
    · have hc := List.getElem?_eq_getElem hold
      have hh := List.getElem?_eq_getElem (tended.quiet.paired ▸ hold)
      obtain ⟨h'', c'', hh'', hc'', -, attends⟩ := tended.follow ordinary step hh hc
      cases hh'.symm.trans hh''
      cases hc'.symm.trans hc''
      exact attends
    · -- Nobody was there before, so somebody has just connected.
      have hk : k < s'.connections.length := (List.getElem?_eq_some_iff.mp hc').1
      rcases size_kept ordinary step with ⟨capacity, rfl⟩ | ⟨-, hsame⟩
      · cases step
        obtain ⟨hhandlers, hconnections⟩ := accept_appends tended.quiet.paired capacity
        have hlast : k = s.connections.length := by
          rw [hconnections, List.length_append, List.length_singleton] at hk
          omega
        subst hlast
        rw [hconnections, List.getElem?_concat_length] at hc'
        rw [hhandlers, ← tended.quiet.paired, List.getElem?_concat_length] at hh'
        cases hc'
        cases hh'
        apply attends_start
        rw [streamOf_snoc, tended.silent _ (Nat.le_refl _)]
        rfl
      · rw [hsame] at hk
        exact absurd hk hold
  genuine := by
    intro t flight
    rcases inFlight_origin step flight with hbefore | ⟨rfl, -⟩ |
      ⟨k, budget, h, c, r, rfl, hh, hc, hphase, rfl⟩
    · obtain ⟨k, h, hk, hh, hlt, hasked⟩ := tended.genuine t hbefore
      have hlt' : k < s.connections.length := by
        rw [← tended.quiet.paired]
        exact (List.getElem?_eq_some_iff.mp hh).1
      obtain ⟨h', c', hh', -, hle, -⟩ :=
        tended.follow ordinary step hh (List.getElem?_eq_getElem hlt')
      exact ⟨k, h', hk, hh', Nat.lt_of_lt_of_le hlt hle,
        getElem?_of_prefix askedBy_snoc hasked⟩
    · contradiction
    · obtain ⟨h', hh', hcount⟩ := forwarding_counted tended.quiet.inbound step hh hphase
      have attends := tended.attends k h c hh hc
      obtain ⟨causes, requests, hreads⟩ := attends.reads
      refine ⟨k, h', rfl, hh', ?_, ?_⟩
      · rw [hcount]
        exact Nat.lt_succ_self _
      · exact getElem?_of_prefix askedBy_snoc (askedBy_forwarding hreads attends.named hphase)
  right := fun i w t r => delivering_right step tended.right

theorem tended_run {n inbound queue : Nat}
    (run : Run (act? process) (launch n inbound queue) past s)
    (ordinary : ∀ m ∈ past, m.act.isOrdinary = true) : Tended process past s := by
  induction run with
  | start => exact tended_start
  | snoc _ step ih =>
      have hlast := ordinary _ (List.mem_append_right _ (List.mem_singleton_self _))
      exact (ih fun m hm => ordinary m (List.mem_append_left _ hm)).step hlast step

/-! ## Once nothing can be done -/

/-- Once scheduler and workers can do nothing, the scheduler waits for tickets. -/
theorem Deals.selecting {n : Nat} (deals : Deals process n past s) (positive : 0 < n)
    (room : s.events.hasRoom = true) (quiet : s.Undisturbed)
    (stuck : s.Stuck process Thread.isOfPool) : s.scheduler.phase = .selecting := by
  have hoffer := deals.no_offer positive room stuck.scheduler stuck.worker
  obtain ⟨hgoing, hbusy⟩ := quiet.dealing
  cases hphase : s.scheduler.phase with
  | selecting => rfl
  | idle => exact absurd hphase hbusy
  | sending => simp [pendingOffer, hphase] at hoffer
  | closing | ended =>
      rw [hphase] at hgoing
      contradiction

/-- Once scheduler and workers can do nothing, no ticket is in flight. -/
theorem Deals.not_inFlight {n : Nat} (deals : Deals process n past s) (positive : 0 < n)
    (room : s.events.hasRoom = true) (quiet : s.Undisturbed)
    (stuck : s.Stuck process Thread.isOfPool) : ¬s.InFlight t := by
  have hselecting := deals.selecting positive room quiet stuck
  have hwaits := scheduler_waits stuck.scheduler
  rw [hselecting] at hwaits
  rintro (h | h | ⟨i, w, hw, ht⟩)
  · rw [hwaits.2.1] at h
    contradiction
  · rw [hselecting] at h
    contradiction
  · obtain ⟨hstuck, hempty⟩ := (deals.served i w hw).waits hw room (stuck.worker i)
    rw [Worker.tickets, hempty] at ht
    rcases hstuck with hphase | hphase <;> rw [hphase] at ht <;> contradiction

theorem selecting_of_stuck {n inbound queue : Nat} (positive : 0 < n)
    (run : Run (act? process) (launch n inbound queue) past s) (quiet : s.Undisturbed)
    (stuck : s.Stuck process Thread.isOfPool) : s.scheduler.phase = .selecting :=
  (deals_run run).selecting positive (events_unbounded run) quiet stuck

theorem not_inFlight_of_stuck {n inbound queue : Nat} (positive : 0 < n)
    (run : Run (act? process) (launch n inbound queue) past s) (quiet : s.Undisturbed)
    (stuck : s.Stuck process Thread.isOfPool) : ¬s.InFlight t :=
  (deals_run run).not_inFlight positive (events_unbounded run) quiet stuck

/-- A handler that stopped reading on its own with the connection alive has forwarded all
there was. -/
theorem readAll_of_past {causes : List Handler.Cause} {requests : List Request}
    {stream : Bytes} {closed : Bool} {why : Handler.Ending}
    (reads : Reads stream causes closed h c requests) (past : h.phase.IsPast why)
    (going : h.stopRequested = false) (isOpen : closed = false) (live : c.aborted = false) :
    (Request.readAll stream).1 = requests := by
  obtain ⟨read, rest, -, -, hstands⟩ := reads.stands
  obtain ⟨cause, rfl, -, hover⟩ := hstands.of_past past
  have hexplains := reads.explains
  cases hover with
  | streamEnd => exact hexplains.1
  | tornFrame => exact hexplains.1
  | stopped hstop =>
      rw [going] at hstop
      contradiction
  | turnedAway hclosed =>
      rw [isOpen] at hclosed
      contradiction
  | badLength _ _ habort | badBody _ _ habort =>
      rw [live] at habort
      contradiction

/-- A handler that can do nothing has forwarded everything its client has asked for. -/
theorem Attends.forwarded_all {budget : Nat} (attends : Attends process k past s h c)
    (hh : s.handlers[k]? = some h) (hc : s.connections[k]? = some c) (quiet : s.Undisturbed)
    (empty : s.inbound.items = []) (live : c.aborted = false)
    (stuck : s.handlerStep? budget k = none) : (askedBy k past).length = h.forwarded := by
  obtain ⟨causes, requests, hreads⟩ := attends.reads
  obtain ⟨hbusy, hgoing⟩ := attends.busy
  have hwaits := handler_waits hh hc stuck
  have hpast (why : Handler.Ending) (hphase : h.phase.IsPast why) :=
    readAll_of_past hreads hphase hgoing quiet.inbound live
  have hall : (Request.readAll (streamOf k past)).1 = requests := by
    cases hphase : h.phase with
    | idle => exact absurd hphase hbusy
    | reading reader =>
        rw [hphase] at hwaits
        exact hreads.waiting hphase hwaits.2.1
    | forwarding =>
        rw [hphase, Channel.hasRoom, empty] at hwaits
        simp at hwaits
    | finishing why => exact hpast why (by rw [hphase]; rfl)
    | joining why => exact hpast why (by rw [hphase]; rfl)
    | reporting => exact hpast .disconnected (by rw [hphase]; rfl)
    | ended => exact hpast .disconnected (by rw [hphase]; trivial)
  rw [askedBy, hall, ticketsOf, List.length_mapIdx, hreads.counted]

/-- A writer that can do nothing, and does not wait for its client, has written all there
was. -/
theorem Attends.written_all {budget : Nat} (attends : Attends process k past s h c)
    (live : c.aborted = false) (room : c.isStalled = false)
    (stuck : c.writerStep? budget = none) : c.writer.left = [] ∧ c.outgoing = [] := by
  by_cases hrunning : c.writer.isRunning = true
  · obtain ⟨-, hready, hempty, -⟩ := Connection.writer_waits_with_room hrunning room stuck
    rw [hready]
    exact ⟨rfl, hempty⟩
  · cases hwriter : c.writer with
    | absent => exact absurd hwriter attends.started
    | ready | writing => simp [hwriter, Writer.isRunning] at hrunning
    | ended =>
        have hdone := attends.finished hwriter live
        rw [Connection.isFinished, Bool.and_eq_true, List.isEmpty_iff] at hdone
        exact ⟨rfl, hdone.1⟩

/-- With no ticket in flight every request forwarded is answered, and so has been handed to
the writer. -/
theorem Attends.answered_all (attends : Attends process k past s h c)
    (landed : ∀ t, ¬s.InFlight t) (live : c.aborted = false) : h.forwarded ≤ c.next := by
  by_contra hlt
  rcases attends.present live c.next (Nat.lt_of_not_le hlt) with hanswered | ⟨t, hflight, -, -⟩
  · rw [attends.orderly.next_unanswered] at hanswered
    contradiction
  · exact landed t hflight

/-- **Every request is answered, in order and once.** As long as only its threads and its
clients act, what a service has written to a client is at every moment the beginning of the
replies to the requests on that client's stream, in their order and each under its own
number. Once scheduler, workers and the client's own handler and writer can do nothing, and
that is not because the client does not read, every request has its complete reply, unless
the connection is aborted. -/
theorem every_request_answered {n inbound queue : Nat} (positive : 0 < n)
    (run : Run (act? process) (launch n inbound queue) past s)
    (ordinary : ∀ m ∈ past, m.act.isOrdinary = true) (hc : s.connections[k]? = some c) :
    c.written <+: replies process (askedBy k past) ∧
      (s.Stuck process (fun thread => thread.isOfPool || thread.isAt k) →
        c.isStalled = false → c.aborted = true ∨ c.written = replies process (askedBy k past) ∧
          ∀ t ∈ askedBy k past, succeeds process t = true) := by
  have tended := tended_run run ordinary
  have hlt : k < s.handlers.length := by
    rw [tended.quiet.paired]
    exact (List.getElem?_eq_some_iff.mp hc).1
  have hh := List.getElem?_eq_getElem hlt
  have attends := tended.attends k _ c hh hc
  obtain ⟨hbodies, hsucceed⟩ := bodies_answerOf attends.follows.passed
  constructor
  · have hwritten := attends.follows.written
    rw [hbodies] at hwritten
    exact hwritten.trans (replies_mono (List.take_prefix _ _))
  · intro hstuck hroom
    have hpool : s.Stuck process Thread.isOfPool := hstuck.mono fun _ h => by simp [h]
    have hown : s.Stuck process (Thread.isAt k) := hstuck.mono fun _ h => by simp [h]
    by_cases habort : c.aborted = true
    · exact Or.inl habort
    · right
      rw [Bool.not_eq_true] at habort
      have hlanded (t : Ticket) := not_inFlight_of_stuck (t := t) positive run tended.quiet hpool
      have hempty : s.inbound.items = [] :=
        List.eq_nil_iff_forall_not_mem.mpr fun t ht => hlanded t (Or.inl ht)
      have hforwarded :=
        attends.forwarded_all hh hc tended.quiet hempty habort (hown.handler 0)
      obtain ⟨hleft, houtgoing⟩ :=
        attends.written_all habort hroom (writer_stuck hc (hown.writer 0))
      have hnext := attends.answered_all hlanded habort
      -- No request is left at `next` or behind it, so the replies handed out are all.
      have hwhole : (askedBy k past).take c.next = askedBy k past := by
        apply List.take_of_length_le
        rw [hforwarded]
        exact hnext
      have hstream := attends.follows.stream habort
      rw [hleft, houtgoing, hbodies, hwhole, List.flatMap_nil, List.append_nil,
        List.append_nil] at hstream
      rw [hwhole] at hsucceed
      exact ⟨hstream, hsucceed⟩

/-- Two clients and two workers: the first client's requests are processed the other way
round and answered in order over a socket that holds no whole frame, the second client's
request kills a worker. -/
theorem every_request_answered_second_cut_off :
    ∃ (process : Processing) (past : List (Moment Service Act)) (s : Service)
      (c c' : Connection),
      0 < 2 ∧ Run (act? process) (launch 2 0 1) past s ∧
      (∀ m ∈ past, m.act.isOrdinary = true) ∧ s.connections = [c, c'] ∧
      s.Settled process ∧ (askedBy 0 past).map (·.request.id) = [5, 6] ∧ c.aborted = false ∧
      (askedBy 1 past).map (·.request.id) = [7] ∧ c'.aborted = true ∧
      c.written = replies process (askedBy 0 past) := by
  let process : Processing := fun t =>
    (if t.client = 2 then .fault none else .answer (.ok t.request.id), [])
  let asks (id : UInt64) : Bytes := Frame.encode (Message.ofRequest ⟨id, .create⟩).encode
  let reads (i : Nat) : List Act := [.step (.handler i 100), .step (.handler i 100)]
  let deals : List Act := [.step .scheduler, .step .scheduler]
  let works (i : Nat) : List Act :=
    [.step (.worker i), .step (.worker i), .step (.worker i)]
  let writes : List Act := [.step (.writer 0 100), .step (.writer 0 100), .clientReads 0 30,
    .step (.writer 0 100)]
  have hrun : (perform? (act? process) (launch 2 0 1)
      ([.accept (some 19), .accept, .clientWrites 0 (asks 5 ++ asks 6), .clientWrites 1 (asks 7)] ++
        reads 0 ++ reads 0 ++ deals ++ deals ++ works 1 ++ works 0 ++ reads 1 ++ deals ++
        works 0 ++ works 0 ++ reads 1 ++ writes ++ writes ++ [.step (.writer 1 0)] ++ reads 1 ++
        [.step .monitor, .step .monitor, .step .monitor])).map
      (fun p => decide ((p.1.all (·.act.isOrdinary) = true ∧
        (p.2.threads.all fun thread => (p.2.step? process thread).isNone) = true) ∧
        (askedBy 0 p.1).map (·.request.id) = [5, 6] ∧
        (askedBy 1 p.1).map (·.request.id) = [7] ∧
        p.2.connections.map (fun c => (c.aborted, c.isStalled)) = [(false, false), (true, false)]))
      = some true := by decide +kernel
  obtain ⟨⟨past, s⟩, hperform, hshows⟩ := Option.map_eq_some_iff.mp hrun
  rw [decide_eq_true_iff] at hshows
  obtain ⟨⟨hordinary, hstuck⟩, hfirst, hsecond, haborted⟩ := hshows
  rw [List.all_eq_true] at hordinary hstuck
  have run := Run.of_perform? hperform
  have hsettled : s.Settled process :=
    settled_of_threads fun thread h => Option.isNone_iff_eq_none.mp (hstuck thread h)
  obtain ⟨c, cs, hcs, hc, htail⟩ := List.map_eq_cons_iff.mp haborted
  obtain ⟨c', cs', rfl, hc', hnil⟩ := List.map_eq_cons_iff.mp htail
  rw [List.map_eq_nil_iff.mp hnil] at hcs
  obtain ⟨hlive, hroom⟩ := Prod.mk.inj hc
  obtain ⟨hcut, -⟩ := Prod.mk.inj hc'
  have hlookup : s.connections[0]? = some c := by
    rw [hcs]
    rfl
  obtain ⟨-, hall⟩ := every_request_answered (Nat.zero_lt_succ 1) run hordinary hlookup
  have hwritten : c.written = replies process (askedBy 0 past) := by
    rcases hall (hsettled.stuck _) hroom with habort | ⟨hwritten, -⟩
    · exact absurd (hlive.symm.trans habort) Bool.false_ne_true
    · exact hwritten
  exact ⟨process, past, s, c, c', Nat.zero_lt_succ 1, run, hordinary, hcs, hsettled, hfirst,
    hlive, hsecond, hcut, hwritten⟩

end Service

end SearchDaemon
