import SearchDaemon.Proofs.Run
import SearchDaemon.Proofs.Steps
import SearchDaemon.Service.Accepting

/-!
# Runs of a service

An act is a step of one thread or something that is done to the service from
outside: clients connect, write, read and leave; others stop it, abort its
connections, use its channels. After the acts and what can be observed of them
come the frame lemmas. They say what an act leaves alone, so that a proof about one
client or one worker looks only at the acts that concern it.
-/

namespace SearchDaemon

namespace Connection

/-! ## One connection -/

/-- Bytes from the client can still arrive. -/
def isReceiving (c : Connection) : Bool := !(c.aborted || c.clientGone || c.inlet.ended)

theorem clientWrites_eq (c : Connection) (bs : Bytes) :
    c.clientWrites bs =
      if c.isReceiving then { c with inlet := c.inlet.arrive bs } else c := by
  unfold clientWrites isReceiving
  cases c.aborted || c.clientGone || c.inlet.ended <;> rfl

/-- What an act that is none of its handler can do to a connection, and the bytes that
arrive by it. A response is delivered only if it is among those sent. -/
inductive Touched (sent : Nat → Response → Prop) (c : Connection) : Bytes → Connection → Prop
  | kept : Touched sent c [] c
  | starts : Touched sent c [] c.startWriter
  | wrote {c' : Connection} : Wrote c c' → Touched sent c [] c'
  | answered {sequence : Nat} {r : Response} : sent sequence r →
      Touched sent c [] (c.deliver sequence r).2.1
  | cutOff : Touched sent c [] c.abort.1
  | receives {bs : Bytes} : c.isReceiving = true →
      Touched sent c bs { c with inlet := c.inlet.arrive bs }
  | finishes : Touched sent c [] c.clientFinishes
  | reads {count : Nat} : Touched sent c [] (c.clientTakes count).2
  | closes : Touched sent c [] c.clientCloses

/-- A connection after some bytes have arrived, as far as its handler can tell. -/
structure Grown (c : Connection) (arrived : Bytes) (c' : Connection) : Prop where
  client : c'.client = c.client
  unread : c'.inlet.unread = c.inlet.unread ++ arrived
  ended : c.inlet.ended = true → c'.inlet.ended = true ∧ arrived = []
  aborted : c.aborted = true → c'.aborted = true ∧ arrived = []

variable {sent : Nat → Response → Prop} {c c' : Connection} {arrived : Bytes}

theorem Grown.kept (c : Connection) : Grown c [] c :=
  ⟨rfl, (List.append_nil _).symm, fun h => ⟨h, rfl⟩, fun h => ⟨h, rfl⟩⟩

theorem Grown.abort (c : Connection) : Grown c [] c.abort.1 := by
  unfold Connection.abort
  split
  · exact Grown.kept c
  · exact ⟨rfl, (List.append_nil _).symm, fun _ => ⟨rfl, rfl⟩, fun _ => ⟨rfl, rfl⟩⟩

theorem Touched.grown (touch : c.Touched sent arrived c') : c.Grown arrived c' := by
  have hsame {c' : Connection} (hclient : c'.client = c.client) (hinlet : c'.inlet = c.inlet)
      (haborted : c'.aborted = c.aborted) : c.Grown [] c' :=
    ⟨hclient, by rw [hinlet, List.append_nil], fun h => ⟨by rw [hinlet, h], rfl⟩,
      fun h => ⟨by rw [haborted, h], rfl⟩⟩
  have hended {c' : Connection} (hclient : c'.client = c.client)
      (hunread : c'.inlet.unread = c.inlet.unread) (hended : c'.inlet.ended = true)
      (haborted : c'.aborted = c.aborted) : c.Grown [] c' :=
    ⟨hclient, by rw [hunread, List.append_nil], fun _ => ⟨hended, rfl⟩,
      fun h => ⟨by rw [haborted, h], rfl⟩⟩
  cases touch with
  | kept => exact Grown.kept c
  | starts =>
      unfold startWriter
      split <;> exact hsame rfl rfl rfl
  | wrote hwrote =>
      cases hwrote with
      | fails =>
          have h := Grown.abort c
          exact ⟨h.client, h.unread, h.ended, h.aborted⟩
      | _ => exact hsame rfl rfl rfl
  | @answered sequence r _ =>
      rcases c.deliver_cases sequence r with hsame | ⟨-, -, htaken⟩
      · rw [hsame]
        exact Grown.kept c
      · rw [htaken]
        exact hsame rfl rfl rfl
  | cutOff => exact Grown.abort c
  | receives hopen =>
      simp only [isReceiving, Bool.not_eq_true', Bool.or_eq_false_iff] at hopen
      refine ⟨rfl, rfl, ?_, ?_⟩
      · intro h
        rw [hopen.2] at h
        contradiction
      · intro h
        rw [hopen.1.1] at h
        contradiction
  | finishes => exact hended rfl rfl rfl rfl
  | reads => exact hsame rfl rfl rfl
  | closes =>
      unfold clientCloses
      split
      · exact Grown.kept c
      · exact hended rfl rfl rfl rfl

/-- A connection that lives has always lived. -/
theorem Touched.live (touch : c.Touched sent arrived c') (live : c'.aborted = false) :
    c.aborted = false := by
  rw [Bool.eq_false_iff]
  intro habort
  rw [(touch.grown.aborted habort).1] at live
  contradiction

theorem Touched.expected (touch : c.Touched sent arrived c') : c'.expected = c.expected := by
  cases touch with
  | starts =>
      unfold startWriter
      split <;> rfl
  | wrote hwrote =>
      cases hwrote with
      | fails => exact abort_expected c
      | _ => rfl
  | @answered sequence r _ =>
      rcases c.deliver_cases sequence r with hsame | ⟨-, -, htaken⟩
      · rw [hsame]
      · rw [htaken]
        rfl
  | cutOff => exact abort_expected c
  | closes =>
      unfold clientCloses
      split <;> rfl
  | _ => rfl

theorem Orderly.touched (h : Orderly c) (touch : c.Touched sent arrived c') : Orderly c' := by
  cases touch with
  | starts => exact h.startWriter
  | wrote hwrote => exact h.wrote hwrote
  | answered => exact h.deliver _ _
  | cutOff => exact h.abort
  | closes =>
      unfold clientCloses
      split
      · exact h
      · exact ⟨h.sorted, h.early, h.counted, h.cleared⟩
  | _ => exact ⟨h.sorted, h.early, h.counted, h.cleared⟩

/-- A live connection forgets no answer. -/
theorem Touched.isAnswered (touch : c.Touched sent arrived c') (live : c'.aborted = false)
    {i : Nat} (answered : c.isAnswered i = true) : c'.isAnswered i = true := by
  have habort (h : c.abort.1.aborted = false) : False := by
    rw [abort_aborted] at h
    contradiction
  cases touch with
  | starts =>
      obtain ⟨hnext, hpending, -, -⟩ := startWriter_same c
      rw [Connection.isAnswered, hnext, hpending]
      exact answered
  | wrote hwrote =>
      cases hwrote with
      | fails => exact (habort live).elim
      | _ => exact answered
  | @answered sequence r _ =>
      by_cases hr : c.aborted = true
      · rw [(deliver_refused (Or.inl hr)).2]
        exact answered
      · exact (isAnswered_deliver (Bool.eq_false_iff.mpr hr)).mpr (Or.inl answered)
  | cutOff => exact (habort live).elim
  | closes =>
      unfold clientCloses
      split <;> exact answered
  | _ => exact answered

theorem Follows.touched {answer : Nat → Option Response} (h : Follows answer c)
    (touch : c.Touched sent arrived c') (right : ∀ i r, sent i r → answer i = some r) :
    Follows answer c' := by
  cases touch with
  | starts => exact h.startWriter
  | wrote hwrote => exact h.wrote hwrote
  | answered hsent => exact h.deliver (right _ _ hsent)
  | cutOff => exact h.abort
  | closes =>
      unfold clientCloses
      split
      · exact h
      · exact ⟨h.waiting, h.passed, h.stream, h.written⟩
  | _ => exact ⟨h.waiting, h.passed, h.stream, h.written⟩

/-- A writer never goes back to before its start. -/
theorem Touched.writer (touch : c.Touched sent arrived c') (started : c.writer ≠ .absent) :
    c'.writer ≠ .absent := by
  cases touch with
  | starts =>
      unfold startWriter
      split
      · exact started
      · exact nofun
  | wrote hwrote => cases hwrote <;> exact nofun
  | @answered sequence r _ =>
      rcases c.deliver_cases sequence r with hsame | ⟨-, -, htaken⟩
      · rw [hsame]
        exact started
      · rw [htaken]
        exact started
  | cutOff =>
      rw [abort_writer]
      exact started
  | closes =>
      unfold clientCloses
      split <;> exact started
  | _ => exact started

/-- A writer ends on a live connection only when it has finished, and nothing is delivered
after that if no response comes under a number that is not expected. -/
theorem Touched.finished (touch : c.Touched sent arrived c')
    (few : ∀ i r n, sent i r → c.expected = some n → i < n)
    (finished : c.writer = .ended → c.aborted = false → c.isFinished = true)
    (ended : c'.writer = .ended) (live : c'.aborted = false) : c'.isFinished = true := by
  have habort (h : c.abort.1.aborted = false) : False := by
    rw [abort_aborted] at h
    contradiction
  cases touch with
  | starts =>
      unfold startWriter at ended
      split at ended
      · rename_i hrunning
        rw [ended] at hrunning
        contradiction
      · contradiction
  | wrote hwrote =>
      cases hwrote with
      | cutOff haborted =>
          rw [show c.aborted = false from live] at haborted
          contradiction
      | fails => exact (habort live).elim
      | done _ _ hfinished => exact hfinished
      | _ => contradiction
  | @answered sequence r hsent =>
      rcases c.deliver_cases sequence r with hsame | ⟨hlive, hnew, htaken⟩
      · rw [hsame] at ended live ⊢
        exact finished ended live
      · rw [htaken] at ended
        -- All numbers expected are passed, so this one has its response already.
        have hdone := finished ended hlive
        simp only [isFinished, Bool.and_eq_true, Option.any_eq_true, decide_eq_true_eq] at hdone
        obtain ⟨-, n, hexpected, hle⟩ := hdone
        have hanswered : c.isAnswered sequence = true :=
          isAnswered_iff.mpr (Or.inl (Nat.lt_of_lt_of_le (few _ _ n hsent hexpected) hle))
        rw [hnew] at hanswered
        contradiction
  | cutOff => exact (habort live).elim
  | closes =>
      unfold clientCloses at ended live ⊢
      split at ended
      · rename_i hgone
        rw [if_pos hgone] at live ⊢
        exact finished ended live
      · rename_i hgone
        rw [if_neg hgone] at live ⊢
        exact finished ended live
  | _ => exact finished ended live

end Connection

namespace Service

/-! ## Acts -/

inductive Act where
  | step (thread : Thread)
  /-- A client connects over a socket that holds so much. -/
  | accept (capacity : Option Nat := none)
  /-- Sets a handler going that was built before. -/
  | start (position : Nat)
  | clientWrites (position : Nat) (bs : Bytes)
  | clientFinishes (position : Nat)
  | clientReads (position count : Nat)
  | clientCloses (position : Nat)
  | stopHandler (position : Nat)
  | abort (position : Nat)
  | deliver (position sequence : Nat) (r : Response)
  /-- Somebody else puts a ticket on the inbound channel. -/
  | submit (t : Ticket)
  /-- Somebody else takes a ticket off the inbound channel. -/
  | withdraw
  | closeInbound
  | sendStop
  | closeStop
  /-- Somebody else takes an event. -/
  | hear
  | closeEvents
deriving DecidableEq, Repr

/-- The acts of a service that nobody stops: its threads and its clients. -/
def Act.isOrdinary : Act → Bool
  | .step _ | .accept _ => true
  | .clientWrites .. | .clientFinishes _ | .clientReads .. | .clientCloses _ => true
  | _ => false

/-- Changes the connection at a position, if there is one. -/
def onConnection (s : Service) (k : Nat) (change : Connection → Connection) : Service :=
  { s with connections := s.connections.modify k change }

/-- The connection of a ticket is there. -/
def holds (s : Service) (t : Ticket) : Bool := t.connection.all (· < s.connections.length)

/-- What an act makes of a service, if it can happen. -/
def act? (process : Processing) (s : Service) : Act → Option Service
  | .step thread => (s.step? process thread).map Prod.fst
  | .accept capacity => some (s.accept capacity).1
  | .start k =>
      if (s.handlers[k]?).any (·.phase = .idle) then some (s.startHandler k).1 else none
  | .clientWrites k bs => some (s.onConnection k (·.clientWrites bs))
  | .clientFinishes k => some (s.onConnection k (·.clientFinishes))
  | .clientReads k count => some (s.onConnection k (·.clientTakes count |>.2))
  | .clientCloses k => some (s.onConnection k (·.clientCloses))
  | .stopHandler k => some (s.stopHandler k)
  | .abort k => some (s.onConnection k (·.abort.1))
  | .deliver k sequence r => some (s.onConnection k (·.deliver sequence r |>.2.1))
  | .submit t =>
      if s.holds t then (s.inbound.send? t).map fun sent => { s with inbound := sent.2 } else none
  | .withdraw => s.inbound.receive?.map fun received => { s with inbound := received.2 }
  | .closeInbound => some { s with inbound := s.inbound.close }
  | .sendStop => (s.stop.send? ()).map fun sent => { s with stop := sent.2 }
  | .closeStop => some { s with stop := s.stop.close }
  | .hear => s.events.receive?.map fun received => { s with events := received.2 }
  | .closeEvents => some { s with events := s.events.close }

/-- A service that has just been started, before the first client connects. -/
def launch (workers inbound queue : Nat) : Service :=
  let s : Service := { inbound := { capacity := inbound }, workers := Worker.pool workers queue }
  s.startWorkers.1.startScheduler.1.startMonitor.1

/-! ## Observations -/

/-- The bytes that arrive from a client. -/
def arrivedIn (k : Nat) (m : Moment Service Act) : Bytes :=
  match m.act with
  | .clientWrites i bs =>
      if i = k ∧ (m.before.connections[k]?).any Connection.isReceiving then bs else []
  | _ => []

/-- The stream of bytes a client has sent. -/
def streamOf (k : Nat) (past : List (Moment Service Act)) : Bytes := past.flatMap (arrivedIn k)

variable {process : Processing} {s s' : Service} {act : Act}

@[simp]
theorem streamOf_snoc {k : Nat} {past : List (Moment Service Act)} {m : Moment Service Act} :
    streamOf k (past ++ [m]) = streamOf k past ++ arrivedIn k m := by
  simp [streamOf]

/-- A step of the handler at a position. -/
def Act.isOfHandler (k : Nat) : Act → Bool
  | .step (.handler i _) => i = k
  | _ => false

theorem Act.eq_of_isOfHandler {k : Nat} (h : act.isOfHandler k = true) :
    ∃ budget, act = .step (.handler k budget) := by
  unfold Act.isOfHandler at h
  split at h
  · exact ⟨_, by rw [of_decide_eq_true h]⟩
  · contradiction

/-- A step of the scheduler or of a worker. -/
def Act.isOfPool : Act → Bool
  | .step .scheduler | .step (.worker _) => true
  | _ => false

/-! ## What a step comes to -/

/-- What a step of a thread can come to. -/
inductive Stepped (process : Processing) (s : Service) : Thread → Service → Prop
  | monitor {taken items : List Event} {monitor : Monitor} : s.events.items = taken ++ items →
      Stepped process s .monitor { s with events := { s.events with items }, monitor }
  | writer {i budget : Nat} {c c' : Connection} : s.connections[i]? = some c →
      Connection.Wrote c c' → Stepped process s (.writer i budget) (s.setConnection i c')
  | worker {i : Nat} {w w' : Worker} {cs : List Connection} {told : List Event} :
      s.workers[i]? = some w → Worked process s w w' cs told →
      Stepped process s (.worker i) (s.afterWorker i w' cs told)
  | scheduler {s' : Service} : Dealt s s' → Stepped process s .scheduler s'
  | handler {i budget : Nat} {h h' : Handler} {c c' : Connection} {tickets : List Ticket}
      {told : List Event} :
      s.handlers[i]? = some h → s.connections[i]? = some c →
      Handled s i h c h' c' tickets told →
      Stepped process s (.handler i budget) (s.afterHandler i h' c' tickets told)

theorem stepped_of_act? {thread : Thread} (step : s.act? process (.step thread) = some s') :
    Stepped process s thread s' := by
  obtain ⟨⟨after, journal⟩, hstep, rfl⟩ := Option.map_eq_some_iff.mp step
  cases thread with
  | monitor =>
      obtain ⟨taken, items, monitor, hitems, rfl⟩ := monitored_of_monitorStep? hstep
      exact .monitor hitems
  | writer i budget =>
      simp only [step?, writerStep?, Option.bind_eq_bind, Option.bind_eq_some_iff] at hstep
      obtain ⟨c, hc, ⟨c', lines⟩, hwrite, hafter⟩ := hstep
      cases hafter
      exact .writer hc (Connection.wrote_of_writerStep? hwrite)
  | worker i =>
      obtain ⟨w, w', cs, told, hw, hworked, rfl⟩ := worked_of_workerStep? hstep
      exact .worker hw hworked
  | scheduler => exact .scheduler (dealt_of_schedulerStep? hstep)
  | handler i budget =>
      obtain ⟨h, c, h', c', tickets, told, hh, hc, hhandled, rfl⟩ :=
        handled_of_handlerStep? hstep
      exact .handler hh hc hhandled

theorem startHandler_cases (s : Service) (i : Nat) :
    (s.startHandler i).1 = s ∨ ∃ h c, s.handlers[i]? = some h ∧ s.connections[i]? = some c ∧
      (s.startHandler i).1 = (s.setConnection i c.startWriter).setHandler i
            { h with phase := .reading Frame.Reader.start } := by
  unfold startHandler
  split
  · rename_i h c hh hc
    exact Or.inr ⟨h, c, hh, hc, rfl⟩
  · exact Or.inl rfl

/-- The service with one more client, before its handler is started. -/
def welcomed (s : Service) (capacity : Option Nat) : Service :=
  { s with
    connections := s.connections ++ [{ client := s.connections.length + 1, capacity }]
    handlers := s.handlers ++ [{}]
    monitor :=
      { s.monitor with
        registered := s.monitor.registered ++ [s.connections.length + 1]
        accepted := s.monitor.accepted + 1 } }

theorem accept_eq (s : Service) (capacity : Option Nat) :
    (s.accept capacity).1 = ((s.welcomed capacity).startHandler s.connections.length).1 := rfl

/-- Starting a handler leaves the channels, the workers and the scheduler alone. -/
theorem startHandler_same (s : Service) (i : Nat) :
    (s.startHandler i).1.inbound = s.inbound ∧ (s.startHandler i).1.stop = s.stop ∧
      (s.startHandler i).1.events = s.events ∧ (s.startHandler i).1.workers = s.workers ∧
      (s.startHandler i).1.scheduler = s.scheduler := by
  rcases s.startHandler_cases i with h | ⟨_, _, -, -, h⟩ <;> rw [h] <;>
    exact ⟨rfl, rfl, rfl, rfl, rfl⟩

/-- What an act can come to, as far as channels, workers and scheduler are concerned. -/
inductive Acted (process : Processing) (s : Service) : Act → Service → Prop
  | step {thread : Thread} {s' : Service} : Stepped process s thread s' →
      Acted process s (.step thread) s'
  /-- Only handlers, connections and the monitor's list may change. -/
  | atClient {act : Act} {s' : Service} : s'.inbound = s.inbound → s'.stop = s.stop →
      s'.events = s.events → s'.workers = s.workers → s'.scheduler = s.scheduler →
      Acted process s act s'
  /-- Somebody uses a channel who is none of the threads. -/
  | onChannel {act : Act} {inbound : Channel Ticket} {stop : Channel Unit}
      {events : Channel Event} : act.isOrdinary = false →
      (∀ t ∈ inbound.items, t ∈ s.inbound.items ∨ act = .submit t ∧ s.holds t = true) →
      (s.inbound.closed = true → inbound.closed = true) →
      (s.events.closed = true → events.closed = true) →
      events.capacity = s.events.capacity →
      Acted process s act { s with inbound, stop, events }

theorem acted_of_act? (step : s.act? process act = some s') : Acted process s act s' := by
  have hsame {ch : Channel Ticket} (h : ch.items = s.inbound.items) :
      ∀ t ∈ ch.items, t ∈ s.inbound.items ∨ act = .submit t ∧ s.holds t = true :=
    fun t ht => Or.inl (h ▸ ht)
  cases act with
  | step thread => exact .step (stepped_of_act? step)
  | accept capacity =>
      cases step
      obtain ⟨hinbound, hstop, hevents, hworkers, hscheduler⟩ :=
        (s.welcomed capacity).startHandler_same s.connections.length
      exact .atClient hinbound hstop hevents hworkers hscheduler
  | start k =>
      obtain ⟨-, hafter⟩ := Option.ite_none_right_eq_some.mp step
      cases hafter
      obtain ⟨hinbound, hstop, hevents, hworkers, hscheduler⟩ := s.startHandler_same k
      exact .atClient hinbound hstop hevents hworkers hscheduler
  | stopHandler k =>
      cases step
      unfold stopHandler
      split <;> exact .atClient rfl rfl rfl rfl rfl
  | submit t =>
      obtain ⟨hholds, hsent⟩ := Option.ite_none_right_eq_some.mp step
      obtain ⟨⟨taken, ch⟩, hsend, rfl⟩ := Option.map_eq_some_iff.mp hsent
      rcases send?_cases hsend with ⟨-, -, rfl⟩ | ⟨-, -, -, rfl⟩
      · exact .onChannel rfl (hsame rfl) id id rfl
      · refine .onChannel rfl ?_ id id rfl
        intro u hu
        rcases List.mem_append.mp hu with hu | hu
        · exact Or.inl hu
        · rw [List.mem_singleton.mp hu]
          exact Or.inr ⟨rfl, hholds⟩
  | withdraw =>
      obtain ⟨⟨item, ch⟩, hreceive, rfl⟩ := Option.map_eq_some_iff.mp step
      rcases receive?_cases hreceive with ⟨-, -, -, rfl⟩ | ⟨_, _, -, hitems, rfl⟩
      · exact .onChannel rfl (hsame rfl) id id rfl
      · refine .onChannel rfl ?_ id id rfl
        intro u hu
        rw [hitems]
        exact Or.inl (List.mem_cons_of_mem _ hu)
  | closeInbound =>
      cases step
      exact .onChannel rfl (hsame rfl) (fun _ => rfl) id rfl
  | sendStop =>
      obtain ⟨sent, -, rfl⟩ := Option.map_eq_some_iff.mp step
      exact .onChannel rfl (hsame rfl) id id rfl
  | closeStop =>
      cases step
      exact .onChannel rfl (hsame rfl) id id rfl
  | hear =>
      obtain ⟨⟨item, ch⟩, hreceive, rfl⟩ := Option.map_eq_some_iff.mp step
      rcases receive?_cases hreceive with ⟨-, -, -, rfl⟩ | ⟨_, _, -, -, rfl⟩ <;>
        exact .onChannel rfl (hsame rfl) id id rfl
  | closeEvents =>
      cases step
      exact .onChannel rfl (hsame rfl) id (fun _ => rfl) rfl
  | _ =>
      cases step
      exact .atClient rfl rfl rfl rfl rfl

/-! ## Frame lemmas -/

/-- Nobody but the scheduler and the workers touches them. -/
theorem pool_unchanged (others : act.isOfPool = false) (step : s.act? process act = some s') :
    s'.workers = s.workers ∧ s'.scheduler = s.scheduler := by
  cases acted_of_act? step with
  | step hstepped =>
      cases hstepped with
      | worker | scheduler => contradiction
      | _ => exact ⟨rfl, rfl⟩
  | atClient _ _ _ hworkers hscheduler => exact ⟨hworkers, hscheduler⟩
  | onChannel => exact ⟨rfl, rfl⟩

/-- What an act that is none of its own can do to the handler at a position. -/
inductive Nudged (k : Nat) (h : Handler) : Act → Handler → Prop
  | kept {act : Act} : Nudged k h act h
  | starts : h.phase = .idle →
      Nudged k h (.start k) { h with phase := .reading Frame.Reader.start }
  | stops : Nudged k h (.stopHandler k) { h with stopRequested := true }

theorem Nudged.stopRequested {k : Nat} {h h' : Handler} (nudged : Nudged k h act h')
    (told : h.stopRequested = true) : h'.stopRequested = true := by
  cases nudged with
  | stops => rfl
  | _ => exact told

/-- Once a handler runs, its phase is its own. -/
theorem Nudged.phase {k : Nat} {h h' : Handler} (nudged : Nudged k h act h')
    (busy : h.phase ≠ .idle) : h'.phase = h.phase := by
  cases nudged with
  | starts hidle => exact absurd hidle busy
  | _ => rfl

theorem Nudged.forwarded {k : Nat} {h h' : Handler} (nudged : Nudged k h act h') :
    h'.forwarded = h.forwarded := by
  cases nudged <;> rfl

/-- What the outside does to a handler. -/
theorem handler_nudged {k : Nat} {h : Handler} {c : Connection}
    (others : act.isOfHandler k = false) (step : s.act? process act = some s')
    (hh : s.handlers[k]? = some h) (hc : s.connections[k]? = some c) :
    ∃ h', s'.handlers[k]? = some h' ∧ Nudged k h act h' := by
  have hk : k < s.connections.length := (List.getElem?_eq_some_iff.mp hc).1
  have hother {i : Nat} {l : List Handler} {h' : Handler} (hne : i ≠ k) (hl : l[k]? = some h) :
      (l.set i h')[k]? = some h := by
    rw [List.getElem?_set_ne hne, hl]
  cases act with
  | step thread =>
      refine ⟨h, ?_, .kept⟩
      cases stepped_of_act? step with
      | monitor => exact hh
      | writer => exact hh
      | worker => exact hh
      | scheduler hdealt => cases hdealt <;> exact hh
      | @handler i =>
          have hne : i ≠ k := by simpa [Act.isOfHandler] using others
          exact hother hne hh
  | accept capacity =>
      refine ⟨h, ?_, .kept⟩
      cases step
      rw [accept_eq]
      have hwelcomed : (s.welcomed capacity).handlers[k]? = some h := by
        rw [welcomed, List.getElem?_append_left (List.getElem?_eq_some_iff.mp hh).1, hh]
      rcases (s.welcomed capacity).startHandler_cases s.connections.length with
        heq | ⟨_, _, -, -, heq⟩
      · rw [heq, hwelcomed]
      · rw [heq]
        exact hother (Nat.ne_of_gt hk) hwelcomed
  | start i =>
      obtain ⟨hidle, hafter⟩ := Option.ite_none_right_eq_some.mp step
      cases hafter
      rcases s.startHandler_cases i with heq | ⟨h', _, hh', -, heq⟩
      · rw [heq]
        exact ⟨h, hh, .kept⟩
      · rw [heq]
        by_cases hik : i = k
        · subst hik
          cases hh.symm.trans hh'
          refine ⟨_, ?_, .starts (by simpa [hh] using hidle)⟩
          simp [setHandler, setConnection, (List.getElem?_eq_some_iff.mp hh).1]
        · exact ⟨h, hother hik hh, .kept⟩
  | stopHandler i =>
      cases step
      unfold stopHandler
      split
      · rename_i h' hh'
        by_cases hik : i = k
        · subst hik
          cases hh.symm.trans hh'
          refine ⟨_, ?_, .stops⟩
          simp [setHandler, (List.getElem?_eq_some_iff.mp hh).1]
        · exact ⟨h, hother hik hh, .kept⟩
      · exact ⟨h, hh, .kept⟩
  | submit t =>
      obtain ⟨-, hsend⟩ := Option.ite_none_right_eq_some.mp step
      obtain ⟨sent, -, rfl⟩ := Option.map_eq_some_iff.mp hsend
      exact ⟨h, hh, .kept⟩
  | withdraw | sendStop | hear =>
      obtain ⟨sent, -, rfl⟩ := Option.map_eq_some_iff.mp step
      exact ⟨h, hh, .kept⟩
  | _ =>
      cases step
      exact ⟨h, hh, .kept⟩

/-- Channels stay closed, and the events' channel keeps its size. -/
theorem channels_kept (step : s.act? process act = some s') :
    (s.inbound.closed = true → s'.inbound.closed = true) ∧
      (s.events.closed = true → s'.events.closed = true) ∧
      s'.events.capacity = s.events.capacity := by
  cases acted_of_act? step with
  | step hstepped =>
      cases hstepped with
      | scheduler hdealt => cases hdealt <;> exact ⟨id, id, rfl⟩
      | _ => exact ⟨id, id, rfl⟩
  | atClient hinbound _ hevents =>
      rw [hinbound, hevents]
      exact ⟨id, id, rfl⟩
  | onChannel _ _ hinbound hevents hcapacity => exact ⟨hinbound, hevents, hcapacity⟩

/-! ## Connections and the outside -/

/-- The responses that an act delivers to the connection at a position. -/
def Mailed (s : Service) (k : Nat) (act : Act) (sequence : Nat) (r : Response) : Prop :=
  act = .deliver k sequence r ∨
    ∃ i w t, act = .step (.worker i) ∧ s.workers[i]? = some w ∧ w.phase = .delivering t r ∧
      t.connection = some k ∧ t.sequence = sequence

theorem getElem?_onConnection {k i : Nat} {c : Connection} {f : Connection → Connection}
    (hc : s.connections[k]? = some c) :
    (s.onConnection i f).connections[k]? = some (if i = k then f c else c) := by
  rw [onConnection, List.getElem?_modify, hc]
  split <;> rfl

theorem getElem?_abortAt {k : Nat} {c : Connection} {cs : List Connection} (position : Option Nat)
    (hc : cs[k]? = some c) :
    (abortAt position cs)[k]? = some (if position = some k then c.abort.1 else c) := by
  cases position with
  | none => simpa [abortAt] using hc
  | some i =>
      rw [abortAt, List.getElem?_modify, hc]
      by_cases h : i = k <;> simp [h]

theorem getElem?_deliverAt {k sequence : Nat} {r : Response} {c : Connection}
    {cs : List Connection} (position : Option Nat) (hc : cs[k]? = some c) :
    (deliverAt position sequence r cs)[k]? =
      some (if position = some k then (c.deliver sequence r).2.1 else c) := by
  cases position with
  | none => simpa [deliverAt] using hc
  | some i =>
      rw [deliverAt, List.getElem?_modify, hc]
      by_cases h : i = k <;> simp [h]

theorem touched_onConnection {k i : Nat} {c : Connection} {f : Connection → Connection}
    {sent : Nat → Response → Prop} (hc : s.connections[k]? = some c)
    (touch : i = k → c.Touched sent [] (f c)) :
    ∃ c', (s.onConnection i f).connections[k]? = some c' ∧ c.Touched sent [] c' := by
  refine ⟨_, getElem?_onConnection hc, ?_⟩
  split
  · rename_i hik
    exact touch hik
  · exact .kept

theorem touched_abortAt {k : Nat} {c : Connection} {cs : List Connection}
    {sent : Nat → Response → Prop} (position : Option Nat) (hc : cs[k]? = some c) :
    ∃ c', (abortAt position cs)[k]? = some c' ∧ c.Touched sent [] c' := by
  refine ⟨_, getElem?_abortAt position hc, ?_⟩
  split
  · exact .cutOff
  · exact .kept

/-- What the outside does to a connection. -/
theorem connection_touched {k : Nat} {c : Connection} (others : act.isOfHandler k = false)
    (step : s.act? process act = some s') (hc : s.connections[k]? = some c) :
    ∃ c', s'.connections[k]? = some c' ∧
      c.Touched (s.Mailed k act) (arrivedIn k ⟨s, act, s'⟩) c' := by
  have hk : k < s.connections.length := (List.getElem?_eq_some_iff.mp hc).1
  have hat (i : Nat) (c' : Connection) :
      (s.connections.set i c')[k]? = some (if i = k then c' else c) := by
    rw [List.getElem?_set]
    split
    · rename_i hik
      rw [if_pos (hik ▸ hk)]
    · exact hc
  cases act with
  | step thread =>
      cases stepped_of_act? step with
      | monitor => exact ⟨c, hc, .kept⟩
      | @writer i _ c₀ c' hc₀ hwrote =>
          refine ⟨_, hat i c', ?_⟩
          split
          · rename_i hik
            subst hik
            cases hc.symm.trans hc₀
            exact .wrote hwrote
          · exact .kept
      | @worker i w _ _ _ hw hworked =>
          cases hworked with
          | @delivers t r hphase =>
              refine ⟨_, getElem?_deliverAt t.connection hc, ?_⟩
              split
              · rename_i hposition
                exact .answered (Or.inr ⟨i, w, t, rfl, hw, hphase, hposition, rfl⟩)
              · exact .kept
          | cutsOff => exact touched_abortAt _ hc
          | drains => exact touched_abortAt _ hc
          | _ => exact ⟨c, hc, .kept⟩
      | scheduler hdealt =>
          cases hdealt with
          | refuses => exact touched_abortAt _ hc
          | _ => exact ⟨c, hc, .kept⟩
      | @handler i =>
          have hne : i ≠ k := by simpa [Act.isOfHandler] using others
          refine ⟨c, ?_, .kept⟩
          rw [afterHandler, hat, if_neg hne]
  | accept capacity =>
      -- The new connection stands behind all others.
      cases step
      rw [accept_eq]
      refine ⟨c, ?_, .kept⟩
      have hwelcomed : (s.welcomed capacity).connections[k]? = some c := by
        rw [welcomed, List.getElem?_append_left hk, hc]
      rcases (s.welcomed capacity).startHandler_cases s.connections.length with
        heq | ⟨_, _, -, -, heq⟩
      · rw [heq, hwelcomed]
      · rw [heq, setHandler, setConnection, List.getElem?_set_ne (Nat.ne_of_gt hk), hwelcomed]
  | start i =>
      obtain ⟨-, hafter⟩ := Option.ite_none_right_eq_some.mp step
      cases hafter
      rcases s.startHandler_cases i with heq | ⟨_, c₀, -, hc₀, heq⟩
      · rw [heq]
        exact ⟨c, hc, .kept⟩
      · rw [heq]
        refine ⟨_, hat i _, ?_⟩
        split
        · rename_i hik
          subst hik
          cases hc.symm.trans hc₀
          exact .starts
        · exact .kept
  | clientWrites i bs =>
      cases step
      refine ⟨_, getElem?_onConnection hc, ?_⟩
      split
      · rename_i hik
        simp only [arrivedIn, hik, hc, Option.any_some, true_and, Connection.clientWrites_eq]
        split
        · rename_i hopen
          exact .receives hopen
        · exact .kept
      · rename_i hik
        simp only [arrivedIn, hik, false_and, if_false]
        exact .kept
  | clientFinishes i =>
      cases step
      exact touched_onConnection hc fun _ => .finishes
  | clientReads i count =>
      cases step
      exact touched_onConnection hc fun _ => .reads
  | clientCloses i =>
      cases step
      exact touched_onConnection hc fun _ => .closes
  | abort i =>
      cases step
      exact touched_onConnection hc fun _ => .cutOff
  | deliver i sequence r =>
      cases step
      exact touched_onConnection hc fun hik => .answered (Or.inl (by rw [hik]))
  | stopHandler i =>
      cases step
      unfold stopHandler
      split <;> exact ⟨c, hc, .kept⟩
  | submit t =>
      obtain ⟨-, hsent⟩ := Option.ite_none_right_eq_some.mp step
      obtain ⟨sent, -, rfl⟩ := Option.map_eq_some_iff.mp hsent
      exact ⟨c, hc, .kept⟩
  | withdraw | sendStop | hear =>
      obtain ⟨sent, -, rfl⟩ := Option.map_eq_some_iff.mp step
      exact ⟨c, hc, .kept⟩
  | _ =>
      cases step
      exact ⟨c, hc, .kept⟩

end Service

end SearchDaemon
