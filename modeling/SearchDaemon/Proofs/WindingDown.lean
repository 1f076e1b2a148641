import SearchDaemon.Proofs.Accounting
import SearchDaemon.Proofs.Settling
import SearchDaemon.Service.Teardown

/-!
# Winding a service down

A service that is stopped while no thread can do anything, and no client keeps a writer
waiting, has only clients that wait for their next request and clients that are gone.
`WindingDown` says so and is kept by every step that a thread can still take: nothing is read,
forwarded or written any more, handlers and writers leave one after the other, queues close.
It is also kept when handlers are told to stop and connections are aborted, at any time.
-/

namespace SearchDaemon

/-- The handler has told its connection how many responses there will be. -/
def Handler.Phase.hasTold : Handler.Phase → Bool
  | .joining _ | .reporting | .ended => true
  | _ => false

/-! ## One client -/

namespace Connection

variable {sent : Nat → Response → Prop} {c c' : Connection} {arrived : Bytes}

/-- Nothing arrives any more once the connection is aborted. -/
def CutOff (c : Connection) : Prop := c.aborted = true → c.inlet.ended = true

theorem CutOff.abort (cut : c.CutOff) : c.abort.1.CutOff := by
  intro _
  unfold Connection.abort
  split
  · rename_i habort
    exact cut habort
  · rfl

theorem CutOff.touched (cut : c.CutOff) (touch : c.Touched sent arrived c') : c'.CutOff := by
  cases touch with
  | kept | reads => exact cut
  | starts =>
      unfold startWriter
      split <;> exact cut
  | wrote hwrote =>
      cases hwrote with
      | fails => exact cut.abort
      | _ => exact cut
  | @answered sequence r =>
      rcases c.deliver_cases sequence r with hsame | ⟨-, -, htaken⟩
      · rw [hsame]
        exact cut
      · rw [htaken]
        exact cut
  | cutOff => exact cut.abort
  | receives => exact cut
  | finishes => exact fun _ => rfl
  | closes =>
      unfold clientCloses
      split
      · exact cut
      · exact fun _ => rfl

/-- The writer has nothing to write, and may have ended. -/
structure Quiet (c : Connection) : Prop where
  empty : c.outgoing = []
  rests : c.writer = .ready ∨ c.writer = .ended

/-- A writer that has nothing to write can only end. -/
theorem Quiet.wrote (quiet : c.Quiet) (step : Wrote c c') : c' = { c with writer := .ended } := by
  have hidle {rest : Bytes} (hwriting : c.writer = .writing rest) : False := by
    rcases quiet.rests with hready | hended
    · rw [hready] at hwriting
      contradiction
    · rw [hended] at hwriting
      contradiction
  cases step with
  | cutOff | done => rfl
  | begins _ _ houtgoing =>
      rw [quiet.empty] at houtgoing
      contradiction
  | fails _ hwriting | completes _ hwriting | writes _ hwriting => exact (hidle hwriting).elim

theorem Quiet.abort (quiet : c.Quiet) : c.abort.1.Quiet := by
  unfold Connection.abort
  split
  · exact quiet
  · exact ⟨rfl, quiet.rests⟩

end Connection

namespace Service

open Connection (Wrote)

variable {process : Processing} {s s' : Service} {act : Act}
  {past : List (Moment Service Act)} {k : Nat} {h h' : Handler} {c c' : Connection}
  {tickets : List Ticket} {told : List Event}

/-- What holds of a handler and its connection along every run that nobody disturbs. -/
structure Informed (h : Handler) (c : Connection) : Prop where
  told : h.phase.hasTold = true → c.expected = some h.forwarded
  cut : c.CutOff

theorem Informed.handled (informed : Informed h c)
    (step : Handled s k h c h' c' tickets told) : Informed h' c' := by
  cases step with
  | rejects | objects =>
      exact ⟨nofun, Connection.CutOff.abort informed.cut⟩
  | finishes => exact ⟨fun _ => rfl, informed.cut⟩
  | leaves hphase | joins hphase | reports hphase | unheard hphase =>
      exact ⟨fun _ => informed.told (by rw [hphase]; rfl), informed.cut⟩
  | _ => exact ⟨nofun, informed.cut⟩

theorem informed_run {n inbound queue : Nat}
    (run : Run (act? process) (launch n inbound queue) past s)
    (ordinary : ∀ m ∈ past, m.act.isOrdinary = true) (hh : s.handlers[k]? = some h)
    (hc : s.connections[k]? = some c) : Informed h c := by
  induction run generalizing h c with
  | start =>
      rw [launch_eq] at hh
      contradiction
  | @snoc past now next act run step ih =>
      have hbefore : ∀ m ∈ past, m.act.isOrdinary = true :=
        fun m hm => ordinary m (List.mem_append_left _ hm)
      have hlast := ordinary _ (List.mem_append_right _ (List.mem_singleton_self _))
      have paired := (tended_run run hbefore).quiet.paired
      by_cases hold : k < now.connections.length
      · have hc₀ := List.getElem?_eq_getElem hold
        have hh₀ := List.getElem?_eq_getElem (paired ▸ hold)
        have informed := ih hbefore hh₀ hc₀
        by_cases hown : act.isOfHandler k = true
        · obtain ⟨budget, rfl⟩ := Act.eq_of_isOfHandler hown
          cases stepped_of_act? step with
          | handler hh₁ hc₁ hhandled =>
              cases hh₀.symm.trans hh₁
              cases hc₀.symm.trans hc₁
              cases hh.symm.trans (handler_afterHandler hh₀)
              cases hc.symm.trans (connection_afterHandler hc₀)
              exact informed.handled hhandled
        · rw [Bool.not_eq_true] at hown
          obtain ⟨c', hc', touched⟩ := connection_touched hown step hc₀
          cases hh.symm.trans (handler_kept hlast hown step hh₀ hc₀)
          cases hc.symm.trans hc'
          refine ⟨?_, informed.cut.touched touched⟩
          rw [touched.expected]
          exact informed.told
      · -- Nobody was there before, so somebody has just connected.
        have hk : k < next.connections.length := (List.getElem?_eq_some_iff.mp hc).1
        rcases size_kept hlast step with ⟨capacity, rfl⟩ | ⟨-, hsame⟩
        · cases step
          obtain ⟨hhandlers, hconnections⟩ := accept_appends paired capacity
          have hnew : k = now.connections.length := by
            rw [hconnections, List.length_append, List.length_singleton] at hk
            omega
          subst hnew
          rw [hconnections, List.getElem?_concat_length] at hc
          rw [hhandlers, ← paired, List.getElem?_concat_length] at hh
          cases hc
          cases hh
          exact ⟨nofun, nofun⟩
        · rw [hsame] at hk
          exact absurd hk hold

/-- How a client can stand while its service is wound down: it waits for its next request or
is told to stop, its handler is on the way out, or it is gone. A connection that is not aborted
has all its responses. -/
inductive Departing (h : Handler) (c : Connection) : Prop
  | reads {reader : Frame.Reader} : h.phase = .reading reader → c.Quiet →
      (c.aborted = false → h.forwarded ≤ c.next) →
      h.stopRequested = true ∨ c.inlet.unread = [] ∧ c.inlet.ended = false → Departing h c
  | finishes : h.phase = .finishing .stopped → c.Quiet →
      (c.aborted = false → h.forwarded ≤ c.next) → Departing h c
  | joins : h.phase = .joining .stopped → c.Quiet →
      (c.aborted = false → ∃ n, c.expected = some n ∧ n ≤ c.next) → Departing h c
  | gone : h.phase = .ended → c.writer.isRunning = false → Departing h c

/-- Nobody has anything to write. -/
theorem Departing.quiet (departing : Departing h c) (running : c.writer.isRunning = true) :
    c.Quiet := by
  cases departing with
  | reads _ hquiet | finishes _ hquiet | joins _ hquiet => exact hquiet
  | gone _ hended =>
      rw [running] at hended
      contradiction

theorem Departing.writer_ended (departing : Departing h c) :
    Departing h { c with writer := .ended } := by
  have hends (quiet : c.Quiet) : ({ c with writer := .ended } : Connection).Quiet :=
    ⟨quiet.empty, Or.inr rfl⟩
  cases departing with
  | reads hphase hquiet hnext hreads => exact .reads hphase (hends hquiet) hnext hreads
  | finishes hphase hquiet hnext => exact .finishes hphase (hends hquiet) hnext
  | joins hphase hquiet hexpected => exact .joins hphase (hends hquiet) hexpected
  | gone hphase => exact .gone hphase rfl

theorem Departing.wrote (departing : Departing h c) (step : Wrote c c') :
    Departing h c' ∧ c'.written = c.written := by
  obtain rfl := (departing.quiet step.running).wrote step
  exact ⟨departing.writer_ended, rfl⟩

theorem Departing.handled (departing : Departing h c)
    (step : Handled s k h c h' c' tickets told) :
    Departing h' c' ∧ c'.written = c.written ∧ tickets = [] ∧ told = [] := by
  cases departing with
  | @reads reader hphase hquiet hnext hreads =>
      -- Without a stop there is nothing to read.
      have hgo (hgo : h.stopRequested = false) :
          c.inlet.unread = [] ∧ c.inlet.ended = false := by
        rcases hreads with hstop | hdry
        · rw [hgo] at hstop
          contradiction
        · exact hdry
      have hpiece {piece later : Bytes} (hnone : h.stopRequested = false)
          (hsplit : c.inlet.unread = piece ++ later) (hsome : piece ≠ []) : False := by
        rw [(hgo hnone).1] at hsplit
        exact hsome (List.append_eq_nil_iff.mp hsplit.symm).1
      cases step with
      | stops => exact ⟨.finishes rfl hquiet hnext, rfl, rfl, rfl⟩
      | runsDry _ hnone _ hended =>
          rw [(hgo hnone).2] at hended
          contradiction
      | readsOn _ hnone hsplit _ hsome => exact (hpiece hnone hsplit hsome).elim
      | finds _ hnone hsplit _ _ hsome => exact (hpiece hnone hsplit hsome).elim
      | rejects _ hnone hsplit _ _ hsome => exact (hpiece hnone hsplit hsome).elim
      | objects _ hnone hsplit _ hsome => exact (hpiece hnone hsplit hsome).elim
      | forwards hother | turnedAway hother | finishes hother | leaves hother | joins hother
      | reports hother | unheard hother =>
          rw [hphase] at hother
          contradiction
  | finishes hphase hquiet hnext =>
      cases step with
      | finishes hfinishing =>
          cases hphase.symm.trans hfinishing
          exact ⟨.joins rfl ⟨hquiet.empty, hquiet.rests⟩ fun live => ⟨_, rfl, hnext live⟩,
            rfl, rfl, rfl⟩
      | stops hother | runsDry hother | readsOn hother | finds hother | rejects hother
      | objects hother | forwards hother | turnedAway hother | leaves hother | joins hother
      | reports hother | unheard hother =>
          rw [hphase] at hother
          contradiction
  | joins hphase =>
      cases step with
      | leaves _ hquiet => exact ⟨.gone rfl hquiet, rfl, rfl, rfl⟩
      | stops hother | runsDry hother | readsOn hother | finds hother | rejects hother
      | objects hother | forwards hother | turnedAway hother | finishes hother | joins hother
      | reports hother | unheard hother =>
          rw [hphase] at hother
          contradiction
  | gone hphase =>
      cases step with
      | stops hother | runsDry hother | readsOn hother | finds hother | rejects hother
      | objects hother | forwards hother | turnedAway hother | finishes hother | leaves hother
      | joins hother | reports hother | unheard hother =>
          rw [hphase] at hother
          contradiction

theorem Departing.stop (departing : Departing h c) :
    Departing { h with stopRequested := true } c := by
  cases departing with
  | reads hphase hquiet hnext => exact .reads hphase hquiet hnext (Or.inl rfl)
  | finishes hphase hquiet hnext => exact .finishes hphase hquiet hnext
  | joins hphase hquiet hexpected => exact .joins hphase hquiet hexpected
  | gone hphase hquiet => exact .gone hphase hquiet

/-- Who is told to stop stays on the way out when the connection is aborted. -/
theorem Departing.abort (departing : Departing h c)
    (told : h.phase = .ended ∨ h.stopRequested = true) : Departing h c.abort.1 := by
  have hcut {p : Prop} (live : c.abort.1.aborted = false) : p := by
    rw [Connection.abort_aborted] at live
    contradiction
  cases departing with
  | reads hphase hquiet =>
      refine .reads hphase hquiet.abort hcut (Or.inl ?_)
      rcases told with hended | hstop
      · rw [hphase] at hended
        contradiction
      · exact hstop
  | finishes hphase hquiet => exact .finishes hphase hquiet.abort hcut
  | joins hphase hquiet => exact .joins hphase hquiet.abort hcut
  | gone hphase hquiet =>
      refine .gone hphase ?_
      rw [Connection.abort_writer]
      exact hquiet

/-- A handler that is told to stop leaves, as soon as it can. -/
theorem Departing.gone_of_stuck {budget : Nat} (departing : Departing h c)
    (hh : s.handlers[k]? = some h) (hc : s.connections[k]? = some c)
    (told : h.phase = .ended ∨ h.stopRequested = true)
    (handler : s.handlerStep? budget k = none) (writer : s.writerStep? budget k = none) :
    h.phase = .ended ∧ c.writer.isRunning = false := by
  have hwaits := handler_waits hh hc handler
  cases departing with
  | reads hphase =>
      rw [hphase] at hwaits told
      rcases told with hended | hstop
      · contradiction
      · rw [hstop] at hwaits
        exact absurd hwaits.1.symm Bool.false_ne_true
  | finishes hphase =>
      rw [hphase] at hwaits
      exact hwaits.elim
  | joins hphase hquiet hexpected =>
      rw [hphase] at hwaits
      obtain ⟨hlive, ⟨-, -, hmore⟩ | hstalled⟩ :=
        Connection.writer_waits hwaits (writer_stuck hc writer)
      · obtain ⟨n, hn, hnext⟩ := hexpected hlive
        simp [Connection.isFinished, hquiet.empty, hn, hnext] at hmore
      · obtain ⟨rest, hwriting, -⟩ := Connection.isStalled_iff.mp hstalled
        rcases hquiet.rests with hready | hended
        · rw [hready] at hwriting
          contradiction
        · rw [hended] at hwriting
          contradiction
  | gone hphase hquiet => exact ⟨hphase, hquiet⟩

/-! ## The whole service -/

/-- What holds while a service is wound down: of the clients on a list some are still to be
told to stop, all others have left, and these streams have been written. -/
structure WindingDown (clients untold : List Nat) (streams : List Bytes) (s : Service) :
    Prop where
  stop : s.stop.capacity = 0
  inbound : s.inbound.items = []
  events : s.events.items = []
  workers : ∀ w ∈ s.workers, w.queue.items = [] ∧
    (w.phase = .receiving ∨ w.phase = .ended ∧ w.queue.closed = true)
  scheduler : s.scheduler.phase = .idle ∧ s.workers = [] ∨ s.scheduler.phase = .selecting ∨
    s.scheduler.phase.isClosing = true
  shut : ∀ (i : Nat) (w : Worker), s.workers[i]? = some w →
    s.scheduler.phase.hasClosed i = true → w.queue.closed = true
  monitor : s.monitor.phase = .idle ∨ s.monitor.phase = .receiving ∨ s.monitor.phase = .ended
  paired : s.handlers.length = s.connections.length
  departing : ∀ (k : Nat) (h : Handler) (c : Connection), s.handlers[k]? = some h →
    s.connections[k]? = some c → Departing h c
  told : ∀ (k : Nat) (h : Handler), s.handlers[k]? = some h →
    h.phase = .ended ∨ k + 1 ∈ clients ∧ (h.stopRequested = true ∨ k + 1 ∈ untold)
  streams : s.connections.map (·.written) = streams

variable {clients untold : List Nat} {streams : List Bytes}

theorem WindingDown.heard (down : WindingDown clients untold streams s) (heard : Heard s s') :
    WindingDown clients untold streams s' := by
  cases heard with
  | left _ hitems | died _ hitems =>
      rw [down.events] at hitems
      contradiction
  | ends => exact { down with monitor := Or.inr (Or.inr rfl) }
  | joins => exact { down with monitor := Or.inr (Or.inl rfl) }

theorem map_set_same {α β : Type} {l : List α} {i : Nat} {a b : α} (f : α → β)
    (h : l[i]? = some a) (same : f b = f a) : (l.set i b).map f = l.map f := by
  rw [List.map_set, same]
  apply set_self
  rw [List.getElem?_map, h]
  rfl

/-- A client moves on, and everything else stays as it is. -/
theorem WindingDown.client (down : WindingDown clients untold streams s)
    (hh : s.handlers[k]? = some h) (hc : s.connections[k]? = some c)
    (departing : Departing h' c') (written : c'.written = c.written)
    (stopped : h.stopRequested = true → h'.stopRequested = true)
    (ended : h.phase = .ended → h'.phase = .ended) :
    WindingDown clients untold streams
      { s with connections := s.connections.set k c', handlers := s.handlers.set k h' } where
  stop := down.stop
  inbound := down.inbound
  events := down.events
  workers := down.workers
  scheduler := down.scheduler
  shut := down.shut
  monitor := down.monitor
  paired := by
    rw [List.length_set, List.length_set]
    exact down.paired
  departing := by
    intro i g d hg hd
    rcases getElem?_set_cases hh hg with ⟨rfl, rfl⟩ | ⟨hne, hg⟩
    · cases hd.symm.trans (getElem?_set_here hc)
      exact departing
    · rw [List.getElem?_set_ne hne] at hd
      exact down.departing i g d hg hd
  told := by
    intro i g hg
    rcases getElem?_set_cases hh hg with ⟨rfl, rfl⟩ | ⟨-, hg⟩
    · exact (down.told k h hh).imp ended fun hlisted => hlisted.imp_right (Or.imp_left stopped)
    · exact down.told i g hg
  streams := by
    rw [map_set_same _ hc written]
    exact down.streams

theorem WindingDown.wrote (down : WindingDown clients untold streams s)
    (hc : s.connections[k]? = some c) (step : Wrote c c') :
    WindingDown clients untold streams (s.setConnection k c') := by
  have hlt : k < s.handlers.length := by
    rw [down.paired]
    exact (List.getElem?_eq_some_iff.mp hc).1
  have hh := List.getElem?_eq_getElem hlt
  obtain ⟨hdeparting, hwritten⟩ := (down.departing k _ c hh hc).wrote step
  have hdown := down.client hh hc hdeparting hwritten id id
  rw [set_self hh] at hdown
  exact hdown

theorem WindingDown.handled (down : WindingDown clients untold streams s)
    (hh : s.handlers[k]? = some h) (hc : s.connections[k]? = some c)
    (step : Handled s k h c h' c' tickets told) :
    WindingDown clients untold streams (s.afterHandler k h' c' tickets told) := by
  obtain ⟨hdeparting, hwritten, rfl, rfl⟩ := (down.departing k h c hh hc).handled step
  rw [afterHandler_quiet]
  refine down.client hh hc hdeparting hwritten ?_ ?_
  · rw [step.busy.2]
    exact id
  · intro hended
    cases step with
    | stops hother | runsDry hother | readsOn hother | finds hother | rejects hother
    | objects hother | turnedAway hother | finishes hother | joins hother =>
        rw [hended] at hother
        contradiction
    | leaves | unheard => rfl

/-- No worker has a ticket in hand, nor has one just died: a worker can only end. -/
theorem WindingDown.leaves {w w' : Worker} {cs : List Connection}
    (down : WindingDown clients untold streams s) (hmem : w ∈ s.workers)
    (step : Worked process s w w' cs told) :
    w.phase = .receiving ∧ w.queue.closed = true ∧ w' = { w with phase := .ended } ∧
      cs = s.connections ∧ told = [] := by
  obtain ⟨hempty, hidle⟩ := down.workers w hmem
  cases step with
  | leaves hphase _ hclosed => exact ⟨hphase, hclosed, rfl, rfl, rfl⟩
  | takes _ hitems =>
      rw [hempty] at hitems
      contradiction
  | answers hphase | faults hphase | delivers hphase | cutsOff hphase | reports hphase
  | unheard hphase | closes hphase | drains hphase | ends hphase =>
      rcases hidle with hreceiving | ⟨hended, -⟩
      · rw [hphase] at hreceiving
        contradiction
      · rw [hphase] at hended
        contradiction

theorem WindingDown.worked {i : Nat} {w w' : Worker} {cs : List Connection}
    (down : WindingDown clients untold streams s) (hw : s.workers[i]? = some w)
    (step : Worked process s w w' cs told) :
    WindingDown clients untold streams (s.afterWorker i w' cs told) := by
  obtain ⟨hempty, -⟩ := down.workers w (List.mem_of_getElem? hw)
  obtain ⟨-, hclosed, rfl, rfl, rfl⟩ := down.leaves (List.mem_of_getElem? hw) step
  rw [afterWorker_quiet]
  refine { down with workers := ?_, scheduler := ?_, shut := ?_ }
  · intro u hu
    rcases List.mem_or_eq_of_mem_set hu with hu | rfl
    · exact down.workers u hu
    · exact ⟨hempty, Or.inr ⟨rfl, hclosed⟩⟩
  · refine down.scheduler.imp_left fun ⟨hphase, hnone⟩ => ⟨hphase, ?_⟩
    rw [hnone]
    rfl
  · intro j u hu hshut
    rcases getElem?_set_cases hw hu with ⟨rfl, rfl⟩ | ⟨-, hold⟩
    · exact hclosed
    · exact down.shut j u hold hshut

theorem WindingDown.not_sending {n : Nat} {t : Ticket}
    (down : WindingDown clients untold streams s) : s.scheduler.phase ≠ .sending n t := by
  intro hphase
  have hscheduler := down.scheduler
  rw [hphase] at hscheduler
  simp [Scheduler.Phase.isClosing] at hscheduler

theorem WindingDown.dealt (down : WindingDown clients untold streams s) (step : Dealt s s') :
    WindingDown clients untold streams s' := by
  have hnone (i : Nat) : (Scheduler.Phase.closing 0).hasClosed i = true → False := by
    simp [Scheduler.Phase.hasClosed]
  cases step with
  | stops =>
      exact
        { down with
          stop := (take_capacity s.stop).trans down.stop
          scheduler := Or.inr (Or.inr rfl)
          shut := fun i _ _ hclosed => (hnone i hclosed).elim }
  | runsDry =>
      exact
        { down with
          scheduler := Or.inr (Or.inr rfl)
          shut := fun i _ _ hclosed => (hnone i hclosed).elim }
  -- Without tickets the scheduler can only go on to close the queues.
  | takes _ _ hitems =>
      rw [down.inbound] at hitems
      contradiction
  | sends hphase | refuses hphase => exact absurd hphase down.not_sending
  | @closes n w hphase hw =>
      obtain ⟨hempty, hidle⟩ := down.workers w (List.mem_of_getElem? hw)
      refine { down with workers := ?_, scheduler := Or.inr (Or.inr rfl), shut := ?_ }
      · intro u hu
        rcases List.mem_or_eq_of_mem_set hu with hu | rfl
        · exact down.workers u hu
        · exact ⟨hempty, hidle.imp_right fun hover => ⟨hover.1, rfl⟩⟩
      · intro i u hu hclosed
        rcases getElem?_set_cases hw hu with ⟨rfl, rfl⟩ | ⟨hne, hold⟩
        · rfl
        · apply down.shut i u hold
          rw [hphase]
          simp only [Scheduler.Phase.hasClosed, decide_eq_true_eq] at hclosed ⊢
          omega
  | @ends n hphase hlast =>
      refine { down with scheduler := Or.inr (Or.inr rfl), shut := ?_ }
      intro i u hu _
      apply down.shut i u hu
      have hi : i < s.workers.length := (List.getElem?_eq_some_iff.mp hu).1
      have hn := List.getElem?_eq_none_iff.mp hlast
      rw [hphase]
      simp only [Scheduler.Phase.hasClosed, decide_eq_true_eq]
      omega

theorem heard_of_act? (step : s.act? process (.step .monitor) = some s') : Heard s s' := by
  obtain ⟨⟨after, journal⟩, hstep, rfl⟩ := Option.map_eq_some_iff.mp step
  exact heard_of_monitorStep? hstep

/-- **Winding down is kept by every step.** -/
theorem WindingDown.step {thread : Thread} (down : WindingDown clients untold streams s)
    (step : s.act? process (.step thread) = some s') : WindingDown clients untold streams s' := by
  cases stepped_of_act? step with
  | monitor => exact down.heard (heard_of_act? step)
  | writer hc hwrote => exact down.wrote hc hwrote
  | worker hw hworked => exact down.worked hw hworked
  | scheduler hdealt => exact down.dealt hdealt
  | handler hh hc hhandled => exact down.handled hh hc hhandled

theorem WindingDown.stopHandler {client : Nat}
    (down : WindingDown clients (client :: untold) streams s) :
    WindingDown clients untold streams (s.stopHandler (client - 1)) := by
  unfold Service.stopHandler
  cases hh : s.handlers[client - 1]? with
  | none =>
      refine { down with told := ?_ }
      intro k h hk
      refine (down.told k h hk).imp_right fun ⟨hlisted, htold⟩ => ⟨hlisted, ?_⟩
      refine htold.imp_right fun huntold => ?_
      rcases List.mem_cons.mp huntold with rfl | hlater
      · rw [Nat.add_sub_cancel, hk] at hh
        contradiction
      · exact hlater
  | some h =>
      have hlt : client - 1 < s.connections.length := by
        rw [← down.paired]
        exact (List.getElem?_eq_some_iff.mp hh).1
      have hc := List.getElem?_eq_getElem hlt
      -- Only the request to stop is new, so the client is as ready to depart as before.
      have hdown := down.client hh hc (down.departing _ _ _ hh hc).stop rfl (fun _ => rfl) id
      rw [set_self hc] at hdown
      refine { hdown with told := ?_ }
      intro k g hk
      refine (hdown.told k g hk).imp_right fun ⟨hlisted, htold⟩ => ⟨hlisted, ?_⟩
      rcases htold with hstop | huntold
      · exact Or.inl hstop
      · rcases List.mem_cons.mp huntold with rfl | hlater
        · cases hk.symm.trans (getElem?_set_here hh)
          exact Or.inl rfl
        · exact Or.inr hlater

theorem abortAt_written (position : Option Nat) (cs : List Connection) :
    (abortAt position cs).map (·.written) = cs.map (·.written) := by
  cases position with
  | none => rfl
  | some k =>
      cases hc : cs[k]? with
      | none => rw [abortAt, List.modify_eq_self (List.getElem?_eq_none_iff.mp hc)]
      | some c =>
          rw [abortAt, ← set_eq_modify (fun c => c.abort.1) hc]
          exact map_set_same _ hc (Connection.abort_written c)

/-- Connections may be aborted once everybody is told to stop. -/
theorem WindingDown.abort (down : WindingDown clients [] streams s) (position : Option Nat) :
    WindingDown clients [] streams (s.abortConnection position).1 := by
  rw [abortConnection_eq]
  refine { down with paired := ?_, departing := ?_, streams := ?_ }
  · rw [length_abortAt]
    exact down.paired
  · intro k h c' hh hc'
    have hlt : k < s.connections.length := by
      rw [← down.paired]
      exact (List.getElem?_eq_some_iff.mp hh).1
    have hc := List.getElem?_eq_getElem hlt
    cases hc'.symm.trans (getElem?_abortAt position hc)
    have hdeparting := down.departing k h _ hh hc
    split
    · refine hdeparting.abort ((down.told k h hh).imp_right fun ⟨_, htold⟩ => ?_)
      exact htold.resolve_right List.not_mem_nil
    · exact hdeparting
  · rw [abortAt_written]
    exact down.streams

/-! ## What stays done -/

/-- What the thread that stops a service waits for or brings about. -/
inductive Milestone where
  /-- The scheduler goes by the stop next. -/
  | signaled
  /-- The scheduler has ended, if there is one. -/
  | halted
  /-- The list of clients is taken. -/
  | taken
  | workersEnded
  /-- Nobody listens to events. -/
  | unheard
  | monitorEnded

def Milestone.Reached (s : Service) : Milestone → Prop
  | signaled => s.scheduler.phase = .selecting → s.stop.isReady = true
  | halted => s.scheduler.phase = .idle ∧ s.workers = [] ∨ s.scheduler.phase = .ended
  | taken => s.monitor.registered = []
  | workersEnded => ∀ w ∈ s.workers, w.phase = .ended
  | unheard => s.events.closed = true
  | monitorEnded => s.monitor.phase = .idle ∨ s.monitor.phase = .ended

/-- A milestone is about neither clients nor tickets. -/
theorem Milestone.Reached.congr {m : Milestone} (reached : m.Reached s)
    (stop : s'.stop = s.stop) (scheduler : s'.scheduler = s.scheduler)
    (workers : s'.workers = s.workers) (monitor : s'.monitor = s.monitor)
    (events : s'.events = s.events) : m.Reached s' := by
  cases m <;> simp only [Milestone.Reached, stop, scheduler, workers, monitor, events] at reached ⊢
    <;> exact reached

theorem WindingDown.reached_heard (down : WindingDown clients untold streams s)
    (heard : Heard s s') {m : Milestone} (reached : m.Reached s) : m.Reached s' := by
  cases heard with
  | left _ hitems | died _ hitems =>
      rw [down.events] at hitems
      contradiction
  | ends =>
      cases m with
      | monitorEnded => exact Or.inr rfl
      | _ => exact reached
  | joins hjoining =>
      cases m with
      | monitorEnded =>
          rcases reached with hidle | hended
          · rw [hjoining] at hidle
            contradiction
          · rw [hjoining] at hended
            contradiction
      | _ => exact reached

theorem WindingDown.reached_dealt (down : WindingDown clients untold streams s)
    (dealt : Dealt s s') {m : Milestone} (reached : m.Reached s) : m.Reached s' := by
  -- A scheduler that has halted takes no step.
  have hgoing {phase : Scheduler.Phase} {P : Prop} (h : s.scheduler.phase = phase)
      (idle : phase ≠ .idle) (ended : phase ≠ .ended) (halted : Milestone.halted.Reached s) :
      P := by
    rcases halted with ⟨hidle, -⟩ | hended
    · exact absurd (h.symm.trans hidle) idle
    · exact absurd (h.symm.trans hended) ended
  cases dealt with
  | stops h | runsDry h =>
      cases m with
      | signaled => exact nofun
      | halted => exact hgoing h nofun nofun reached
      | _ => exact reached
  | takes _ _ hitems =>
      rw [down.inbound] at hitems
      contradiction
  | sends h | refuses h => exact absurd h down.not_sending
  | @closes n w h hw =>
      cases m with
      | signaled => exact nofun
      | halted => exact hgoing h nofun nofun reached
      | workersEnded =>
          intro u hu
          rcases List.mem_or_eq_of_mem_set hu with hu | rfl
          · exact reached u hu
          · exact reached w (List.mem_of_getElem? hw)
      | _ => exact reached
  | ends h =>
      cases m with
      | signaled => exact nofun
      | halted => exact Or.inr rfl
      | _ => exact reached

theorem WindingDown.reached_worked {i : Nat} {w w' : Worker} {cs : List Connection}
    (down : WindingDown clients untold streams s) (hw : s.workers[i]? = some w)
    (step : Worked process s w w' cs told) {m : Milestone} (reached : m.Reached s) :
    m.Reached (s.afterWorker i w' cs told) := by
  obtain ⟨hphase, -, rfl, rfl, rfl⟩ := down.leaves (List.mem_of_getElem? hw) step
  rw [afterWorker_quiet]
  cases m with
  | halted =>
      exact Or.imp_left (fun ⟨hidle, hnone⟩ => ⟨hidle, by rw [hnone]; rfl⟩) reached
  | workersEnded =>
      have hended := reached w (List.mem_of_getElem? hw)
      rw [hphase] at hended
      contradiction
  | _ => exact reached

theorem WindingDown.registered_heard (down : WindingDown clients untold streams s)
    (heard : Heard s s') : s'.monitor.registered = s.monitor.registered := by
  cases heard with
  | left _ hitems =>
      rw [down.events] at hitems
      contradiction
  | died | ends | joins => rfl

/-- **What is done stays done**, and nobody but the stopping thread takes clients off the
list. -/
theorem WindingDown.keeps {thread : Thread} (down : WindingDown clients untold streams s)
    (step : s.act? process (.step thread) = some s') :
    s'.monitor.registered = s.monitor.registered ∧
      ∀ m : Milestone, m.Reached s → m.Reached s' := by
  cases stepped_of_act? step with
  | writer => exact ⟨rfl, fun m reached => reached.congr rfl rfl rfl rfl rfl⟩
  | worker hw hworked =>
      exact ⟨rfl, fun m => down.reached_worked hw hworked⟩
  | handler hh hc hhandled =>
      obtain ⟨-, -, -, rfl⟩ := (down.departing _ _ _ hh hc).handled hhandled
      exact ⟨rfl, fun m reached => reached.congr rfl rfl rfl rfl (Channel.put_nil _)⟩
  | monitor =>
      have hheard := heard_of_act? step
      exact ⟨down.registered_heard hheard, fun m => down.reached_heard hheard⟩
  | scheduler hdealt =>
      refine ⟨?_, fun m => down.reached_dealt hdealt⟩
      cases hdealt <;> rfl

/-- The end of a writer is cheaper than any writer that runs. -/
theorem work_writer_ended (running : c.writer.isRunning = true) :
    ({ c with writer := .ended } : Connection).work < c.work := by
  have hcost : 0 < c.writer.work c.isFull := by
    cases hwriter : c.writer with
    | ready => exact Nat.one_pos
    | writing =>
        rw [Writer.work]
        split <;> omega
    | absent | ended =>
        rw [hwriter] at running
        contradiction
  change 11 * c.inlet.unread.length + 3 * (c.outgoing.length + c.pending.length) + 0 < _
  unfold Connection.work
  omega

/-- **While a service is wound down every step lowers the price** of what is in it. -/
theorem WindingDown.work {thread : Thread} (down : WindingDown clients untold streams s)
    (step : s.act? process (.step thread) = some s') : s'.work < s.work := by
  cases stepped_of_act? step with
  | monitor => exact (heard_of_act? step).work
  | scheduler hdealt => exact hdealt.work
  | @worker i w w' cs told hw hworked =>
      have hcost := hworked.work
      have hsum := work_afterWorker w' told hw hworked.size
      omega
  | @handler i _ h h' c c' tickets told hh hc hhandled =>
      have hcost := hhandled.work
      have hsum := work_afterHandler h' c' tickets told hh hc
      omega
  | @writer k _ c c' hc hwrote =>
      have hlt : k < s.handlers.length := by
        rw [down.paired]
        exact (List.getElem?_eq_some_iff.mp hc).1
      -- Nobody has a frame to write, so the writer can only end.
      obtain rfl := ((down.departing k _ c (List.getElem?_eq_getElem hlt) hc).quiet
        hwrote.running).wrote hwrote
      have hcost := work_writer_ended hwrote.running
      have hsum := total_set hc { c with writer := .ended } Connection.work
      simp only [work, setConnection, serving, List.length_set]
      omega

/-! ## Services that are ready for it -/

/-- A service without clients, be it before or after its pool is started. -/
theorem windingDown_without_clients {inbound : Nat} {scheduler : Scheduler}
    {workers : List Worker}
    (stands : scheduler.phase = .idle ∧ workers = [] ∨ scheduler.phase = .selecting ∧
      ∀ w ∈ workers, w.queue.items = [] ∧ w.phase = .receiving) :
    WindingDown [] [] []
      { inbound := { capacity := inbound }, scheduler := scheduler, workers := workers } where
  stop := rfl
  inbound := rfl
  events := rfl
  workers := by
    intro w hw
    rcases stands with ⟨-, hnone⟩ | ⟨-, hwaiting⟩
    · rw [show workers = [] from hnone] at hw
      contradiction
    · exact (hwaiting w hw).imp_right Or.inl
  scheduler := stands.imp_right fun ⟨hselecting, _⟩ => Or.inl hselecting
  shut := by
    intro i w _ hclosed
    rcases stands with ⟨hphase, -⟩ | ⟨hphase, -⟩ <;> rw [hphase] at hclosed <;> contradiction
  monitor := Or.inl rfl
  paired := rfl
  departing := by
    intro k h c hh
    contradiction
  told := by
    intro k h hh
    contradiction
  streams := rfl

/-- The queue of a worker that has ended is closed. -/
theorem Served.closed_of_ended {w : Worker} {offers done : List Ticket}
    (served : Served process s w offers done) (ended : w.phase = .ended) :
    w.queue.closed = true := by
  cases served with
  | alive _ _ _ _ hshut => exact (hshut ended).2
  | dead _ _ _ _ _ _ _ hshut => exact hshut (Or.inr ended)

/-- A client stands ready when no thread can do anything and its writer does not wait for
room. -/
theorem departing_of_stuck (attends : Attends process k past s h c) (informed : Informed h c)
    (landed : ∀ t, ¬s.InFlight t) (room : s.events.hasRoom = true)
    (hh : s.handlers[k]? = some h) (hc : s.connections[k]? = some c)
    (stuck : s.Stuck process (Thread.isAt k)) (reads : c.isStalled = false) :
    Departing h c := by
  have hwaits := handler_waits hh hc (stuck.handler 0)
  have hwriter := writer_stuck hc (stuck.writer 0)
  -- Who has told how many responses to expect has got them all.
  have hdone (htold : h.phase.hasTold = true) : c.writer.isRunning = false := by
    rw [Bool.eq_false_iff]
    intro hrunning
    obtain ⟨hlive, -, hempty, hmore⟩ :=
      Connection.writer_waits_with_room hrunning reads hwriter
    have hnext := attends.answered_all landed hlive
    simp [Connection.isFinished, hempty, informed.told htold, hnext] at hmore
  cases hphase : h.phase with
  | idle => exact absurd hphase attends.busy.1
  | reading reader =>
      rw [hphase] at hwaits
      obtain ⟨-, hunread, hopen⟩ := hwaits
      have hlive : c.aborted = false := by
        rw [Bool.eq_false_iff]
        intro habort
        rw [informed.cut habort] at hopen
        contradiction
      have hnone : c.expected = none := by
        rcases attends.expected with hnone | ⟨-, why, hpast⟩
        · exact hnone
        · rw [hphase] at hpast
          exact hpast.elim
      have hrunning : c.writer.isRunning = true := by
        cases hstands : c.writer with
        | absent => exact absurd hstands attends.started
        | ready | writing => rfl
        | ended =>
            have hfinished := attends.finished hstands hlive
            simp [Connection.isFinished, hnone] at hfinished
      obtain ⟨-, hready, hempty, -⟩ :=
        Connection.writer_waits_with_room hrunning reads hwriter
      exact .reads hphase ⟨hempty, Or.inl hready⟩ (attends.answered_all landed)
        (Or.inr ⟨hunread, hopen⟩)
  | forwarding =>
      have hempty : s.inbound.items = [] :=
        List.eq_nil_iff_forall_not_mem.mpr fun t ht => landed t (Or.inl ht)
      rw [hphase, Channel.hasRoom, hempty] at hwaits
      simp at hwaits
  | finishing =>
      rw [hphase] at hwaits
      exact hwaits.elim
  | joining =>
      rw [hphase] at hwaits
      rw [hdone (by rw [hphase]; rfl)] at hwaits
      contradiction
  | reporting =>
      rw [hphase, room] at hwaits
      exact absurd hwaits.2.symm Bool.false_ne_true
  | ended => exact .gone hphase (hdone (by rw [hphase]; rfl))

/-- The channel of the stop keeps its size. -/
theorem stop_unbounded {n inbound queue : Nat}
    (run : Run (act? process) (launch n inbound queue) past s)
    (ordinary : ∀ m ∈ past, m.act.isOrdinary = true) : s.stop.capacity = 0 := by
  induction run with
  | start => rw [launch_eq]
  | @snoc past now next act run step ih =>
      have hbefore := ih fun m hm => ordinary m (List.mem_append_left _ hm)
      have hlast := ordinary _ (List.mem_append_right _ (List.mem_singleton_self _))
      cases acted_of_act? step with
      | step hstepped =>
          cases hstepped with
          | scheduler hdealt =>
              cases hdealt with
              | stops => exact (take_capacity now.stop).trans hbefore
              | _ => exact hbefore
          | _ => exact hbefore
      | atClient _ hstop =>
          rw [hstop]
          exact hbefore
      | onChannel hother =>
          rw [show act.isOrdinary = true from hlast] at hother
          contradiction

/-- **Every settled service whose clients read is ready to be wound down**, if only its threads
and its clients have acted. -/
theorem windingDown_of_settled {n inbound queue : Nat} (positive : 0 < n)
    (run : Run (act? process) (launch n inbound queue) past s)
    (ordinary : ∀ m ∈ past, m.act.isOrdinary = true) (settled : s.Settled process)
    (reads : ∀ c ∈ s.connections, c.isStalled = false) :
    WindingDown s.monitor.registered s.monitor.registered (s.connections.map (·.written)) s := by
  have tended := tended_run run ordinary
  have deals := deals_run run
  have hroom := events_unbounded run
  have hlanded (t : Ticket) :=
    not_inFlight_of_stuck (t := t) positive run tended.quiet (settled.stuck _)
  obtain ⟨heard, ledger⟩ := ledger_run run ordinary
  have hselecting := selecting_of_stuck positive run tended.quiet (settled.stuck _)
  refine
    { stop := stop_unbounded run ordinary
      inbound := List.eq_nil_iff_forall_not_mem.mpr fun t ht => hlanded t (Or.inl ht)
      events := ledger.all_heard (settled .monitor)
      workers := ?_
      scheduler := Or.inr (Or.inl hselecting)
      shut := ?_
      monitor := ?_
      paired := tended.quiet.paired
      departing := ?_
      told := ?_
      streams := rfl }
  · intro w hmem
    obtain ⟨i, hw⟩ := List.mem_iff_getElem?.mp hmem
    obtain ⟨hstands, hempty⟩ := (deals.served i w hw).waits hw hroom (settled (.worker i))
    refine ⟨hempty, hstands.imp_right fun hended => ⟨hended, ?_⟩⟩
    exact (deals.served i w hw).closed_of_ended hended
  · intro i w _ hclosed
    rw [hselecting] at hclosed
    contradiction
  · rcases ledger.phase with hreceiving | ⟨client, hjoining, hreported⟩
    · exact Or.inr (Or.inl hreceiving)
    · have hwaits := monitor_waits (settled .monitor)
      rw [hjoining] at hwaits
      have hgoing : s.handlerEnded client = false := hwaits
      rw [ledger.handler_ended hreported] at hgoing
      contradiction
  · intro k h c hh hc
    exact departing_of_stuck (tended.attends k h c hh hc) (informed_run run ordinary hh hc)
      hlanded hroom hh hc (settled.stuck _) (reads c (List.mem_of_getElem? hc))
  · intro k h hh
    by_cases hended : h.phase = .ended
    · exact Or.inl hended
    · have hlisted : k + 1 ∈ s.monitor.registered := by
        rw [ledger.registered, List.mem_filter]
        have hlt := (List.getElem?_eq_some_iff.mp hh).1
        refine ⟨List.mem_range'_1.mpr ⟨by omega, by omega⟩, ?_⟩
        rw [decide_eq_true_eq]
        intro hreported
        have hgone := ledger.handler_ended hreported
        rw [handlerEnded, Nat.add_sub_cancel, hh] at hgone
        exact hended (by simpa using hgone)
      exact Or.inr ⟨hlisted, Or.inr hlisted⟩

end Service

end SearchDaemon
