import SearchDaemon.Proofs.Answering
import SearchDaemon.Proofs.Framing

/-!
# Settling comes to an end

Everything in a service is priced with the steps that it can still cause: a byte with the
reading of it, a ticket with its way through a worker to its connection, a handler with what
it does before and after its client leaves. Every step of a thread lowers the sum, which is
within the bound that `settle` goes by, so `settle` is a run of steps to a state in which no
thread can take one.
-/

namespace SearchDaemon

/-! ## Prices -/

/-- A frame that is begun counts for what reading its last byte can set off. -/
def Handler.Phase.work : Handler.Phase → Nat
  | .reading reader => if reader.isFresh then 6 else 16
  | .forwarding _ => 15
  | .finishing _ => 5
  | .joining _ => 4
  | .reporting => 3
  | .idle | .ended => 0

/-- In the middle of a frame, writing all that is left either ends it or fills the socket. -/
def Writer.work (full : Bool) : Writer → Nat
  | .ready => 1
  | .writing _ => if full then 2 else 3
  | .absent | .ended => 0

def Connection.work (c : Connection) : Nat :=
  11 * c.inlet.unread.length + 3 * (c.outgoing.length + c.pending.length) +
    c.writer.work c.isFull

def Worker.Phase.work : Worker.Phase → Nat
  | .receiving => 3
  | .processing _ => 8
  | .delivering .. | .failing _ => 7
  | .reporting => 5
  | .closing => 2
  | .draining => 1
  | .idle | .ended => 0

def Worker.work (w : Worker) : Nat := 6 * w.queue.items.length + w.phase.work

/-- The price of the scheduler, with so many queues to close. -/
def Scheduler.Phase.work (workers : Nat) : Scheduler.Phase → Nat
  | .selecting => workers + 3
  | .sending .. => workers + 10
  | .closing n => workers - n + 1
  | .idle | .ended => 0

def Monitor.Phase.work : Monitor.Phase → Nat
  | .receiving => 1
  | .joining _ => 2
  | .idle | .ended => 0

namespace Service

/-- The handlers that have a connection. -/
def serving (s : Service) : List Handler := s.handlers.take s.connections.length

def work (s : Service) : Nat :=
  8 * s.inbound.items.length + 2 * s.events.items.length +
    s.scheduler.phase.work s.workers.length + s.monitor.phase.work +
    total (s.workers.map Worker.work) + total (s.connections.map Connection.work) +
    total (s.serving.map (·.phase.work))

variable {process : Processing} {s s' : Service} {journal : Log.Journal}

/-! ## The bound -/

theorem total_map_le_mul {α : Type} {xs : List α} {f g : α → Nat} {k b : Nat}
    (le : ∀ x ∈ xs, f x ≤ k * g x + b) :
    total (xs.map f) ≤ k * total (xs.map g) + b * xs.length := by
  induction xs with
  | nil => simp
  | cons x xs ih =>
      have hx := le x List.mem_cons_self
      have hxs := ih fun y hy => le y (List.mem_cons_of_mem _ hy)
      simp only [List.map_cons, total_cons, List.length_cons, Nat.mul_add, Nat.mul_one]
      omega

theorem work_le_stepBound (s : Service) : s.work ≤ s.stepBound := by
  have hworkers : total (s.workers.map Worker.work) ≤
      6 * total (s.workers.map (·.queue.items.length)) + 8 * s.workers.length := by
    apply total_map_le_mul
    intro w _
    unfold Worker.work
    cases w.phase <;> simp only [Worker.Phase.work] <;> omega
  have hconnections : total (s.connections.map Connection.work) ≤
      11 * total (s.connections.map fun c => c.inlet.unread.length + c.outgoing.length +
        c.pending.length) + 3 * s.connections.length := by
    apply total_map_le_mul
    intro c _
    unfold Connection.work
    cases c.writer <;> simp only [Writer.work] <;> (try split) <;> omega
  have hhandlers : total (s.serving.map (·.phase.work)) ≤
      0 * total (s.serving.map (·.forwarded)) + 16 * s.serving.length := by
    apply total_map_le_mul
    intro h _
    cases h.phase <;> simp only [Handler.Phase.work] <;> (try split) <;> omega
  have hserving : s.serving.length ≤ s.connections.length := by
    rw [serving, List.length_take]
    exact Nat.min_le_left _ _
  have hscheduler : s.scheduler.phase.work s.workers.length ≤ s.workers.length + 10 := by
    cases s.scheduler.phase <;> simp only [Scheduler.Phase.work] <;> omega
  have hmonitor : s.monitor.phase.work ≤ 2 := by
    cases s.monitor.phase <;> simp only [Monitor.Phase.work] <;> omega
  unfold work stepBound
  dsimp only
  omega

/-! ## Connections -/

end Service

namespace Connection

theorem length_insertEarly (k : Nat) (r : Response) (l : List (Nat × Response)) :
    (insertEarly k r l).length = l.length + 1 := by
  induction l with
  | nil => rfl
  | cons p l ih =>
      obtain ⟨j, q⟩ := p
      unfold insertEarly
      split
      · rfl
      · rw [List.length_cons, ih, List.length_cons]

theorem length_inOrder (next : Nat) (l : List (Nat × Response)) :
    (inOrder next l).2.1.length + (inOrder next l).2.2.length = l.length := by
  fun_induction inOrder next l with
  | case1 => rfl
  | case2 _ _ _ _ _ _ h ih =>
      rw [h] at ih
      dsimp only at ih ⊢
      rw [List.length_cons, List.length_cons]
      omega
  | case3 => exact Nat.zero_add _

@[simp] theorem abort_isFull (c : Connection) : c.abort.1.isFull = c.isFull := by
  unfold abort
  split <;> rfl

theorem work_abort (c : Connection) : c.abort.1.work ≤ c.work := by
  unfold abort
  split
  · exact Nat.le_refl _
  · show 11 * c.inlet.unread.length + 3 * (0 + 0) + c.writer.work c.isFull ≤ _
    unfold work
    omega

theorem work_withUnread (c : Connection) (bs : Bytes) :
    (c.withUnread bs).work + 11 * c.inlet.unread.length = c.work + 11 * bs.length := by
  have hfull : (c.withUnread bs).isFull = c.isFull := rfl
  unfold work
  rw [hfull]
  simp only [withUnread]
  omega

/-- A response that is taken waits in one place or the other. -/
theorem work_deliver (c : Connection) (sequence : Nat) (r : Response) :
    (c.deliver sequence r).2.1.work ≤ c.work + 3 := by
  by_cases hrefused : c.aborted = true ∨ c.isAnswered sequence = true
  · rw [(deliver_refused hrefused).2]
    exact Nat.le_add_right _ _
  · rw [not_or, Bool.not_eq_true, Bool.not_eq_true] at hrefused
    rw [deliver_taken hrefused.1 hrefused.2]
    have hmoved := length_inOrder c.next (insertEarly sequence r c.pending)
    rw [length_insertEarly] at hmoved
    have hfull : (c.taking sequence r).isFull = c.isFull := rfl
    unfold work
    rw [hfull]
    simp only [taking, List.length_append]
    omega

/-- The bytes written fill the socket, if it does not take all that is left of the frame. -/
theorem full_of_allowance {c : Connection} {rest : Bytes} (room : c.hasRoom = true)
    (more : c.allowance (rest.length + 1) < rest.length) :
    ∃ capacity, c.capacity = some capacity ∧
      c.unseen.length + c.allowance (rest.length + 1) = capacity + 1 := by
  unfold allowance at more ⊢
  cases hcapacity : c.capacity with
  | none =>
      simp only [hcapacity] at more
      omega
  | some capacity =>
      simp only [hasRoom, hcapacity, Option.all_some, decide_eq_true_eq] at room
      simp only [hcapacity] at more
      refine ⟨capacity, rfl, ?_⟩
      dsimp only
      omega

/-- A writer that may write all it has begun ends its frame or fills the socket. -/
theorem work_writePiece {c : Connection} {rest : Bytes} (room : c.hasRoom = true)
    (there : c.clientGone = false) :
    let c' := c.writePiece (c.allowance (rest.length + 1)) rest
    c'.writer.work c'.isFull < 3 := by
  intro c'
  by_cases hall : rest.drop (c.allowance (rest.length + 1)) = []
  · have hready : c'.writer = .ready := by simp [c', writePiece, hall]
    rw [hready]
    exact Nat.lt_of_sub_eq_succ rfl
  · have hmore : c.allowance (rest.length + 1) < rest.length := by
      rw [List.drop_eq_nil_iff, Nat.not_le] at hall
      exact hall
    obtain ⟨capacity, hcapacity, hfilled⟩ := full_of_allowance room hmore
    have hfull : c'.isFull = true := by
      have hlength : c'.unseen.length = capacity + 1 := by
        simp [c', writePiece, hall, List.length_take, Nat.min_eq_left (Nat.le_of_lt hmore), hfilled]
      have hsame : c'.capacity = some capacity ∧ c'.clientGone = false := by
        simp [c', writePiece, hall, hcapacity, there]
      simp [isFull, hasRoom, hsame, hlength]
    rw [hfull]
    cases c'.writer <;> simp [Writer.work]

theorem work_writerStep? {c c' : Connection} {journal : Log.Journal}
    (step : c.writerStep? c.writer.left.length = some (c', journal)) : c'.work < c.work := by
  cases hwriter : c.writer with
  | absent | ended => simp [writerStep?, hwriter] at step
  | ready =>
      cases wrote_of_writerStep? step with
      | cutOff =>
          simp only [work, hwriter, Writer.work]
          omega
      | begins _ _ houtgoing =>
          simp only [work, hwriter, houtgoing, Writer.work, List.length_cons]
          split <;> omega
      | done =>
          simp only [work, hwriter, Writer.work]
          omega
      | fails _ hwriting | completes _ hwriting | writes _ hwriting =>
          rw [hwriter] at hwriting
          contradiction
  | writing rest =>
      have hbusy : 2 ≤ c.writer.work c.isFull := by
        rw [hwriter, Writer.work]
        split <;> omega
      rw [writerStep?_writing hwriter] at step
      split at step
      · cases step
        change _ + Writer.work _ .ended < _ + c.writer.work c.isFull
        rw [show Writer.work _ .ended = 0 from rfl]
        dsimp only
        omega
      · split at step
        · cases step
          have habort := work_abort c
          have hcut : Connection.work { c.abort.1 with writer := .ended } + c.writer.work c.isFull =
              c.abort.1.work := by
            rw [work, work, abort_writer, abort_isFull]
            rfl
          omega
        · rename_i hthere
          rw [Bool.not_eq_true] at hthere
          split at step
          · rename_i hroom
            cases step
            have hcost := @work_writePiece c rest hroom hthere
            have hthree : c.writer.work c.isFull = 3 := by
              rw [hwriter, isFull, hthere, hroom]
              rfl
            have hsame : (c.writePiece (c.allowance (rest.length + 1)) rest).inlet = c.inlet ∧
                (c.writePiece (c.allowance (rest.length + 1)) rest).outgoing = c.outgoing ∧
                (c.writePiece (c.allowance (rest.length + 1)) rest).pending = c.pending := by
              unfold writePiece
              dsimp only
              split <;> exact ⟨rfl, rfl, rfl⟩
            simp only [hwriter, Writer.left, work, hsame] at hcost ⊢
            rw [hwriter] at hthree
            omega
          · contradiction

end Connection

namespace Service

variable {process : Processing} {s s' : Service} {journal : Log.Journal}

theorem work_abortAt (position : Option Nat) (cs : List Connection) :
    total ((abortAt position cs).map Connection.work) ≤ total (cs.map Connection.work) := by
  cases position with
  | none => exact Nat.le_refl _
  | some k =>
      cases hc : cs[k]? with
      | none =>
          simp [abortAt, List.modify_eq_self (List.getElem?_eq_none_iff.mp hc)]
      | some c =>
          have hsum := total_set hc c.abort.1 Connection.work
          have habort := c.work_abort
          rw [abortAt, ← set_eq_modify (fun c => c.abort.1) hc]
          omega

theorem work_deliverAt (position : Option Nat) (sequence : Nat) (r : Response)
    (cs : List Connection) :
    total ((deliverAt position sequence r cs).map Connection.work) ≤
      total (cs.map Connection.work) + 3 := by
  cases position with
  | none => exact Nat.le_add_right _ _
  | some k =>
      cases hc : cs[k]? with
      | none =>
          rw [deliverAt, List.modify_eq_self (List.getElem?_eq_none_iff.mp hc)]
          exact Nat.le_add_right _ _
      | some c =>
          have hsum := total_set hc (c.deliver sequence r).2.1 Connection.work
          have hdeliver := c.work_deliver sequence r
          rw [deliverAt, ← set_eq_modify (fun c => (c.deliver sequence r).2.1) hc]
          omega

/-! ## Every step costs -/

theorem Heard.work (heard : Heard s s') : s'.work < s.work := by
  cases heard with
  | @left client requests rest hphase hitems =>
      have hjoining : Monitor.Phase.work
          (if client ∈ s.monitor.registered then .joining client else .receiving) ≤ 2 := by
        split
        · exact Nat.le_refl 2
        · exact Nat.le_succ 1
      simp only [Service.work, hphase, hitems, Monitor.Phase.work, List.length_cons, serving]
        at hjoining ⊢
      omega
  | died hphase hitems =>
      simp only [Service.work, hphase, hitems, Monitor.Phase.work, List.length_cons, serving]
      omega
  | ends hphase =>
      simp only [Service.work, hphase, Monitor.Phase.work, serving]
      omega
  | joins hphase =>
      simp only [Service.work, hphase, Monitor.Phase.work, serving]
      omega

theorem Dealt.work (dealt : Dealt s s') : s'.work < s.work := by
  cases dealt with
  | stops hphase | runsDry hphase | ends hphase =>
      simp only [Service.work, hphase, Scheduler.Phase.work, serving]
      omega
  | takes hphase _ hitems =>
      simp only [Service.work, hphase, hitems, Scheduler.Phase.work, serving, List.length_cons]
      omega
  | @sends n t w hphase hw =>
      have hsum := total_set hw { w with queue := { w.queue with items := w.queue.items ++ [t] } }
        Worker.work
      simp only [Service.work, hphase, Scheduler.Phase.work, serving, List.length_set,
        Worker.work, List.length_append, List.length_singleton] at hsum ⊢
      omega
  | @refuses n t w hphase hw =>
      have habort := work_abortAt t.connection s.connections
      simp only [Service.work, hphase, Scheduler.Phase.work, serving, length_abortAt]
      omega
  | @closes n w hphase hw =>
      have hlt := (List.getElem?_eq_some_iff.mp hw).1
      have hsum := total_set hw { w with queue := w.queue.close } Worker.work
      simp only [Service.work, hphase, Scheduler.Phase.work, serving, List.length_set,
        Worker.work, Channel.close] at hsum ⊢
      omega

theorem Worked.work {w w' : Worker} {cs : List Connection} {told : List Event}
    (worked : Worked process s w w' cs told) :
    total (cs.map Connection.work) + w'.work + 2 * told.length <
      total (s.connections.map Connection.work) + w.work := by
  cases worked with
  | takes hphase hitems =>
      simp only [Worker.work, hphase, hitems, Worker.Phase.work, List.length_cons, List.length_nil]
      omega
  | @delivers t r hphase =>
      have hdeliver := work_deliverAt t.connection t.sequence r s.connections
      simp only [Worker.work, hphase, Worker.Phase.work, List.length_nil]
      omega
  | @cutsOff t hphase =>
      have habort := work_abortAt t.connection s.connections
      simp only [Worker.work, hphase, Worker.Phase.work, List.length_nil]
      omega
  | @drains t rest hphase hitems =>
      have habort := work_abortAt t.connection s.connections
      simp only [Worker.work, hphase, hitems, Worker.Phase.work, List.length_cons, List.length_nil]
      omega
  | leaves hphase | answers hphase | faults hphase | reports hphase | unheard hphase
  | closes hphase | ends hphase =>
      simp only [Worker.work, hphase, Worker.Phase.work, List.length_cons, List.length_nil,
        Channel.close]
      omega

theorem work_afterWorker {i : Nat} {w : Worker} {cs : List Connection} (w' : Worker)
    (told : List Event) (hw : s.workers[i]? = some w) (size : cs.length = s.connections.length) :
    (s.afterWorker i w' cs told).work + w.work + total (s.connections.map Connection.work) =
      s.work + w'.work + 2 * told.length + total (cs.map Connection.work) := by
  have hsum := total_set hw w' Worker.work
  simp only [work, afterWorker, serving, Channel.put, List.length_append, List.length_set, size]
  omega

theorem Worked.size {w w' : Worker} {cs : List Connection} {told : List Event}
    (worked : Worked process s w w' cs told) : cs.length = s.connections.length := by
  cases worked with
  | delivers => exact length_deliverAt
  | cutsOff | drains => exact length_abortAt
  | _ => rfl

/-- A reader that has begun no frame finds none within fewer bytes than a length takes. -/
theorem take_start_frame {piece body rest : Bytes}
    (h : Frame.Reader.start.take piece = .frame body rest) :
    rest.length + Frame.lengthSize ≤ piece.length := by
  simp only [Frame.Reader.start, Frame.Reader.take] at h
  split at h
  · contradiction
  · rename_i hlong
    split at h
    · contradiction
    · have hrest := (Frame.takeBody_suffix h).length_le
      simp [Frame.lengthSize] at hlong hrest ⊢
      omega

theorem work_reading (reader : Frame.Reader) : 6 ≤ (Handler.Phase.reading reader).work ∧
    (Handler.Phase.reading reader).work ≤ 16 := by
  simp only [Handler.Phase.work]
  split <;> omega

theorem work_reading_begun {reader : Frame.Reader} (begun : reader ≠ Frame.Reader.start) :
    (Handler.Phase.reading reader).work = 16 := if_neg (by simpa [Frame.Reader.isFresh] using begun)

/-- Cutting off a client whose frame is refused costs no more than reading it would have. -/
theorem work_refused {c : Connection} {piece later rest : Bytes}
    (unread : c.inlet.unread = piece ++ later) (suffix : rest <:+ piece) :
    (c.withUnread (rest ++ later)).abort.1.work ≤ c.work := by
  have habort := (c.withUnread (rest ++ later)).work_abort
  have hread := c.work_withUnread (rest ++ later)
  have hrest := suffix.length_le
  rw [unread, List.length_append, List.length_append] at hread
  omega

theorem Handled.work {i : Nat} {h h' : Handler} {c c' : Connection} {tickets : List Ticket}
    {told : List Event} (handled : Handled s i h c h' c' tickets told) :
    8 * tickets.length + 2 * told.length + c'.work + h'.phase.work < c.work + h.phase.work := by
  cases handled with
  | @readsOn reader reader' piece later hphase _ hunread _ hsome =>
      have hpiece := List.length_pos_of_ne_nil hsome
      have hbefore := work_reading reader
      have hafter := work_reading reader'
      have hread := c.work_withUnread later
      rw [hunread, List.length_append] at hread
      simp only [hphase, List.length_nil]
      omega
  | @finds reader piece later body rest request hphase _ hunread htake =>
      have hrest := (Frame.take_frame_suffix htake).length_le
      have hbefore := work_reading reader
      have hforwarding : (Handler.Phase.forwarding request).work = 15 := rfl
      have hread := c.work_withUnread (rest ++ later)
      rw [hunread, List.length_append, List.length_append] at hread
      simp only [hphase, List.length_nil, hforwarding]
      by_cases hfresh : reader = Frame.Reader.start
      · subst hfresh
        have hlong := take_start_frame htake
        rw [Frame.lengthSize] at hlong
        omega
      · rw [work_reading_begun hfresh]
        omega
  | @rejects reader piece later body rest e hphase _ hunread htake =>
      have hcut := work_refused hunread (Frame.take_frame_suffix htake)
      have hbefore := work_reading reader
      have hfinishing : (Handler.Phase.finishing .disconnected).work = 5 := rfl
      simp only [hphase, List.length_nil, hfinishing]
      omega
  | @objects reader piece later rest n hphase _ hunread htake =>
      have hcut := work_refused hunread (Frame.take_invalid_suffix htake)
      have hbefore := work_reading reader
      have hfinishing : (Handler.Phase.finishing .disconnected).work = 5 := rfl
      simp only [hphase, List.length_nil, hfinishing]
      omega
  | @stops reader hphase | @runsDry reader hphase =>
      have hbefore := work_reading reader
      have hfinishing (why : Handler.Ending) : (Handler.Phase.finishing why).work = 5 := rfl
      have hsame : ({ c with inlet := { c.inlet with reset := false } } : Connection).work =
        c.work := rfl
      simp only [hphase, List.length_nil, hfinishing, hsame]
      omega
  | @forwards request hphase =>
      have hforwarding : (Handler.Phase.forwarding request).work = 15 := rfl
      have hstart : (Handler.Phase.reading Frame.Reader.start).work = 6 := rfl
      simp only [hphase, hforwarding, hstart, List.length_singleton, List.length_nil]
      omega
  | turnedAway hphase | finishes hphase | leaves hphase | joins hphase | reports hphase
  | unheard hphase =>
      have hsame : (c.finish h.forwarded).work = c.work := rfl
      simp only [hphase, Handler.Phase.work, List.length_nil, List.length_singleton, hsame]
      omega

theorem work_afterHandler {i : Nat} {h : Handler} {c : Connection} (h' : Handler)
    (c' : Connection) (tickets : List Ticket) (told : List Event)
    (hh : s.handlers[i]? = some h) (hc : s.connections[i]? = some c) :
    (s.afterHandler i h' c' tickets told).work + c.work + h.phase.work =
      s.work + 8 * tickets.length + 2 * told.length + c'.work + h'.phase.work := by
  have hlt := (List.getElem?_eq_some_iff.mp hc).1
  have hserving : s.serving[i]? = some h := by
    rw [serving, List.getElem?_take, if_pos hlt, hh]
  have hconnections := total_set hc c' Connection.work
  have hhandlers := total_set hserving h' (·.phase.work)
  rw [serving] at hhandlers
  simp only [work, afterHandler, serving, Channel.put, List.length_append, List.length_set,
    List.take_set]
  omega

/-- **Every step lowers the price** of what is in a service, if a writer that takes it may
write all it has begun. -/
theorem work_step? {thread : Thread} (step : s.step? process thread = some (s', journal))
    (listed : thread ∈ s.threads) : s'.work < s.work := by
  cases thread with
  | monitor => exact (heard_of_monitorStep? step).work
  | scheduler => exact (dealt_of_schedulerStep? step).work
  | worker i =>
      obtain ⟨w, w', cs, told, hw, hworked, rfl⟩ := worked_of_workerStep? step
      have hcost := hworked.work
      have hsum := work_afterWorker w' told hw hworked.size
      omega
  | handler i budget =>
      obtain ⟨h, c, h', c', tickets, told, hh, hc, hhandled, rfl⟩ := handled_of_handlerStep? step
      have hcost := hhandled.work
      have hsum := work_afterHandler h' c' tickets told hh hc
      omega
  | writer i budget =>
      simp only [step?, writerStep?, Option.bind_eq_bind, Option.bind_eq_some_iff] at step
      obtain ⟨c, hc, ⟨c', lines⟩, hwrite, hafter⟩ := step
      cases hafter
      -- A writer that may write nothing would not lower the price.
      have hbudget : budget = c.writer.left.length := by
        have hlisted : i < s.connections.length ∧ budget = c.writer.left.length := by
          simp only [threads, List.cons_append, List.mem_cons, List.mem_append, List.mem_map]
            at listed
          simpa [hc, eq_comm] using listed
        exact hlisted.2
      subst hbudget
      have hcost := Connection.work_writerStep? hwrite
      have hsum := total_set hc c' Connection.work
      simp only [work, setConnection, serving, List.length_set]
      omega

/-! ## Settling -/

/-- A step of one of the threads. -/
def Act.isStep : Act → Bool
  | .step _ => true
  | _ => false

theorem settleWithin_run {steps : Nat} (enough : s.work ≤ steps) :
    ∃ past, Run (act? process) s past (settleWithin process steps s journal).1 ∧
      (∀ m ∈ past, m.act.isStep = true) ∧
      (settleWithin process steps s journal).1.Settled process := by
  induction steps generalizing s journal with
  | zero =>
      rw [settleWithin]
      refine ⟨[], .start, fun _ hm => absurd hm List.not_mem_nil, settled_of_threads ?_⟩
      intro thread hthread
      by_contra hgoes
      obtain ⟨⟨s', lines⟩, hstep⟩ := Option.ne_none_iff_exists'.mp hgoes
      have hless := work_step? hstep hthread
      exact absurd (Nat.lt_of_lt_of_le hless enough) (Nat.not_lt_zero _)
  | succ steps ih =>
      rw [settleWithin]
      cases hnext : s.threads.findSome? (s.step? process) with
      | none =>
          rw [List.findSome?_eq_none_iff] at hnext
          exact ⟨[], .start, fun _ hm => absurd hm List.not_mem_nil, settled_of_threads hnext⟩
      | some after =>
          obtain ⟨s', lines⟩ := after
          obtain ⟨thread, hthread, hstep⟩ := List.exists_of_findSome?_eq_some hnext
          -- Each step costs one of those allowed and lowers the price by one at least.
          have hless := work_step? hstep hthread
          have hfew : s'.work ≤ steps := by omega
          obtain ⟨past, hrun, hsteps, hsettled⟩ := @ih _ (journal ++ lines) hfew
          have hact : act? process s (.step thread) = some s' := by
            rw [act?, hstep]
            rfl
          refine ⟨⟨s, .step thread, s'⟩ :: past, (Run.start.snoc hact).append hrun, ?_, hsettled⟩
          intro m hm
          rcases List.mem_cons.mp hm with rfl | hm
          · rfl
          · exact hsteps m hm

/-- **Settling comes to an end**: it is a run of steps of the threads to a state in which no
thread can take a step. -/
theorem settle_run (process : Processing) (s : Service) :
    ∃ past, Run (act? process) s past (s.settle process).1 ∧ (∀ m ∈ past, m.act.isStep = true) ∧
      (s.settle process).1.Settled process :=
  settleWithin_run s.work_le_stepBound

end Service

end SearchDaemon
