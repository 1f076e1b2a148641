import SearchDaemon.Proofs.Answering

/-!
# Responses that are owed

A handler that has stopped reading tells its connection how many responses there will be
and waits for the connection's writer, whatever order they come in and whether they come
before it or after. `Spells` takes the bytes written apart into the frames of the responses
accepted, and `Flushed` is what the writer's end says about them.
-/

namespace SearchDaemon

namespace Connection

/-! ## The bytes written, frame by frame -/

variable {c c' : Connection} {answer answer' : Nat → Option Response} {arrived : Bytes}
  {sent : Nat → Response → Prop}

/-- The bodies handed to the writer so far are those whose frames are written, then the one
whose frame it is in the middle of, if any, then those that wait. -/
structure Spells (answer : Nat → Option Response) (c : Connection) (done current : List Bytes)
    (begun : Bytes) : Prop where
  handed : bodies answer c.next = done ++ current ++ c.outgoing
  sent : done.length = c.sent
  underway : current.length = c.writer.underway
  written : c.written = done.flatMap Frame.encode ++ begun
  left : begun ++ c.writer.left = current.flatMap Frame.encode

/-- What a live connection has written are frames of its answers. -/
def InFrames (answer : Nat → Option Response) (c : Connection) : Prop :=
  c.aborted = false → ∃ done current begun, Spells answer c done current begun

/-- The writer ends on a live connection when all responses expected are written. -/
def Flushed (c : Connection) : Prop :=
  c.writer = .ended → c.aborted = false → ∃ n, c.expected = some n ∧ n ≤ c.sent

theorem inFrames_fresh (answer : Nat → Option Response) (client : Nat)
    (capacity : Option Nat) : InFrames answer { client, capacity } :=
  fun _ => ⟨[], [], [], rfl, rfl, rfl, rfl, rfl⟩

theorem InFrames.mono (h : InFrames answer c) (follows : Follows answer c)
    (more : ∀ i r, answer i = some r → answer' i = some r) : InFrames answer' c := by
  intro live
  obtain ⟨done, current, begun, spells⟩ := h live
  refine ⟨done, current, begun, ?_, spells.sent, spells.underway, spells.written, spells.left⟩
  rw [← spells.handed]
  apply bodies_congr
  intro i hi
  obtain ⟨r, hr⟩ := follows.passed i hi
  rw [hr, more i r hr]

/-- An aborted connection owes nothing. -/
theorem inFrames_of_aborted (habort : c.aborted = true) : InFrames answer c := by
  intro live
  rw [habort] at live
  contradiction

/-- Only what the writer and the deliveries work on counts. -/
theorem InFrames.same (h : InFrames answer c) (next : c'.next = c.next)
    (outgoing : c'.outgoing = c.outgoing) (sent : c'.sent = c.sent)
    (underway : c'.writer.underway = c.writer.underway) (left : c'.writer.left = c.writer.left)
    (written : c'.written = c.written) (aborted : c'.aborted = c.aborted) :
    InFrames answer c' := by
  intro live
  obtain ⟨done, current, begun, spells⟩ := h (aborted ▸ live)
  refine ⟨done, current, begun, ?_, ?_, ?_, ?_, ?_⟩
  · rw [next, outgoing, spells.handed]
  · rw [sent, spells.sent]
  · rw [underway, spells.underway]
  · rw [written, spells.written]
  · rw [left, spells.left]

theorem InFrames.startWriter (h : InFrames answer c) : InFrames answer c.startWriter := by
  unfold Connection.startWriter
  split
  · exact h
  · rename_i hidle
    refine h.same rfl rfl rfl ?_ ?_ rfl rfl <;>
      cases hw : c.writer <;> simp [hw, Writer.isRunning, Writer.underway, Writer.left] at hidle ⊢

theorem InFrames.taking (h : InFrames answer c) (follows : Follows answer c) {sequence : Nat}
    {r : Response} (right : answer sequence = some r) :
    InFrames answer (c.taking sequence r) := by
  intro live
  obtain ⟨done, current, begun, spells⟩ := h live
  have hright : ∀ p ∈ insertEarly sequence r c.pending, answer p.1 = some p.2 := by
    intro p hp
    rcases mem_insertEarly.mp hp with rfl | hp
    · exact right
    · exact follows.waiting p hp
  refine ⟨done, current, begun, ?_, spells.sent, spells.underway, spells.written, spells.left⟩
  rw [Connection.taking]
  dsimp only
  rw [bodies_inOrder c.next hright, spells.handed, List.append_assoc _ c.outgoing]

theorem InFrames.deliver (h : InFrames answer c) (follows : Follows answer c) {sequence : Nat}
    {r : Response} (right : answer sequence = some r) :
    InFrames answer (c.deliver sequence r).2.1 := by
  rcases c.deliver_cases sequence r with hsame | ⟨-, -, htaken⟩
  · rw [hsame]
    exact h
  · rw [htaken]
    exact h.taking follows right

theorem InFrames.wrote (h : InFrames answer c) (step : Wrote c c') : InFrames answer c' := by
  cases step with
  | cutOff habort => exact inFrames_of_aborted habort
  | @begins body rest hlive hready houtgoing =>
      intro _
      obtain ⟨done, current, begun, spells⟩ := h hlive
      -- The writer is between two frames.
      have hnone : current = [] := by
        have hlength := spells.underway
        rw [hready] at hlength
        exact List.length_eq_zero_iff.mp hlength
      have hbegun : begun = [] := by
        have hleft := spells.left
        rw [hready, hnone] at hleft
        exact (List.append_eq_nil_iff.mp hleft).1
      subst hnone hbegun
      refine ⟨done, [body], [], ?_, spells.sent, rfl, spells.written, ?_⟩
      · rw [spells.handed, houtgoing, List.append_nil, List.append_assoc]
        rfl
      · simp [Writer.left]
  | done hlive hready =>
      refine h.same rfl rfl rfl ?_ ?_ rfl rfl
      · rw [hready]
        rfl
      · rw [hready]
        rfl
  | fails => exact inFrames_of_aborted (abort_aborted c)
  | @completes rest hlive hwriting =>
      intro _
      obtain ⟨done, current, begun, spells⟩ := h hlive
      have hleft := spells.left
      have hone := spells.underway
      rw [hwriting] at hleft hone
      refine ⟨done ++ current, [], [], ?_, ?_, rfl, ?_, rfl⟩
      · rw [spells.handed, List.append_nil]
      · rw [List.length_append, spells.sent, hone]
        rfl
      · rw [spells.written, List.append_assoc, List.flatMap_append, List.append_nil, ← hleft]
        rfl
  | @writes now later hlive hwriting =>
      intro _
      obtain ⟨done, current, begun, spells⟩ := h hlive
      have hleft := spells.left
      have hone := spells.underway
      rw [hwriting] at hleft hone
      refine ⟨done, current, begun ++ now, spells.handed, spells.sent, hone, ?_, ?_⟩
      · rw [spells.written, List.append_assoc]
      · rw [← hleft, List.append_assoc]
        rfl

theorem InFrames.touched (h : InFrames answer c) (follows : Follows answer c)
    (touch : c.Touched sent arrived c') (right : ∀ i r, sent i r → answer i = some r) :
    InFrames answer c' := by
  cases touch with
  | starts => exact h.startWriter
  | wrote hwrote => exact h.wrote hwrote
  | answered hsent => exact h.deliver follows (right _ _ hsent)
  | cutOff => exact inFrames_of_aborted (abort_aborted c)
  | closes =>
      unfold clientCloses
      split
      · exact h
      · exact h.same rfl rfl rfl rfl rfl rfl rfl
  | _ => exact h.same rfl rfl rfl rfl rfl rfl rfl

/-- Nothing written is taken back. -/
theorem Touched.sent_le (touch : c.Touched sent arrived c') : c.sent ≤ c'.sent := by
  cases touch with
  | starts =>
      unfold startWriter
      split <;> exact Nat.le_refl _
  | wrote hwrote =>
      cases hwrote with
      | completes => exact Nat.le_succ _
      | fails => exact Nat.le_of_eq (abort_sent c).symm
      | _ => exact Nat.le_refl _
  | @answered sequence r _ =>
      rcases c.deliver_cases sequence r with hsame | ⟨-, -, htaken⟩
      · rw [hsame]
      · rw [htaken]
        exact Nat.le_refl _
  | cutOff => exact Nat.le_of_eq (abort_sent c).symm
  | closes =>
      unfold clientCloses
      split <;> exact Nat.le_refl _
  | _ => exact Nat.le_refl _

theorem Flushed.touched (flushed : c.Flushed) (orderly : c.Orderly)
    (touch : c.Touched sent arrived c') : c'.Flushed := by
  have habort {c' : Connection} (h : c'.aborted = true) : c'.Flushed := by
    intro _ live
    rw [h] at live
    contradiction
  cases touch with
  | starts =>
      intro hended
      unfold startWriter at hended
      split at hended
      · rename_i hrunning
        rw [hended] at hrunning
        contradiction
      · contradiction
  | wrote hwrote =>
      cases hwrote with
      | cutOff haborted => exact habort haborted
      | fails => exact habort (abort_aborted c)
      | done hlive hready hfinished =>
          -- Every number passed is written, as nothing waits and no frame is begun.
          intro _ _
          simp only [isFinished, Bool.and_eq_true, List.isEmpty_iff, Option.any_eq_true,
            decide_eq_true_eq] at hfinished
          obtain ⟨hnone, n, hexpected, hle⟩ := hfinished
          have hcount := orderly.counted hlive
          rw [hready, hnone] at hcount
          exact ⟨n, hexpected, hcount.symm ▸ hle⟩
      | begins | completes | writes =>
          intro hended
          contradiction
  | @answered sequence r _ =>
      rcases c.deliver_cases sequence r with hsame | ⟨-, -, htaken⟩
      · rw [hsame]
        exact flushed
      · rw [htaken]
        exact flushed
  | cutOff => exact habort (abort_aborted c)
  | closes =>
      unfold clientCloses
      split <;> exact flushed
  | _ => exact flushed

/-! ## The responses accepted -/

/-- As many frames as are counted have been written, those of the first answers. -/
theorem InFrames.first_frames (h : InFrames answer c) (orderly : Orderly c)
    (follows : Follows answer c) (live : c.aborted = false) {n : Nat} (le : n ≤ c.sent) :
    ((List.range n).filterMap answer).flatMap Response.frame <+: c.written := by
  obtain ⟨done, current, begun, spells⟩ := h live
  have hnext : n ≤ c.next := by
    have hcount := orderly.counted live
    omega
  have hfirst : ((List.range n).filterMap answer).map Response.body = done.take n := by
    rw [← bodies_take hnext follows.passed, spells.handed, List.append_assoc]
    apply List.take_append_of_le_length
    rw [spells.sent]
    exact le
  have hframes : ((List.range n).filterMap answer).flatMap Response.frame =
      (done.take n).flatMap Frame.encode := by
    rw [← hfirst, List.flatMap_map]
    rfl
  have hdone : done.flatMap Frame.encode =
      (done.take n).flatMap Frame.encode ++ (done.drop n).flatMap Frame.encode := by
    rw [← List.flatMap_append, List.take_append_drop]
  rw [hframes, spells.written, hdone, List.append_assoc]
  exact List.prefix_append _ _

/-- What a connection makes of the responses it has accepted. -/
structure Keeps (accepted : List (Nat × Response)) (c : Connection) : Prop where
  orderly : c.Orderly
  follows : c.Follows fun i => accepted.lookup i
  answered : c.aborted = false → ∀ p ∈ accepted, c.isAnswered p.1 = true
  inFrames : c.InFrames fun i => accepted.lookup i
  flushed : c.Flushed

variable {accepted : List (Nat × Response)}

theorem keeps_fresh (client : Nat) (capacity : Option Nat) :
    Keeps [] { client, capacity } where
  orderly := orderly_fresh client capacity
  follows := follows_fresh _ client capacity
  answered := fun _ _ h => absurd h List.not_mem_nil
  inFrames := inFrames_fresh _ client capacity
  flushed := nofun

/-- A delivery that is accepted. -/
theorem Keeps.taking (keeps : Keeps accepted c) {sequence : Nat} {r : Response}
    (live : c.aborted = false) (new : c.isAnswered sequence = false) :
    Keeps (accepted ++ [(sequence, r)]) (c.taking sequence r) := by
  have hmore (i : Nat) (q : Response) (hq : accepted.lookup i = some q) :
      (accepted ++ [(sequence, r)]).lookup i = some q := lookup_snoc_of_some hq
  have hright : (accepted ++ [(sequence, r)]).lookup sequence = some r := by
    apply lookup_snoc_new
    -- A number accepted before is answered.
    rintro p hp rfl
    rw [keeps.answered live p hp] at new
    contradiction
  have hfollows := keeps.follows.mono hmore
  have hinFrames := keeps.inFrames.mono keeps.follows hmore
  refine ⟨keeps.orderly.taking live new, hfollows.taking hright, ?_,
    hinFrames.taking hfollows hright, keeps.flushed⟩
  intro _ p hp
  rw [isAnswered_taking]
  rcases List.mem_append.mp hp with hp | hp
  · exact Or.inl (keeps.answered live p hp)
  · exact Or.inr (congrArg Prod.fst (List.mem_singleton.mp hp))

/-- A delivery that is refused changes nothing. -/
theorem Touched.refused (touch : c.Touched sent arrived c')
    (refused : ∀ i r, sent i r → (c.deliver i r).1 = false) :
    c.Touched (fun _ _ => False) arrived c' := by
  cases touch with
  | @answered sequence r hsent =>
      rcases c.deliver_cases sequence r with hsame | ⟨hlive, hnew, -⟩
      · rw [hsame]
        exact .kept
      · have htaken : (c.deliver sequence r).1 = true := deliver_accepts_iff.mpr ⟨hlive, hnew⟩
        rw [refused sequence r hsent] at htaken
        contradiction
  | kept => exact .kept
  | starts => exact .starts
  | wrote hwrote => exact .wrote hwrote
  | cutOff => exact .cutOff
  | receives hopen => exact .receives hopen
  | finishes => exact .finishes
  | reads => exact .reads
  | closes => exact .closes

/-- Anything else the outside does. -/
theorem Keeps.touched (keeps : Keeps accepted c)
    (touch : c.Touched (fun _ _ => False) arrived c') : Keeps accepted c' where
  orderly := keeps.orderly.touched touch
  follows := keeps.follows.touched touch fun _ _ => False.elim
  answered := fun live p hp => touch.isAnswered live (keeps.answered (touch.live live) p hp)
  inFrames := keeps.inFrames.touched keeps.follows touch fun _ _ => False.elim
  flushed := keeps.flushed.touched keeps.orderly touch

end Connection

namespace Service

open Connection (Keeps)

/-! ## Deliveries to one client -/

/-- The responses that are delivered to the connection at a position, with their numbers. -/
def deliveredIn (k : Nat) (m : Moment Service Act) : List (Nat × Response) :=
  match m.act with
  | .deliver i sequence r => if i = k then [(sequence, r)] else []
  | .step (.worker i) =>
      match (m.before.workers[i]?).map Worker.phase with
      | some (.delivering t r) => if t.connection = some k then [(t.sequence, r)] else []
      | _ => []
  | _ => []

/-- The responses that the connection at a position accepts. -/
def acceptedIn (k : Nat) (m : Moment Service Act) : List (Nat × Response) :=
  (deliveredIn k m).filter fun p => (m.before.connections[k]?).any fun c => (c.deliver p.1 p.2).1

def acceptedBy (k : Nat) (past : List (Moment Service Act)) : List (Nat × Response) :=
  past.flatMap (acceptedIn k)

/-- The response to the request with a number, once one has been accepted. -/
def answerFor (k : Nat) (past : List (Moment Service Act)) (sequence : Nat) : Option Response :=
  (acceptedBy k past).lookup sequence

variable {process : Processing} {s s' : Service} {act : Act} {past : List (Moment Service Act)}
  {m : Moment Service Act} {k client : Nat} {h h' : Handler} {c c' : Connection}

theorem acceptedBy_snoc : acceptedBy k (past ++ [m]) = acceptedBy k past ++ acceptedIn k m := by
  simp [acceptedBy]

theorem deliveredIn_eq {sequence : Nat} {r : Response} (mailed : s.Mailed k act sequence r) :
    deliveredIn k ⟨s, act, s'⟩ = [(sequence, r)] := by
  rcases mailed with rfl | ⟨i, w, t, rfl, hw, hphase, hposition, rfl⟩
  · simp [deliveredIn]
  · simp [deliveredIn, hw, hphase, hposition]

theorem mailed_of_deliveredIn {p : Nat × Response} (hp : p ∈ deliveredIn k ⟨s, act, s'⟩) :
    s.Mailed k act p.1 p.2 := by
  unfold deliveredIn at hp
  split at hp
  · rename_i i sequence r hact
    obtain ⟨hposition, hone⟩ := List.mem_ite_nil_right.mp hp
    rw [List.mem_singleton.mp hone, ← hposition]
    exact Or.inl hact
  · rename_i i hact
    split at hp
    · rename_i t r hworker
      obtain ⟨w, hw, hphase⟩ := Option.map_eq_some_iff.mp hworker
      obtain ⟨hposition, hone⟩ := List.mem_ite_nil_right.mp hp
      rw [List.mem_singleton.mp hone]
      exact Or.inr ⟨i, w, t, hact, hw, hphase, hposition, rfl⟩
    · contradiction
  · contradiction

theorem connection_delivered {sequence : Nat} {r : Response}
    (mailed : s.Mailed k act sequence r) (step : s.act? process act = some s')
    (hc : s.connections[k]? = some c) :
    s'.connections[k]? = some (c.deliver sequence r).2.1 := by
  rcases mailed with rfl | ⟨i, w, t, rfl, hw, hphase, hposition, rfl⟩
  · cases step
    rw [getElem?_onConnection hc, if_pos rfl]
  · cases stepped_of_act? step with
    | worker hw₀ hworked =>
        cases hw.symm.trans hw₀
        cases hworked with
        | delivers hdelivering =>
            cases hphase.symm.trans hdelivering
            rw [afterWorker, getElem?_deliverAt _ hc, if_pos hposition]
        | _ => simp_all

/-- An act of somebody else keeps what the connection makes of the responses accepted. -/
theorem keeps_other (keeps : c.Keeps (acceptedBy k past)) (others : act.isOfHandler k = false)
    (step : s.act? process act = some s') (hc : s.connections[k]? = some c)
    (hc' : s'.connections[k]? = some c') :
    c'.Keeps (acceptedBy k (past ++ [⟨s, act, s'⟩])) := by
  rw [acceptedBy_snoc]
  by_cases hnone : acceptedIn k ⟨s, act, s'⟩ = []
  · obtain ⟨c'', hc'', touched⟩ := connection_touched others step hc
    cases hc'.symm.trans hc''
    rw [hnone, List.append_nil]
    refine keeps.touched (touched.refused ?_)
    intro sequence r hmailed
    rw [acceptedIn, deliveredIn_eq hmailed, List.filter_eq_nil_iff] at hnone
    simpa [hc] using hnone
  · obtain ⟨p, hp⟩ := List.exists_mem_of_ne_nil _ hnone
    obtain ⟨hdelivered, htaken⟩ := List.mem_filter.mp hp
    have hmailed := mailed_of_deliveredIn hdelivered
    rw [hc, Option.any_some] at htaken
    obtain ⟨hlive, hnew⟩ := Connection.deliver_accepts_iff.mp htaken
    have hone : acceptedIn k ⟨s, act, s'⟩ = [p] := by
      rw [acceptedIn, deliveredIn_eq hmailed]
      simp [hc, htaken]
    have hafter := connection_delivered hmailed step hc
    rw [Connection.deliver_taken hlive hnew] at hafter
    cases hc'.symm.trans hafter
    rw [hone]
    exact keeps.taking hlive hnew

/-! ## What a handler sees to -/

/-- What a handler has seen to for the responses it is owed. -/
structure Settles (k : Nat) (past : List (Moment Service Act)) (h : Handler) (c : Connection) :
    Prop where
  keeps : c.Keeps (acceptedBy k past)
  started : h.phase ≠ .idle → c.writer ≠ .absent
  expected : c.expected = none ∨ c.expected = some h.forwarded ∧ ∃ why, h.phase.IsPast why
  /-- Once the writer has been waited for, a response is written for each request. -/
  flushed : h.phase = .reporting ∨ h.phase = .ended → c.aborted = false → h.forwarded ≤ c.sent

theorem settles_start {capacity : Option Nat} :
    Settles k [] {} { client, capacity } where
  keeps := Connection.keeps_fresh client capacity
  started := fun hbusy => absurd rfl hbusy
  expected := Or.inl rfl
  flushed := fun hphase => hphase.elim nofun nofun

theorem connection_started (step : s.act? process (.start k) = some s')
    (hh : s.handlers[k]? = some h) (hc : s.connections[k]? = some c) :
    s'.connections[k]? = some c.startWriter := by
  obtain ⟨-, hafter⟩ := Option.ite_none_right_eq_some.mp step
  cases hafter
  rw [startHandler, hh, hc]
  exact getElem?_set_here hc

/-- Another act leaves it so. -/
theorem Settles.other (settles : Settles k past h c) (others : act.isOfHandler k = false)
    (step : s.act? process act = some s') (hh : s.handlers[k]? = some h)
    (hc : s.connections[k]? = some c) :
    ∃ h' c', s'.handlers[k]? = some h' ∧ s'.connections[k]? = some c' ∧
      Settles k (past ++ [⟨s, act, s'⟩]) h' c' := by
  obtain ⟨h', hh', nudged⟩ := handler_nudged others step hh hc
  obtain ⟨c', hc', touched⟩ := connection_touched others step hc
  refine ⟨h', c', hh', hc', keeps_other settles.keeps others step hc hc', ?_, ?_, ?_⟩
  · intro hbusy
    cases nudged with
    | starts =>
        cases hc'.symm.trans (connection_started step hh hc)
        exact c.startWriter_started
    | _ => exact touched.writer (settles.started hbusy)
  · rw [touched.expected, nudged.forwarded]
    refine settles.expected.imp_right ?_
    rintro ⟨hexpected, why, hpast⟩
    refine ⟨hexpected, why, ?_⟩
    rw [nudged.phase]
    · exact hpast
    · intro hidle
      rw [hidle] at hpast
      exact hpast
  · intro hphase live
    rw [nudged.forwarded]
    refine Nat.le_trans (settles.flushed ?_ (touched.live live)) touched.sent_le
    cases nudged with
    | starts => exact hphase.elim nofun nofun
    | _ => exact hphase

section Handled

variable {tickets : List Ticket} {told : List Event} {budget : Nat}
  {accepted : List (Nat × Response)}

/-- A handler's own step keeps what its connection makes of the responses. -/
theorem Handled.keeps_accepted (step : Handled s k h c h' c' tickets told)
    (keeps : c.Keeps accepted)
    (expected : c.expected = none ∨ c.expected = some h.forwarded ∧ ∃ why, h.phase.IsPast why) :
    c'.Keeps accepted where
  orderly := (handled_connection step).2.1 keeps.orderly
  follows := step.follows keeps.follows
  answered := by
    intro live p hp
    obtain ⟨-, hkept⟩ := step.keeps
    obtain ⟨hlive, hanswers⟩ := hkept live
    rw [hanswers]
    exact keeps.answered hlive p hp
  inFrames := by
    cases step with
    | rejects | objects => exact Connection.inFrames_of_aborted (Connection.abort_aborted _)
    | _ => exact keeps.inFrames.same rfl rfl rfl rfl rfl rfl rfl
  flushed := by
    cases step with
    | rejects | objects =>
        intro _ live
        rw [Connection.abort_aborted] at live
        contradiction
    | finishes =>
        -- Before reading was over no number was expected, so the writer had not ended.
        intro hended live
        obtain ⟨n, hn, hle⟩ := keeps.flushed hended live
        rcases expected with hnone | ⟨hsome, -⟩
        · rw [hnone] at hn
          contradiction
        · rw [hsome] at hn
          cases hn
          exact ⟨_, rfl, hle⟩
    | _ => exact keeps.flushed

/-- A writer that no longer runs has written what its live connection expects. -/
theorem Settles.written_out (settles : Settles k past h c) {why : Handler.Ending}
    (hphase : h.phase = .joining why) (owes : c.expected = some h.forwarded)
    (stopped : c.writer.isRunning = false) (live : c.aborted = false) :
    h.forwarded ≤ c.sent := by
  have hended : c.writer = .ended := by
    have hstarted : c.writer ≠ .absent := settles.started (by rw [hphase]; exact nofun)
    cases hwriter : c.writer with
    | ended => rfl
    | absent => exact absurd hwriter hstarted
    | ready | writing =>
        rw [hwriter] at stopped
        contradiction
  obtain ⟨n, hn, hle⟩ := settles.keeps.flushed hended live
  rw [owes] at hn
  cases hn
  exact hle

/-- A step of the handler itself. -/
theorem Settles.own (settles : Settles k past h c)
    (owes : (∃ why, h.phase = .joining why) → c.expected = some h.forwarded)
    (step : Handled s k h c h' c' tickets told) :
    Settles k (past ++ [⟨s, .step (.handler k budget), s.afterHandler k h' c' tickets told⟩])
      h' c' where
  keeps := by
    have hnone : acceptedIn k
        ⟨s, .step (.handler k budget), s.afterHandler k h' c' tickets told⟩ = [] := rfl
    rw [acceptedBy_snoc, hnone, List.append_nil]
    exact step.keeps_accepted settles.keeps settles.expected
  started := by
    intro _
    rw [step.keeps.1]
    apply settles.started
    -- An idle handler takes no step.
    cases step <;> simp_all
  expected := step.expected settles.expected
  flushed := by
    intro hphase live
    cases step with
    | leaves hjoining hstopped | joins hjoining hstopped =>
        exact settles.written_out hjoining (owes ⟨_, hjoining⟩) hstopped live
    | reports hreporting | unheard hreporting => exact settles.flushed (Or.inl hreporting) live
    | _ => exact hphase.elim nofun nofun

end Handled

theorem settles_run {s₀ : Service} {capacity : Option Nat} (run : Run (act? process) s₀ past s)
    (hh : s₀.handlers[k]? = some {}) (hc : s₀.connections[k]? = some { client, capacity }) :
    ∃ h c, s.handlers[k]? = some h ∧ s.connections[k]? = some c ∧ Settles k past h c := by
  induction run with
  | start => exact ⟨_, _, hh, hc, settles_start⟩
  | @snoc past now next act run step ih =>
      obtain ⟨h, c, hh', hc', settles⟩ := ih
      by_cases hown : act.isOfHandler k = true
      · obtain ⟨budget, rfl⟩ := Act.eq_of_isOfHandler hown
        obtain ⟨h₁, c₁, requests, hh₁, hc₁, handles⟩ := handles_run run hh hc
        cases hh'.symm.trans hh₁
        cases hc'.symm.trans hc₁
        cases stepped_of_act? step with
        | handler hh₀ hc₀ hhandled =>
            cases hh'.symm.trans hh₀
            cases hc'.symm.trans hc₀
            exact ⟨_, _, handler_afterHandler hh', connection_afterHandler hc',
              settles.own handles.owes hhandled⟩
      · rw [Bool.not_eq_true] at hown
        exact settles.other hown step hh' hc'

/-! ## What is owed is written -/

theorem sequences_ticketsOf {requests : List Request} :
    (ticketsOf client k requests).map (·.sequence) = List.range requests.length := by
  apply List.ext_getElem
  · simp [ticketsOf]
  · simp [ticketsOf]

/-- **What is owed is written before a handler ends.** However the reading of a fresh handler
ends and in whatever order responses are delivered, once the handler has ended with its
connection alive, every request it has forwarded has its response and their frames have been
written completely, in the order of the requests. As long as one of them has none, the
handler has not ended and reported nothing. -/
theorem owed_responses_written {s₀ : Service} {capacity : Option Nat}
    (run : Run (act? process) s₀ past s) (hh : s₀.handlers[k]? = some {})
    (hc : s₀.connections[k]? = some { client, capacity }) :
    ∃ h c, s.handlers[k]? = some h ∧ s.connections[k]? = some c ∧
      (h.phase = .ended → c.aborted = false →
        ∃ owed : List Response,
          (putBy k past).map (fun t => answerFor k past t.sequence) = owed.map some ∧
            owed.flatMap Response.frame <+: c.written) ∧
      (c.aborted = false → (∃ t ∈ putBy k past, answerFor k past t.sequence = none) →
        h.phase ≠ .ended ∧ emittedBy k past = []) := by
  obtain ⟨h, c, requests, hh', hc', handles⟩ := handles_run run hh hc
  obtain ⟨h₁, c₁, hh₁, hc₁, settles⟩ := settles_run run hh hc
  cases hh'.symm.trans hh₁
  cases hc'.symm.trans hc₁
  have howed (hended : h.phase = .ended) (live : c.aborted = false) :
      ∃ owed : List Response,
        (putBy k past).map (fun t => answerFor k past t.sequence) = owed.map some ∧
          owed.flatMap Response.frame <+: c.written := by
    have hle := settles.flushed (Or.inr hended) live
    obtain ⟨horderly, hfollows, -, hinFrames, -⟩ := settles.keeps
    refine ⟨(List.range h.forwarded).filterMap (answerFor k past), ?_,
      hinFrames.first_frames horderly hfollows live hle⟩
    have hsequences : (putBy k past).map (·.sequence) = List.range h.forwarded := by
      rw [handles.put, sequences_ticketsOf, handles.reads.counted]
    have hanswered : ∀ i ∈ List.range h.forwarded, ∃ r, answerFor k past i = some r := by
      intro i hi
      have hcount := horderly.counted live
      rw [List.mem_range] at hi
      exact hfollows.passed i (by omega)
    rw [Connection.map_some_filterMap hanswered, ← hsequences, List.map_map]
    rfl
  refine ⟨h, c, hh', hc', howed, ?_⟩
  rintro live ⟨t, ht, hnone⟩
  have hgoing : h.phase ≠ .ended := by
    intro hended
    obtain ⟨owed, hanswers, -⟩ := howed hended live
    have hmem : none ∈ owed.map some := by
      rw [← hanswers, ← hnone]
      exact List.mem_map_of_mem ht
    simp at hmem
  refine ⟨hgoing, ?_⟩
  have htold := handles.told
  generalize emittedBy k past = events at htold
  cases htold with
  | notYet => rfl
  | silent hended | lost hended | reported hended => exact absurd hended hgoing

/-- A handler is told to stop after two requests. The second is answered first, and the
handler waits until the first is answered too and both are written. -/
theorem owed_responses_written_private_stop :
    ∃ past s later s', Run (act? fun t => (.answer (.ok t.request.id), []))
        { connections := [{ client := 7 }], handlers := [{}] } past s ∧
      Run (act? fun t => (.answer (.ok t.request.id), [])) s later s' ∧
      (∃ t ∈ putBy 0 past, answerFor 0 past t.sequence = none) ∧ emittedBy 0 past = [] ∧
      ∃ h c, s'.handlers[0]? = some h ∧ s'.connections[0]? = some c ∧ h.phase = .ended ∧
        c.aborted = false ∧ ∃ owed : List Response,
          (putBy 0 (past ++ later)).map (fun t => answerFor 0 (past ++ later) t.sequence) =
            owed.map some ∧
          owed.flatMap Response.frame <+: c.written := by
  let asks (id : UInt64) : Bytes := Frame.encode (Message.ofRequest ⟨id, .create⟩).encode
  let reads : List Act := [.step (.handler 0 100), .step (.handler 0 0)]
  let writes : List Act := [.step (.writer 0 100), .step (.writer 0 100)]
  have hrun : ((perform? (act? fun t => (.answer (.ok t.request.id), []))
      { connections := [{ client := 7 }], handlers := [{}] }
      ([.start 0, .clientWrites 0 (asks 5 ++ asks 6)] ++ reads ++ reads ++
        [.stopHandler 0, .deliver 0 1 (.ok 6)] ++ reads)).bind fun p =>
      (perform? (act? fun t => (.answer (.ok t.request.id), [])) p.2
        ([.deliver 0 0 (.ok 5)] ++ writes ++ writes ++
          [.step (.writer 0 0), .step (.handler 0 0)])).map fun q => (p, q)).map
      (fun (r : (List (Moment Service Act) × Service) × List (Moment Service Act) × Service) =>
        decide ((∃ t ∈ putBy 0 r.1.1, answerFor 0 r.1.1 t.sequence = none) ∧
          r.1.2.connections[0]?.map (·.aborted) = some false ∧
          r.2.2.handlers[0]?.map (·.phase) = some .ended ∧
          r.2.2.connections[0]?.map (·.aborted) = some false)) = some true := by decide +kernel
  obtain ⟨⟨⟨past, s⟩, later, s'⟩, hperform, hshows⟩ := Option.map_eq_some_iff.mp hrun
  obtain ⟨hunanswered, hlive, hended, hlive'⟩ := of_decide_eq_true hshows
  obtain ⟨_, hfirst, hthen⟩ := Option.bind_eq_some_iff.mp hperform
  obtain ⟨_, hsecond, heq⟩ := Option.map_eq_some_iff.mp hthen
  cases heq
  have run := Run.of_perform? hfirst
  have rest := Run.of_perform? hsecond
  obtain ⟨h, c, -, hc, -, hwaits⟩ :=
    owed_responses_written (k := 0) run rfl rfl
  obtain ⟨h', c', hh', hc', hwritten, -⟩ :=
    owed_responses_written (k := 0) (run.append rest) rfl rfl
  rw [hc] at hlive
  rw [hh'] at hended
  rw [hc'] at hlive'
  obtain ⟨-, hsilent⟩ := hwaits (Option.some.inj hlive) hunanswered
  exact ⟨past, s, later, s', run, rest, hunanswered, hsilent, h', c', hh', hc',
    Option.some.inj hended, Option.some.inj hlive',
    hwritten (Option.some.inj hended) (Option.some.inj hlive')⟩

end Service

end SearchDaemon
