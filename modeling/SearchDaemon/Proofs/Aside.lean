import SearchDaemon.Proofs.Flushing

/-!
# Acts aside

Most of what happens in a service does not concern one client: the steps of its threads short
of the workers and the scheduler, and whatever is done to others. `doneTo` is what is left,
and as long as that is only what the client does itself and the responses it is delivered,
`Felt` lists all that its handler and its connection can notice. `Onward` is what neither can
take back.
-/

namespace SearchDaemon

namespace Connection

variable {c c' : Connection}

/-- A writer whose client has gone away completes no frame. -/
theorem Wrote.sent_of_gone (step : Wrote c c') (gone : c.clientGone = true) :
    c'.sent = c.sent := by
  cases step with
  | fails => exact abort_sent c
  | completes _ _ hthere =>
      rw [hthere] at gone
      contradiction
  | _ => rfl

end Connection

namespace Service

open Connection (Wrote)

/-! ## Acts aside -/

/-- The act is none that decides what becomes of the client at a position: a step of a
handler, a writer or the monitor, a read by a client, a use of a channel that leaves it open,
or something that happens to somebody else. The workers and the scheduler are not among them,
for they deliver responses and cut clients off. -/
def Act.isAside (k : Nat) : Act → Bool
  | .step (.handler _ _) | .step (.writer _ _) | .step .monitor => true
  | .accept _ | .start _ | .clientReads .. => true
  | .submit _ | .withdraw | .sendStop | .closeStop | .hear => true
  | .clientWrites i _ | .clientFinishes i | .clientCloses i => i ≠ k
  | .deliver i _ _ | .stopHandler i | .abort i => i ≠ k
  | .step (.worker _) | .step .scheduler | .closeInbound | .closeEvents => false

/-- The client at a position writes, ends its stream or goes away, or is delivered a
response. -/
def Act.isTalk (k : Nat) : Act → Bool
  | .clientWrites i _ | .clientFinishes i | .clientCloses i | .deliver i _ _ => i = k
  | _ => false

/-- What has been done that is not aside, in order. -/
def doneTo (k : Nat) (past : List (Moment Service Act)) : List Act :=
  (past.map (·.act)).filter fun act => !act.isAside k

variable {process : Processing} {s s' : Service} {act : Act}
  {past later : List (Moment Service Act)} {k : Nat} {h h' : Handler} {c c' : Connection}

theorem doneTo_append : doneTo k (past ++ later) = doneTo k past ++ doneTo k later := by
  simp [doneTo]

theorem doneTo_subset : doneTo k past ⊆ doneTo k (past ++ later) := by
  rw [doneTo_append]
  exact List.subset_append_left _ _

theorem doneTo_snoc : doneTo k (past ++ [⟨s, act, s'⟩]) =
    if act.isAside k then doneTo k past else doneTo k past ++ [act] := by
  rw [doneTo_append]
  cases haside : act.isAside k <;> simp [doneTo, haside]

theorem mem_doneTo_snoc {found : Act} (counts : found.isAside k = false) :
    found ∈ doneTo k (past ++ [⟨s, act, s'⟩]) ↔ found ∈ doneTo k past ∨ act = found := by
  rw [doneTo_snoc]
  split
  · rename_i haside
    refine ⟨Or.inl, fun hfound => hfound.resolve_right ?_⟩
    rintro rfl
    rw [counts] at haside
    contradiction
  · rw [List.mem_append, List.mem_singleton, eq_comm]

/-- Every act of a run is aside or among what has been done. -/
theorem aside_or_mem_doneTo (act : Act) :
    act.isAside k = true ∨ act ∈ doneTo k (past ++ [⟨s, act, s'⟩]) := by
  cases haside : act.isAside k with
  | true => exact Or.inl rfl
  | false => exact Or.inr ((mem_doneTo_snoc haside).mpr (Or.inr rfl))

/-- What an act makes of a handler and its connection, if it is no step of the handler and
leaves both alone. -/
inductive Felt (k : Nat) (h : Handler) (c : Connection) : Act → Handler → Connection → Prop
  | spared {act : Act} : act.isAside k = true → Felt k h c act h c
  | wrote {budget : Nat} {c' : Connection} : Wrote c c' →
      Felt k h c (.step (.writer k budget)) h c'
  | reads {count : Nat} : Felt k h c (.clientReads k count) h (c.clientTakes count).2
  | starts : h.phase = .idle →
      Felt k h c (.start k) { h with phase := .reading Frame.Reader.start } c.startWriter
  | writes {bs : Bytes} : Felt k h c (.clientWrites k bs) h (c.clientWrites bs)
  | finishes : Felt k h c (.clientFinishes k) h c.clientFinishes
  | closes : Felt k h c (.clientCloses k) h c.clientCloses
  | delivers {sequence : Nat} {r : Response} :
      Felt k h c (.deliver k sequence r) h (c.deliver sequence r).2.1

theorem felt_onConnection {i : Nat} {f : Connection → Connection}
    (hh : s.handlers[k]? = some h) (hc : s.connections[k]? = some c)
    (here : i = k → Felt k h c act h (f c)) (elsewhere : i ≠ k → act.isAside k = true) :
    ∃ h' c', (s.onConnection i f).handlers[k]? = some h' ∧
      (s.onConnection i f).connections[k]? = some c' ∧ Felt k h c act h' c' := by
  refine ⟨h, _, hh, getElem?_onConnection hc, ?_⟩
  split
  · rename_i hik
    exact here hik
  · rename_i hik
    exact .spared (elsewhere hik)

/-- A step of a writer is felt at its own connection only. -/
theorem felt_writer {i budget : Nat} (step : s.act? process (.step (.writer i budget)) = some s')
    (hc : s.connections[k]? = some c) :
    ∃ c', s'.connections[k]? = some c' ∧ Felt k h c (.step (.writer i budget)) h c' := by
  obtain ⟨⟨after, journal⟩, hstep, rfl⟩ := Option.map_eq_some_iff.mp step
  simp only [step?, writerStep?, Option.bind_eq_bind, Option.bind_eq_some_iff] at hstep
  obtain ⟨c₀, hc₀, ⟨c', lines⟩, hwrite, hafter⟩ := hstep
  cases hafter
  by_cases hik : i = k
  · subst hik
    cases hc.symm.trans hc₀
    exact ⟨c', getElem?_set_here hc, .wrote (Connection.wrote_of_writerStep? hwrite)⟩
  · exact ⟨c, (List.getElem?_set_ne hik).trans hc, .spared rfl⟩

/-- Nobody notices that another handler starts. -/
theorem startHandler_elsewhere {i : Nat} (hik : i ≠ k) :
    (s.startHandler i).1.handlers[k]? = s.handlers[k]? ∧
      (s.startHandler i).1.connections[k]? = s.connections[k]? := by
  rcases s.startHandler_cases i with heq | ⟨_, _, -, -, heq⟩ <;> rw [heq]
  · exact ⟨rfl, rfl⟩
  · exact ⟨List.getElem?_set_ne hik, List.getElem?_set_ne hik⟩

theorem felt_of_act? (others : act.isOfHandler k = false)
    (mild : act.isAside k = true ∨ act.isTalk k = true) (step : s.act? process act = some s')
    (hh : s.handlers[k]? = some h) (hc : s.connections[k]? = some c) :
    ∃ h' c', s'.handlers[k]? = some h' ∧ s'.connections[k]? = some c' ∧ Felt k h c act h' c' := by
  have hk : k < s.connections.length := (List.getElem?_eq_some_iff.mp hc).1
  obtain ⟨h₁, hh₁, nudged⟩ := handler_nudged others step hh hc
  cases act with
  | step thread =>
      have hkept : s'.handlers[k]? = some h := by
        cases nudged with
        | kept => exact hh₁
      cases thread with
      | monitor =>
          refine ⟨h, c, hkept, ?_, .spared rfl⟩
          cases stepped_of_act? step with
          | monitor => exact hc
      | writer i budget =>
          obtain ⟨c', hc', felt⟩ := felt_writer step hc
          exact ⟨h, c', hkept, hc', felt⟩
      | handler i budget =>
          have hne : i ≠ k := by simpa [Act.isOfHandler] using others
          refine ⟨h, c, hkept, ?_, .spared rfl⟩
          cases stepped_of_act? step with
          | handler =>
              rw [afterHandler, List.getElem?_set_ne hne, hc]
      | worker | scheduler => simp [Act.isAside, Act.isTalk] at mild
  | accept capacity =>
      -- The new connection stands behind all others.
      cases step
      have hkept : (s.accept capacity).1.handlers[k]? = some h := by
        cases nudged with
        | kept => exact hh₁
      refine ⟨h, c, hkept, ?_, .spared rfl⟩
      rw [accept_eq, (startHandler_elsewhere (Nat.ne_of_gt hk)).2, welcomed,
        List.getElem?_append_left hk, hc]
  | start i =>
      by_cases hik : i = k
      · subst hik
        have hstarted := connection_started step hh hc
        obtain ⟨hidle, hafter⟩ := Option.ite_none_right_eq_some.mp step
        cases hafter
        refine ⟨_, _, ?_, hstarted, .starts (by simpa [hh] using hidle)⟩
        rw [startHandler, hh, hc]
        exact getElem?_set_here hh
      · obtain ⟨-, hafter⟩ := Option.ite_none_right_eq_some.mp step
        cases hafter
        obtain ⟨hhandlers, hconnections⟩ := startHandler_elsewhere (s := s) hik
        exact ⟨h, c, hhandlers.trans hh, hconnections.trans hc, .spared rfl⟩
  | clientWrites i bs =>
      cases step
      exact felt_onConnection hh hc (fun hik => hik ▸ .writes) fun hik => by simp [Act.isAside, hik]
  | clientFinishes i =>
      cases step
      exact felt_onConnection hh hc (fun hik => hik ▸ .finishes)
        fun hik => by simp [Act.isAside, hik]
  | clientCloses i =>
      cases step
      exact felt_onConnection hh hc (fun hik => hik ▸ .closes) fun hik => by simp [Act.isAside, hik]
  | deliver i sequence r =>
      cases step
      exact felt_onConnection hh hc (fun hik => hik ▸ .delivers)
        fun hik => by simp [Act.isAside, hik]
  | clientReads i count =>
      cases step
      exact felt_onConnection hh hc (fun hik => hik ▸ .reads) fun _ => rfl
  | stopHandler i =>
      have hne : i ≠ k := by simpa [Act.isAside, Act.isTalk] using mild
      cases step
      unfold stopHandler
      split
      · exact ⟨h, c, (List.getElem?_set_ne hne).trans hh, hc, .spared (by simp [Act.isAside, hne])⟩
      · exact ⟨h, c, hh, hc, .spared (by simp [Act.isAside, hne])⟩
  | abort i =>
      have hne : i ≠ k := by simpa [Act.isAside, Act.isTalk] using mild
      cases step
      exact felt_onConnection hh hc (fun hik => absurd hik hne)
        fun hik => by simp [Act.isAside, hik]
  | submit t =>
      obtain ⟨-, hsent⟩ := Option.ite_none_right_eq_some.mp step
      obtain ⟨sent, -, rfl⟩ := Option.map_eq_some_iff.mp hsent
      exact ⟨h, c, hh, hc, .spared rfl⟩
  | withdraw | sendStop | hear =>
      obtain ⟨sent, -, rfl⟩ := Option.map_eq_some_iff.mp step
      exact ⟨h, c, hh, hc, .spared rfl⟩
  | closeStop =>
      cases step
      exact ⟨h, c, hh, hc, .spared rfl⟩
  | closeInbound | closeEvents => simp [Act.isAside, Act.isTalk] at mild

/-- As long as nobody closes them, the channels stay as they are. -/
theorem channels_left (mild : act.isAside k = true ∨ act.isTalk k = true)
    (step : s.act? process act = some s') :
    s'.inbound.closed = s.inbound.closed ∧ s'.events.closed = s.events.closed := by
  cases act with
  | step thread =>
      cases stepped_of_act? step with
      | monitor | writer | handler => exact ⟨rfl, rfl⟩
      | worker | scheduler => simp [Act.isAside, Act.isTalk] at mild
  | accept capacity =>
      cases step
      obtain ⟨hinbound, -, hevents, -, -⟩ :=
        (s.welcomed capacity).startHandler_same s.connections.length
      exact ⟨congrArg Channel.closed hinbound, congrArg Channel.closed hevents⟩
  | start i =>
      obtain ⟨-, hafter⟩ := Option.ite_none_right_eq_some.mp step
      cases hafter
      obtain ⟨hinbound, -, hevents, -, -⟩ := s.startHandler_same i
      exact ⟨congrArg Channel.closed hinbound, congrArg Channel.closed hevents⟩
  | stopHandler i =>
      cases step
      unfold stopHandler
      split <;> exact ⟨rfl, rfl⟩
  | submit t =>
      obtain ⟨-, hsent⟩ := Option.ite_none_right_eq_some.mp step
      obtain ⟨⟨taken, ch⟩, hsend, rfl⟩ := Option.map_eq_some_iff.mp hsent
      rcases send?_cases hsend with ⟨-, -, rfl⟩ | ⟨-, -, -, rfl⟩ <;> exact ⟨rfl, rfl⟩
  | withdraw | hear =>
      obtain ⟨⟨item, ch⟩, hreceive, rfl⟩ := Option.map_eq_some_iff.mp step
      rcases receive?_cases hreceive with ⟨-, -, -, rfl⟩ | ⟨_, _, -, -, rfl⟩ <;> exact ⟨rfl, rfl⟩
  | sendStop =>
      obtain ⟨sent, -, rfl⟩ := Option.map_eq_some_iff.mp step
      exact ⟨rfl, rfl⟩
  | closeInbound | closeEvents => simp [Act.isAside, Act.isTalk] at mild
  | _ =>
      cases step
      exact ⟨rfl, rfl⟩

/-! ## What is felt of an act -/

theorem Felt.handler (felt : Felt k h c act h' c') :
    h'.stopRequested = h.stopRequested ∧ h'.forwarded = h.forwarded ∧
      (h'.phase = .reporting ∨ h'.phase = .ended → h'.phase = h.phase) := by
  cases felt with
  | starts => exact ⟨rfl, rfl, fun hphase => hphase.elim nofun nofun⟩
  | _ => exact ⟨rfl, rfl, fun _ => rfl⟩

/-- What becomes of a connection that nobody writes from. -/
structure Calm (c c' : Connection) : Prop where
  aborted : c'.aborted = c.aborted
  sent : c'.sent = c.sent
  next : c.next ≤ c'.next
  gone : c.clientGone = true → c'.clientGone = true

theorem Calm.refl (c : Connection) : Calm c c := ⟨rfl, rfl, Nat.le_refl _, id⟩

/-- Only its writer does more to a connection. -/
theorem Felt.calm (felt : Felt k h c act h' c') : Wrote c c' ∨ Calm c c' := by
  cases felt with
  | wrote hwrote => exact Or.inl hwrote
  | spared => exact Or.inr (.refl c)
  | starts =>
      unfold Connection.startWriter
      split <;> exact Or.inr ⟨rfl, rfl, Nat.le_refl _, id⟩
  | writes =>
      rw [Connection.clientWrites_eq]
      split <;> exact Or.inr ⟨rfl, rfl, Nat.le_refl _, id⟩
  | closes =>
      unfold Connection.clientCloses
      split
      · exact Or.inr (.refl c)
      · exact Or.inr ⟨rfl, rfl, Nat.le_refl _, fun _ => rfl⟩
  | @delivers sequence r =>
      rcases c.deliver_cases sequence r with hsame | ⟨-, -, htaken⟩
      · rw [hsame]
        exact Or.inr (.refl c)
      · rw [htaken]
        refine Or.inr ⟨rfl, rfl, ?_, id⟩
        rw [Connection.taking, Connection.inOrder_next]
        exact Nat.le_add_right _ _
  | finishes | reads => exact Or.inr ⟨rfl, rfl, Nat.le_refl _, id⟩

/-- A connection is aborted only if it was before, or if its writer finds the client gone. -/
theorem Felt.cut (felt : Felt k h c act h' c') (orderly : c.Orderly) :
    c'.aborted = c.aborted ∧ c.next ≤ c'.next ∧ (c.clientGone = true → c'.clientGone = true) ∨
      c.writer.isRunning = true ∧ c'.aborted = true ∧ c'.inlet.ended = true ∧
        c'.clientGone = true ∧ 0 < c'.next := by
  rcases felt.calm with hwrote | calm
  · cases hwrote with
    | fails hlive hwriting hgone =>
        -- The frame that the writer is in the middle of belongs to a number it has passed.
        have hcount := orderly.counted hlive
        rw [hwriting, Writer.underway] at hcount
        have hnext : 0 < c.next := by omega
        refine Or.inr ⟨by rw [hwriting]; rfl, ?_⟩
        simp [Connection.abort, hlive, Inlet.finish, hgone, hnext]
    | _ => exact Or.inl ⟨rfl, Nat.le_refl _, id⟩
  · exact Or.inl ⟨calm.aborted, calm.next, calm.gone⟩

theorem Felt.gone (felt : Felt k h c act h' c') :
    c'.clientGone = true ↔ c.clientGone = true ∨ act = .clientCloses k := by
  cases felt with
  | spared haside =>
      refine ⟨Or.inl, fun hgone => hgone.elim id ?_⟩
      rintro rfl
      simp [Act.isAside] at haside
  | wrote hwrote =>
      cases hwrote with
      | fails => simp [Connection.abort_clientGone]
      | _ => simp
  | starts =>
      unfold Connection.startWriter
      split <;> simp
  | writes =>
      rw [Connection.clientWrites_eq]
      split <;> simp
  | closes =>
      unfold Connection.clientCloses
      split <;> simp_all
  | @delivers sequence r =>
      rcases c.deliver_cases sequence r with hsame | ⟨-, -, htaken⟩
      · simp [hsame]
      · simp [htaken, Connection.taking]
  | _ => simp [Connection.clientFinishes, Connection.clientTakes]

/-- The stream of a connection that is not aborted ends by the client's own doing. -/
theorem Felt.ended (felt : Felt k h c act h' c')
    (closed : c.clientGone = true → c.inlet.ended = true) (same : c'.aborted = c.aborted) :
    c'.inlet.ended = true ↔
      c.inlet.ended = true ∨ act = .clientFinishes k ∨ act = .clientCloses k := by
  cases felt with
  | spared haside =>
      refine ⟨Or.inl, fun hended => hended.elim id ?_⟩
      rintro (rfl | rfl) <;> simp [Act.isAside] at haside
  | wrote hwrote =>
      cases hwrote with
      | fails hlive =>
          rw [hlive] at same
          simp at same
      | _ => simp
  | starts =>
      unfold Connection.startWriter
      split <;> simp
  | writes =>
      rw [Connection.clientWrites_eq]
      split <;> simp [Inlet.arrive]
  | closes =>
      unfold Connection.clientCloses
      split <;> simp_all [Inlet.finish]
  | @delivers sequence r =>
      rcases c.deliver_cases sequence r with hsame | ⟨-, -, htaken⟩
      · simp [hsame]
      · simp [htaken, Connection.taking]
  | finishes => simp [Connection.clientFinishes, Inlet.finish]
  | reads => simp [Connection.clientTakes]

/-- Nobody sets a writer going again. -/
theorem Felt.not_running (felt : Felt k h c act h' c') (busy : h.phase ≠ .idle)
    (ended : c.writer.isRunning = false) : c'.writer.isRunning = false := by
  cases felt with
  | wrote hwrote =>
      rw [hwrote.running] at ended
      contradiction
  | starts hidle => exact absurd hidle busy
  | writes =>
      rw [Connection.clientWrites_eq]
      split <;> exact ended
  | closes =>
      unfold Connection.clientCloses
      split <;> exact ended
  | @delivers sequence r =>
      rcases c.deliver_cases sequence r with hsame | ⟨-, -, htaken⟩
      · rw [hsame]
        exact ended
      · rw [htaken]
        exact ended
  | _ => exact ended

section Handled

variable {tickets : List Ticket} {told : List Event}

/-- A handler ends the stream of its connection only by aborting it. -/
theorem Handled.cut (step : Handled s k h c h' c' tickets told)
    (closed : c.aborted = true → c.inlet.ended = true) :
    c'.next = c.next ∧ c'.sent = c.sent ∧ c'.clientGone = c.clientGone ∧
      (c'.aborted = c.aborted ∧ c'.inlet.ended = c.inlet.ended ∨
        c'.aborted = true ∧ c'.inlet.ended = true) := by
  cases step with
  | rejects | objects =>
      refine ⟨Connection.abort_next _, Connection.abort_sent _, Connection.abort_clientGone _,
        Or.inr ?_⟩
      cases haborted : c.aborted with
      | true => simp [Connection.abort, Connection.withUnread, haborted, closed haborted]
      | false => simp [Connection.abort, Connection.withUnread, haborted, Inlet.finish]
  | _ => exact ⟨rfl, rfl, rfl, Or.inl ⟨rfl, rfl⟩⟩

end Handled

/-! ## What never changes -/

/-- What a handler and its connection keep for ever once they have come to it. -/
structure Onward (h : Handler) (c : Connection) (h' : Handler) (c' : Connection) : Prop where
  aborted : c.aborted = true → c'.aborted = true
  /-- A client that has gone away is sent no more responses. -/
  sent : c.clientGone = true → c'.clientGone = true ∧ c'.sent = c.sent
  /-- Nobody is left to abort the connection. -/
  ended : h.phase = .ended → c.writer.isRunning = false →
    h'.phase = .ended ∧ c'.writer.isRunning = false ∧ c'.aborted = c.aborted

theorem Onward.refl (h : Handler) (c : Connection) : Onward h c h c where
  aborted := id
  sent := fun hgone => ⟨hgone, rfl⟩
  ended := fun hended hwriter => ⟨hended, hwriter, rfl⟩

theorem Onward.trans {h'' : Handler} {c'' : Connection} (first : Onward h c h' c')
    (second : Onward h' c' h'' c'') : Onward h c h'' c'' where
  aborted := second.aborted ∘ first.aborted
  sent := by
    intro hgone
    obtain ⟨hgone', hsent⟩ := first.sent hgone
    obtain ⟨hgone'', hsent'⟩ := second.sent hgone'
    exact ⟨hgone'', hsent'.trans hsent⟩
  ended := by
    intro hended hwriter
    obtain ⟨hended', hwriter', hsame⟩ := first.ended hended hwriter
    obtain ⟨hended'', hwriter'', hsame'⟩ := second.ended hended' hwriter'
    exact ⟨hended'', hwriter'', hsame'.trans hsame⟩

theorem Felt.onward (felt : Felt k h c act h' c') (orderly : c.Orderly) : Onward h c h' c' where
  aborted := by
    intro habort
    rcases felt.cut orderly with ⟨hsame, -, -⟩ | ⟨-, habort', -⟩
    · exact hsame.trans habort
    · exact habort'
  sent := by
    intro hgone
    refine ⟨felt.gone.mpr (Or.inl hgone), ?_⟩
    rcases felt.calm with hwrote | calm
    · exact hwrote.sent_of_gone hgone
    · exact calm.sent
  ended := by
    intro hended hwriter
    refine ⟨?_, felt.not_running (by rw [hended]; exact nofun) hwriter, ?_⟩
    · cases felt with
      | starts hidle => simp [hended] at hidle
      | _ => exact hended
    · rcases felt.cut orderly with ⟨hsame, -, -⟩ | ⟨hrunning, -⟩
      · exact hsame
      · rw [hwriter] at hrunning
        contradiction

theorem Handled.onward {tickets : List Ticket} {told : List Event}
    (step : Handled s k h c h' c' tickets told) (closed : c.aborted = true → c.inlet.ended = true) :
    Onward h c h' c' where
  aborted := by
    intro habort
    obtain ⟨-, -, -, ⟨hsame, -⟩ | ⟨habort', -⟩⟩ := step.cut closed
    · exact hsame.trans habort
    · exact habort'
  sent := by
    intro hgone
    obtain ⟨-, hsent, hsame, -⟩ := step.cut closed
    exact ⟨hsame.trans hgone, hsent⟩
  ended := by
    -- A handler that has ended takes no step.
    intro hended
    cases step <;> simp_all

end Service

end SearchDaemon
