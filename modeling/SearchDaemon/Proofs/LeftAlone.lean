import SearchDaemon.Proofs.Aside
import SearchDaemon.Proofs.Isolation

/-!
# A client that is left alone

Nobody stops its handler, cuts it off or closes a channel. The client writes, ends its stream
or goes away, and responses are delivered to it; whatever else happens is aside. `LeftAlone`
is the invariant of the handler and its connection, and once both wait `Outcome` tells how
they stand by nothing but the stream.
-/

namespace SearchDaemon

namespace Request

/-! ## Streams that go wrong -/

/-- Behind its requests the stream goes on with a length that no frame has, or with a frame
whose body is no request. -/
def offends (stream : Bytes) : Bool :=
  match Frame.next (readAll stream).2 with
  | .frame .. | .invalid .. => true
  | .closed | .torn => false

/-- Nothing behind a bad frame is read. -/
theorem Malformed.readAll_append {stream : Bytes} (h : Malformed stream) (more : Bytes) :
    (readAll (stream ++ more)).1 = (readAll stream).1 ∧ offends (stream ++ more) = true := by
  -- The requests are those of the good frames, whatever follows the bad one.
  have hread {requests : List Request} {read bad : Bytes} (hframes : Frames requests read)
      (hno : ∀ body after, Frame.next bad = .frame body after → ∃ e, decode body = .error e) :
      readAll (read ++ bad) = (requests, bad) := by
    rw [hframes.readAll_append, readAll_of_not_frame hno, List.append_nil]
  cases h with
  | @badLength requests read digits rest hframes hdigits hinvalid =>
      have hnext (rest : Bytes) : Frame.next (digits ++ rest) = .invalid _ rest :=
        Frame.next_invalid hdigits hinvalid
      have hno (rest : Bytes) (body after : Bytes)
          (hframe : Frame.next (digits ++ rest) = .frame body after) :
          ∃ e, decode body = .error e := by
        rw [hnext] at hframe
        contradiction
      rw [List.append_assoc, List.append_assoc, offends, hread hframes (hno _),
        hread hframes (hno _)]
      exact ⟨rfl, by rw [hnext]⟩
  | @badBody requests read body rest e hframes hvalid herror =>
      have hnext (rest : Bytes) : Frame.next (Frame.encode body ++ rest) = .frame body rest :=
        Frame.next_encode_append hvalid
      have hno (rest : Bytes) (body' after : Bytes)
          (hframe : Frame.next (Frame.encode body ++ rest) = .frame body' after) :
          ∃ e, decode body' = .error e := by
        rw [hnext] at hframe
        cases hframe
        exact ⟨e, herror⟩
      rw [List.append_assoc, List.append_assoc, offends, hread hframes (hno _),
        hread hframes (hno _)]
      exact ⟨rfl, by rw [hnext]⟩

end Request

namespace Handler

variable {stream : Bytes} {causes : List Cause} {closed : Bool} {h : Handler} {c : Connection}
  {requests : List Request}

/-- A stream that is read to its end gives all its requests, and its client is cut off if it
goes wrong. -/
theorem Cause.Explains.read_out {cause : Cause} (explains : cause.Explains requests stream c)
    (own : cause.ending = .disconnected) :
    requests = (Request.readAll stream).1 ∧ Request.offends stream = cause.cutsOff := by
  unfold Request.offends
  cases cause with
  | stopped | turnedAway => contradiction
  | streamEnd | tornFrame =>
      obtain ⟨hrequests, hnext, -, -⟩ := explains
      exact ⟨hrequests.symm, by rw [hnext]; rfl⟩
  | badLength =>
      obtain ⟨hrequests, ⟨n, hnext⟩, -⟩ := explains
      exact ⟨hrequests.symm, by rw [hnext]; rfl⟩
  | badBody =>
      obtain ⟨hrequests, ⟨body, e, hnext, -⟩, -⟩ := explains
      exact ⟨hrequests.symm, by rw [hnext]; rfl⟩

/-- As long as a handler waits for bytes, its stream has not gone wrong. -/
theorem Reads.not_offends {reader : Frame.Reader} (reads : Reads stream causes closed h c requests)
    (hphase : h.phase = .reading reader) (hdry : c.inlet.unread = []) :
    Request.offends stream = false := by
  obtain ⟨rest, hstands, hall⟩ := reads.readAll
  obtain ⟨-, hinside, rfl⟩ := hstands.of_reading hphase
  have hnext := Frame.next_partial hinside
  rw [hdry, List.append_nil] at hall
  have hnone : Request.readAll reader.bytes = ([], reader.bytes) := by
    apply Request.readAll_of_not_frame
    intro body rest hframe
    rw [hnext] at hframe
    split at hframe <;> contradiction
  rw [Request.offends, hall, hnone]
  dsimp only
  rw [hnext]
  cases reader.isFresh <;> rfl

/-! ## How a handler stands -/

/-- What a handler waits for. -/
inductive Status where
  | waitsForBytes
  | waitsForResponses
  | ended
  /-- It has not started, or has something to do. -/
  | busy
deriving DecidableEq, Repr

def status (h : Handler) : Status :=
  match h.phase with
  | .reading _ => .waitsForBytes
  | .joining _ => .waitsForResponses
  | .ended => .ended
  | .idle | .forwarding _ | .finishing _ | .reporting => .busy

theorem phase_of_status (h' : h.status = .ended) : h.phase = .ended := by
  unfold status at h'
  split at h' <;> first | assumption | contradiction

end Handler

namespace Service

open Handler (Cause)

variable {process : Processing} {s s' : Service} {act : Act}
  {past later : List (Moment Service Act)} {k client : Nat} {h h' : Handler} {c c' : Connection}
  {requests : List Request}

/-! ## The invariant -/

/-- What holds of a handler and its connection as long as both are left alone, in a service
whose channels are closed or open all the while. -/
structure LeftAlone (k : Nat) (shut unheard : Bool) (past : List (Moment Service Act))
    (s : Service) (h : Handler) (c : Connection) : Prop where
  inbound : s.inbound.closed = shut
  events : s.events.closed = unheard
  unstopped : h.stopRequested = false
  /-- A connection is aborted for a bad frame, or because a response cannot be written. -/
  blamed : c.aborted = true → (∃ cause ∈ causesOf k past, cause.cutsOff = true) ∨
    c.clientGone = true ∧ 0 < c.next
  /-- Only a request can be turned away, and then none has been taken. -/
  refused : .turnedAway ∈ causesOf k past → (Request.readAll (streamOf k past)).1 ≠ []
  untaken : shut = true → h.forwarded = 0
  untold : unheard = true → emittedBy k past = []
  /-- A handler that has waited for its writer has no writer any more. -/
  joined : h.phase = .reporting ∨ h.phase = .ended → c.writer.isRunning = false
  gone : c.clientGone = true ↔ .clientCloses k ∈ doneTo k past
  ended : c.inlet.ended = true ↔
    c.aborted = true ∨ .clientFinishes k ∈ doneTo k past ∨ .clientCloses k ∈ doneTo k past
  answered : c.aborted = false → ∀ i r, .deliver k i r ∈ doneTo k past → c.isAnswered i = true

theorem leftAlone_start {capacity : Option Nat} :
    LeftAlone k s.inbound.closed s.events.closed [] s {} { client, capacity } where
  inbound := rfl
  events := rfl
  unstopped := rfl
  blamed := nofun
  refused := nofun
  untaken := fun _ => rfl
  untold := fun _ => rfl
  joined := fun hphase => hphase.elim nofun nofun
  gone := ⟨nofun, nofun⟩
  ended := ⟨nofun, fun h => h.elim nofun fun h => h.elim nofun nofun⟩
  answered := fun _ _ _ h => absurd h List.not_mem_nil

/-! ## What is done to the client -/

/-- What somebody else does leaves the invariant. -/
theorem LeftAlone.felt {shut unheard : Bool} (alone : LeftAlone k shut unheard past s h c)
    (felt : Felt k h c act h' c') (orderly : c.Orderly) (others : act.isOfHandler k = false)
    (mild : act.isAside k = true ∨ act.isTalk k = true) (step : s.act? process act = some s')
    (hc : s.connections[k]? = some c) (hc' : s'.connections[k]? = some c') :
    LeftAlone k shut unheard (past ++ [⟨s, act, s'⟩]) s' h' c' := by
  obtain ⟨c₁, hc₁, touched⟩ := connection_touched others step hc
  cases hc'.symm.trans hc₁
  obtain ⟨hunstopped, hforwarded, hphase⟩ := felt.handler
  obtain ⟨hinbound, hevents⟩ := channels_left mild step
  have hcauses : causesOf k (past ++ [⟨s, act, s'⟩]) = causesOf k past := by
    rw [causesOf_snoc, causesIn_of_other others, List.append_nil]
  have hemitted : emittedBy k (past ++ [⟨s, act, s'⟩]) = emittedBy k past := by
    rw [emittedBy_snoc, emittedIn_of_other others, List.append_nil]
  have hcloses : (Act.clientCloses k).isAside k = false := by simp [Act.isAside]
  have hfinishes : (Act.clientFinishes k).isAside k = false := by simp [Act.isAside]
  have hcut := felt.cut orderly
  refine
    { inbound := hinbound.trans alone.inbound
      events := hevents.trans alone.events
      unstopped := hunstopped.trans alone.unstopped
      blamed := ?blamed
      refused := ?refused
      untaken := by rw [hforwarded]; exact alone.untaken
      untold := by rw [hemitted]; exact alone.untold
      joined := ?joined
      gone := by rw [felt.gone, mem_doneTo_snoc hcloses, alone.gone]
      ended := ?ended
      answered := ?answered }
  case blamed =>
    intro habort
    rw [hcauses]
    rcases hcut with ⟨hsame, hnext, hgone⟩ | ⟨-, -, -, hgone, hnext⟩
    · exact (alone.blamed (hsame ▸ habort)).imp_right
        (And.imp hgone (Nat.lt_of_lt_of_le · hnext))
    · exact Or.inr ⟨hgone, hnext⟩
  case refused =>
    intro hcause
    rw [hcauses] at hcause
    rw [streamOf_snoc]
    exact (Request.readAll_prefix _ _).ne_nil (alone.refused hcause)
  case joined =>
    intro hover
    have hsame := hphase hover
    rw [hsame] at hover
    refine felt.not_running ?_ (alone.joined hover)
    rcases hover with hover | hover <;> simp [hover]
  case ended =>
    rw [mem_doneTo_snoc hcloses, mem_doneTo_snoc hfinishes]
    rcases hcut with ⟨hsame, -, -⟩ | ⟨-, habort, hended, -⟩
    · have hclosed (hgone : c.clientGone = true) : c.inlet.ended = true :=
        alone.ended.mpr (Or.inr (Or.inr (alone.gone.mp hgone)))
      rw [felt.ended hclosed hsame, alone.ended, hsame]
      tauto
    · exact iff_of_true hended (Or.inl habort)
  case answered =>
    intro live i r hdelivered
    have hlive := touched.live live
    rw [mem_doneTo_snoc (by simp [Act.isAside])] at hdelivered
    rcases hdelivered with hdelivered | rfl
    · exact touched.isAnswered live (alone.answered hlive i r hdelivered)
    · cases felt with
      | spared haside => simp [Act.isAside] at haside
      | delivers => exact (Connection.isAnswered_deliver hlive).mpr (Or.inr rfl)

/-! ## What the handler does -/

section Handled

variable {tickets : List Ticket} {told : List Event}

/-- Why a handler goes on as it does after a step. -/
theorem Handled.refused (step : Handled s k h c h' c' tickets told)
    (refused : .turnedAway ∈ h.causes h' c) : ∃ request, h.phase = .forwarding request := by
  cases step with
  | turnedAway hphase => exact ⟨_, hphase⟩
  | stops hphase hstop => simp [Handler.causes, hphase, hstop] at refused
  | runsDry hphase hgo | rejects hphase hgo | objects hphase hgo =>
      simp only [Handler.causes, hphase, hgo, Bool.false_eq_true, if_false,
        List.mem_singleton] at refused
      generalize Frame.next _ = reading at refused
      cases reading <;> contradiction
  | finishes hphase | forwards hphase => simp [Handler.causes, hphase] at refused
  | _ => simp_all [Handler.causes]

/-- A step of the handler itself leaves the invariant. -/
theorem LeftAlone.own {shut unheard : Bool} {budget : Nat}
    (alone : LeftAlone k shut unheard past s h c) (handles : Handles k client past s h c requests)
    (step : Handled s k h c h' c' tickets told) (hh : s.handlers[k]? = some h)
    (hc : s.connections[k]? = some c) :
    LeftAlone k shut unheard
      (past ++ [⟨s, .step (.handler k budget), s.afterHandler k h' c' tickets told⟩])
      (s.afterHandler k h' c' tickets told) h' c' := by
  have hstream : streamOf k
      (past ++ [⟨s, .step (.handler k budget), s.afterHandler k h' c' tickets told⟩]) =
        streamOf k past := by
    rw [streamOf_snoc]
    exact List.append_nil _
  have hdone : doneTo k
      (past ++ [⟨s, .step (.handler k budget), s.afterHandler k h' c' tickets told⟩]) =
        doneTo k past := by
    rw [doneTo_append]
    exact List.append_nil _
  obtain ⟨hnext, -, hgone, hcut⟩ :=
    step.cut fun habort => alone.ended.mpr (Or.inl habort)
  refine
    { inbound := alone.inbound
      events := alone.events
      unstopped := step.busy.2.trans alone.unstopped
      blamed := ?blamed
      refused := ?refused
      untaken := ?untaken
      untold := ?untold
      joined := ?joined
      gone := by rw [hgone, hdone, alone.gone]
      ended := ?ended
      answered := ?answered }
  case blamed =>
    intro habort
    rw [causesOf_snoc, causesIn_afterHandler hh hc, hgone, hnext]
    cases hlive : c.aborted with
    | true =>
        refine (alone.blamed hlive).imp_left ?_
        rintro ⟨cause, hcause, hcuts⟩
        exact ⟨cause, List.mem_append_left _ hcause, hcuts⟩
    | false =>
        obtain ⟨cause, hcause, hcuts⟩ := handles.reads.cutsOff step hlive habort
        exact Or.inl ⟨cause, List.mem_append_right _ hcause, hcuts⟩
  case refused =>
    intro hcause
    rw [hstream]
    rw [causesOf_snoc, causesIn_afterHandler hh hc] at hcause
    rcases List.mem_append.mp hcause with hcause | hcause
    · exact alone.refused hcause
    · obtain ⟨request, hphase⟩ := step.refused hcause
      intro hnone
      have hfound := handles.reads.forwarding hphase
      rw [hnone] at hfound
      contradiction
  case untaken =>
    intro hshut
    cases step with
    | forwards _ hopen =>
        rw [alone.inbound, hshut] at hopen
        contradiction
    | _ => exact alone.untaken hshut
  case untold =>
    intro hunheard
    rw [emittedBy_snoc, emittedIn_afterHandler, alone.untold hunheard]
    cases step with
    | reports _ hopen =>
        rw [alone.events, hunheard] at hopen
        contradiction
    | _ => rfl
  case joined =>
    intro hover
    rw [step.keeps.1]
    cases step with
    | leaves _ hstopped | joins _ hstopped => exact hstopped
    | reports hphase | unheard hphase => exact alone.joined (Or.inl hphase)
    | _ => rcases hover with hover | hover <;> contradiction
  case ended =>
    rw [hdone]
    rcases hcut with ⟨haborted, hended⟩ | ⟨haborted, hended⟩
    · rw [haborted, hended, alone.ended]
    · exact iff_of_true hended (Or.inl haborted)
  case answered =>
    intro live i r hdelivered
    rw [hdone] at hdelivered
    obtain ⟨hlive, hanswers⟩ := step.keeps.2 live
    rw [hanswers]
    exact alone.answered hlive i r hdelivered

end Handled

theorem leftAlone_run {s₀ : Service} {capacity : Option Nat}
    (run : Run (act? process) s₀ past s) (hh : s₀.handlers[k]? = some {})
    (hc : s₀.connections[k]? = some { client, capacity })
    (talk : ∀ act ∈ doneTo k past, act.isTalk k = true) :
    ∃ h c, s.handlers[k]? = some h ∧ s.connections[k]? = some c ∧
      LeftAlone k s₀.inbound.closed s₀.events.closed past s h c := by
  induction run with
  | start => exact ⟨_, _, hh, hc, leftAlone_start⟩
  | @snoc past now next act run step ih =>
      obtain ⟨h, c, hh', hc', alone⟩ := ih fun act' hact' => talk act' (doneTo_subset hact')
      obtain ⟨h₁, c₁, requests, hh₁, hc₁, handles⟩ := handles_run run hh hc
      cases hh'.symm.trans hh₁
      cases hc'.symm.trans hc₁
      by_cases hown : act.isOfHandler k = true
      · obtain ⟨budget, rfl⟩ := Act.eq_of_isOfHandler hown
        cases stepped_of_act? step with
        | handler hh₀ hc₀ hhandled =>
            cases hh'.symm.trans hh₀
            cases hc'.symm.trans hc₀
            exact ⟨_, _, handler_afterHandler hh', connection_afterHandler hc',
              alone.own handles hhandled hh' hc'⟩
      · rw [Bool.not_eq_true] at hown
        have hmild := (aside_or_mem_doneTo act).imp_right (talk act)
        obtain ⟨h', c', hh'', hc'', felt⟩ := felt_of_act? hown hmild step hh' hc'
        exact ⟨h', c', hh'', hc'',
          alone.felt felt handles.orderly hown hmild step hc' hc''⟩

/-- As long as both are left alone, a handler and its connection go onward. -/
theorem onward_run {s₀ : Service} {capacity : Option Nat} (run : Run (act? process) s₀ past s)
    (rest : Run (act? process) s later s') (hh₀ : s₀.handlers[k]? = some {})
    (hc₀ : s₀.connections[k]? = some { client, capacity })
    (talk : ∀ act ∈ doneTo k (past ++ later), act.isTalk k = true)
    (hh : s.handlers[k]? = some h) (hc : s.connections[k]? = some c) :
    ∃ h' c', s'.handlers[k]? = some h' ∧ s'.connections[k]? = some c' ∧ Onward h c h' c' := by
  induction rest with
  | start => exact ⟨h, c, hh, hc, .refl h c⟩
  | @snoc later now next act rest step ih =>
      rw [← List.append_assoc] at talk
      have hbefore (act' : Act) (hact' : act' ∈ doneTo k (past ++ later)) :
          act'.isTalk k = true := talk act' (doneTo_subset hact')
      obtain ⟨h₁, c₁, hh₁, hc₁, onward⟩ := ih hbefore
      obtain ⟨h₂, c₂, requests, hh₂, hc₂, handles⟩ := handles_run (run.append rest) hh₀ hc₀
      obtain ⟨h₃, c₃, hh₃, hc₃, alone⟩ := leftAlone_run (run.append rest) hh₀ hc₀ hbefore
      cases hh₁.symm.trans hh₂
      cases hc₁.symm.trans hc₂
      cases hh₁.symm.trans hh₃
      cases hc₁.symm.trans hc₃
      by_cases hown : act.isOfHandler k = true
      · obtain ⟨budget, rfl⟩ := Act.eq_of_isOfHandler hown
        cases stepped_of_act? step with
        | handler hh₄ hc₄ hhandled =>
            cases hh₁.symm.trans hh₄
            cases hc₁.symm.trans hc₄
            exact ⟨_, _, handler_afterHandler hh₁, connection_afterHandler hc₁,
              onward.trans (hhandled.onward fun habort => alone.ended.mpr (Or.inl habort))⟩
      · rw [Bool.not_eq_true] at hown
        have hmild := (aside_or_mem_doneTo act).imp_right (talk act)
        obtain ⟨h', c', hh', hc', felt⟩ := felt_of_act? hown hmild step hh₁ hc₁
        exact ⟨h', c', hh', hc', onward.trans (felt.onward handles.orderly)⟩

/-! ## Handlers that wait -/

/-- A full channel holds a handler up. -/
def holdsUp (s : Service) (h : Handler) : Bool :=
  match h.phase with
  | .forwarding _ => !s.inbound.hasRoom
  | .reporting => !s.events.hasRoom
  | _ => false

/-- The handler at a position has been started and neither it nor its connection's writer has
anything to do, though no full channel holds it up and its client takes what it is sent. -/
structure AtRest (k : Nat) (s : Service) : Prop where
  handler : ∀ budget, s.handlerStep? budget k = none
  writer : ∀ budget, s.writerStep? budget k = none
  free : ∀ h ∈ s.handlers[k]?, h.phase ≠ .idle ∧ s.holdsUp h = false
  taken : ∀ c ∈ s.connections[k]?, c.isStalled = false

/-- A thread that has to wait does so whatever it may read or write at once. -/
theorem atRest_iff : s.AtRest k ↔
    s.handlerStep? 0 k = none ∧ s.writerStep? 0 k = none ∧
      (∀ h ∈ s.handlers[k]?, h.phase ≠ .idle ∧ s.holdsUp h = false) ∧
      ∀ c ∈ s.connections[k]?, c.isStalled = false :=
  ⟨fun rest => ⟨rest.handler 0, rest.writer 0, rest.free, rest.taken⟩,
    fun ⟨handler, writer, free, taken⟩ =>
      ⟨fun _ => handlerStep?_eq_none handler, fun _ => writerStep?_eq_none writer, free, taken⟩⟩

instance : Decidable (s.AtRest k) := decidable_of_iff _ atRest_iff.symm

/-- What a handler tells when the client has left. -/
def farewell (unheard : Bool) (client : Nat) (requests : List Request) : List Event :=
  if unheard then [] else [.disconnected client requests.length]

/-- How a handler at rest that has forwarded these requests stands, with its connection, by
what its stream is and why it reads no more. -/
inductive Outcome (shut unheard : Bool) (client : Nat) (stream : Bytes) (requests : List Request)
    (events : List Event) (h : Handler) (c : Connection) : List Cause → Prop
  | waits : h.status = .waitsForBytes → c.inlet.ended = false →
      requests = (Request.readAll stream).1 → Request.offends stream = false → events = [] →
      Outcome shut unheard client stream requests events h c []
  | owes {cause : Cause} : h.status = .waitsForResponses → cause.cutsOff = false →
      c.inlet.ended = true → c.aborted = false → c.sent = c.next → c.next < requests.length →
      requests = (Request.readAll stream).1 → Request.offends stream = false → events = [] →
      Outcome shut unheard client stream requests events h c [cause]
  | refused : h.status = .ended → shut = true → requests = [] →
      (Request.readAll stream).1 ≠ [] → events = [] →
      Outcome shut unheard client stream requests events h c [.turnedAway]
  | leaves {cause : Cause} : h.status = .ended → c.inlet.ended = true →
      (cause.cutsOff = true → c.aborted = true) →
      requests = (Request.readAll stream).1 → Request.offends stream = cause.cutsOff →
      events = farewell unheard client requests →
      Outcome shut unheard client stream requests events h c [cause]

section Rest

variable {shut unheard : Bool}

/-- A handler that has ended for a client that has left has told it. -/
theorem LeftAlone.told (alone : LeftAlone k shut unheard past s h c)
    (handles : Handles k client past s h c requests) (hphase : h.phase = .ended) {cause : Cause}
    (hcauses : causesOf k past = [cause]) :
    emittedBy k past =
      if cause.ending = .disconnected then farewell unheard client requests else [] := by
  have htold := handles.told
  have huntold := alone.untold
  rw [alone.events, hcauses] at htold
  generalize emittedBy k past = events at htold huntold
  cases htold with
  | notYet hgoing => exact absurd hphase hgoing
  | silent _ hone hending =>
      cases hone
      rw [hending]
      rfl
  | lost _ hunheard => simp [farewell, hunheard]
  | reported _ hone hending =>
      cases hone
      have hheard : unheard = false := by
        rw [Bool.eq_false_iff]
        intro hunheard
        exact absurd (huntold hunheard) (List.cons_ne_nil _ _)
      rw [if_pos hending, farewell, hheard, handles.reads.counted]
      rfl

/-- A channel that is closed takes no ticket. -/
theorem LeftAlone.none_taken (alone : LeftAlone k shut unheard past s h c)
    (handles : Handles k client past s h c requests) (hshut : shut = true) : requests = [] := by
  rw [← List.length_eq_zero_iff, handles.reads.counted]
  exact alone.untaken hshut

/-- Why the reading of a handler has ended that nobody has stopped. -/
theorem LeftAlone.cause (alone : LeftAlone k shut unheard past s h c)
    (handles : Handles k client past s h c requests) {why : Handler.Ending}
    (hwhy : h.phase.IsPast why) :
    ∃ cause, causesOf k past = [cause] ∧ h.phase.IsPast cause.ending ∧
      (cause = .turnedAway ∧ shut = true ∧ requests = [] ∧
          (Request.readAll (streamOf k past)).1 ≠ [] ∨
        cause.ending = .disconnected ∧ c.inlet.ended = true ∧
          (cause.cutsOff = true → c.aborted = true) ∧
          requests = (Request.readAll (streamOf k past)).1 ∧
          Request.offends (streamOf k past) = cause.cutsOff) := by
  obtain ⟨read, rest, -, -, hstands⟩ := handles.reads.stands
  obtain ⟨cause, hcauses, hpast, hover⟩ := hstands.of_past hwhy
  have hreads := handles.reads
  rw [hcauses] at hreads
  have hexplains := hreads.explains
  have hended (habort : c.aborted = true) : c.inlet.ended = true :=
    alone.ended.mpr (Or.inl habort)
  refine ⟨cause, hcauses, hpast, ?_⟩
  cases hover with
  | stopped hstop =>
      rw [alone.unstopped] at hstop
      contradiction
  | turnedAway hclosed =>
      have hshut : shut = true := alone.inbound.symm.trans hclosed
      refine Or.inl ⟨rfl, hshut, alone.none_taken handles hshut, alone.refused ?_⟩
      rw [hcauses]
      exact List.mem_singleton_self _
  | streamEnd _ hover | tornFrame _ _ _ hover =>
      exact Or.inr ⟨rfl, hover, nofun, hexplains.read_out rfl⟩
  | badLength _ _ habort | badBody _ _ habort =>
      exact Or.inr ⟨rfl, hended habort, fun _ => habort, hexplains.read_out rfl⟩

/-- Once a handler that is left alone is at rest, it stands in one of four ways. -/
theorem LeftAlone.outcome (alone : LeftAlone k shut unheard past s h c)
    (handles : Handles k client past s h c requests) (rest : AtRest k s)
    (hh : s.handlers[k]? = some h) (hc : s.connections[k]? = some c) :
    Outcome shut unheard client (streamOf k past) requests (emittedBy k past) h c
      (causesOf k past) := by
  have hwaits := handler_waits hh hc (rest.handler 0)
  obtain ⟨hbusy, hfree⟩ := rest.free h (Option.mem_def.mpr hh)
  have hsilent (hgoing : h.phase ≠ .ended) : emittedBy k past = [] := by
    have htold := handles.told
    generalize emittedBy k past = events at htold
    cases htold with
    | notYet => rfl
    | silent hended | lost hended | reported hended => exact absurd hended hgoing
  cases hphase : h.phase with
  | idle => exact absurd hphase hbusy
  | forwarding request =>
      rw [hphase] at hwaits
      simp [holdsUp, hphase, hwaits.2] at hfree
  | finishing why =>
      rw [hphase] at hwaits
      exact hwaits.elim
  | reporting =>
      rw [hphase] at hwaits
      simp [holdsUp, hphase, hwaits.2] at hfree
  | reading reader =>
      rw [hphase] at hwaits
      obtain ⟨-, hdry, hopen⟩ := hwaits
      obtain ⟨left, hstands, -⟩ := handles.reads.readAll
      obtain ⟨hcauses, -, -⟩ := hstands.of_reading hphase
      rw [hcauses]
      exact .waits (by rw [Handler.status, hphase]) hopen
        (handles.reads.waiting hphase hdry).symm (handles.reads.not_offends hphase hdry)
        (hsilent (by simp [hphase]))
  | joining why =>
      rw [hphase] at hwaits
      have howes := handles.owes ⟨why, hphase⟩
      obtain ⟨hlive, hready, hempty, hmore⟩ :=
        Connection.writer_waits_with_room hwaits (rest.taken c (Option.mem_def.mpr hc))
          (writer_stuck hc (rest.writer 0))
      have hcount := handles.orderly.counted hlive
      rw [hready, hempty] at hcount
      -- The writer waits for a response, so one is owed.
      have hnext : c.next < requests.length := by
        rw [handles.reads.counted]
        simpa [Connection.isFinished, hempty, howes] using hmore
      have hpast : h.phase.IsPast why := by
        rw [hphase]
        rfl
      obtain ⟨cause, hcauses, -, hwhy⟩ := alone.cause handles hpast
      rw [hcauses]
      rcases hwhy with ⟨-, -, hnone, -⟩ | ⟨hending, hended, hcuts, hall, hoffends⟩
      · rw [hnone] at hnext
        exact absurd hnext (Nat.not_lt_zero _)
      · have hnot : cause.cutsOff = false := by
          rw [Bool.eq_false_iff]
          intro hcut
          rw [hcuts hcut] at hlive
          contradiction
        exact .owes (by rw [Handler.status, hphase]) hnot hended hlive hcount hnext hall
          (hoffends.trans hnot) (hsilent (by simp [hphase]))
  | ended =>
      have hpast : h.phase.IsPast .disconnected := by
        rw [hphase]
        trivial
      obtain ⟨cause, hcauses, -, hwhy⟩ := alone.cause handles hpast
      have htold := alone.told handles hphase hcauses
      have hstatus : h.status = .ended := by rw [Handler.status, hphase]
      rw [hcauses]
      rcases hwhy with ⟨rfl, hshut, hnone, hsome⟩ | ⟨hending, hended, hcuts, hall, hoffends⟩
      · exact .refused hstatus hshut hnone hsome htold
      · rw [if_pos hending] at htold
        exact .leaves hstatus hended hcuts hall hoffends htold

end Rest

end Service

end SearchDaemon
