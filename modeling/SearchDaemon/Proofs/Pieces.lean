import SearchDaemon.Proofs.LeftAlone

/-!
# Pieces of a stream

A client's bytes arrive in pieces, which may end inside a length, inside a body or behind a
bad frame, and a handler reads each as far as it goes. `upshot` computes what comes of a
client that is left alone from its whole stream; that a run ends so however the stream was
cut is the result of this module, and that two cuts make no difference follows.
-/

namespace SearchDaemon.Service

open Handler (Cause)

/-! ## Talks -/

/-- How a client goes on when it has written everything. -/
inductive Leave where
  | stays
  /-- It says that it will send no more. -/
  | finishes
  | closes
deriving DecidableEq, Repr

def Leave.acts (k : Nat) : Leave → List Act
  | .stays => []
  | .finishes => [.clientFinishes k]
  | .closes => [.clientCloses k]

/-- The acts by which a client writes pieces of its stream and takes leave. -/
def opening (k : Nat) (pieces : List Bytes) (leave : Leave) : List Act :=
  pieces.map (.clientWrites k) ++ leave.acts k

/-- The acts by which responses are delivered to a client. -/
def mail (k : Nat) (deliveries : List (Nat × Response)) : List Act :=
  deliveries.map fun p => .deliver k p.1 p.2

/-- A client that is left alone writes pieces of its stream, one after the other, and takes
leave. Its handler may run at any time and comes to rest in the end; then responses are
delivered to the client, and the handler comes to rest again. -/
inductive Talk (process : Processing) (s₀ : Service) (k : Nat) (pieces : List Bytes)
    (leave : Leave) (deliveries : List (Nat × Response)) :
    List (Moment Service Act) → Service → Prop
  | mk {early late : List (Moment Service Act)} {mid last : Service} :
      Run (act? process) s₀ early mid →
      doneTo k early = opening k pieces leave → mid.AtRest k →
      Run (act? process) mid late last → doneTo k late = mail k deliveries → last.AtRest k →
      Talk process s₀ k pieces leave deliveries (early ++ late) last

/-- What has come of a client. -/
structure Upshot where
  /-- The requests that its handler has forwarded, with their sequences. -/
  tickets : List Ticket
  aborted : Bool
  /-- What the handler has told the monitor. -/
  events : List Event
  status : Handler.Status
deriving DecidableEq, Repr

/-- What has come of the client at a position in a run. -/
def upshotOf (k : Nat) (past : List (Moment Service Act)) (s : Service) : Option Upshot :=
  match s.handlers[k]?, s.connections[k]? with
  | some h, some c =>
      some
        { tickets := putBy k past
          aborted := c.aborted
          events := emittedBy k past
          status := h.status }
  | _, _ => none

/-- What comes of a client that is left alone, by its whole stream, the way it takes leave and
the sequences it is delivered responses for. -/
def upshot (k client : Nat) (shut unheard : Bool) (stream : Bytes) (leave : Leave)
    (delivered : List Nat) : Upshot :=
  let requests := (Request.readAll stream).1
  let tickets := ticketsOf client k requests
  let events := farewell unheard client requests
  if shut && !requests.isEmpty then
    { tickets := [], aborted := false, events := [], status := .ended }
  else if Request.offends stream then { tickets, aborted := true, events, status := .ended }
  else
    match leave with
    | .stays => { tickets, aborted := false, events := [], status := .waitsForBytes }
    | .finishes =>
        if (List.range requests.length).all (· ∈ delivered) then
          { tickets, aborted := false, events, status := .ended }
        else { tickets, aborted := false, events := [], status := .waitsForResponses }
    | .closes =>
        -- The first response that is to be written cuts the client off.
        if requests.isEmpty then { tickets, aborted := false, events, status := .ended }
        else if 0 ∈ delivered then { tickets, aborted := true, events, status := .ended }
        else { tickets, aborted := false, events := [], status := .waitsForResponses }

theorem upshot_congr {k client : Nat} {shut unheard : Bool} {stream stream' : Bytes}
    {leave : Leave} {delivered : List Nat}
    (read : (Request.readAll stream).1 = (Request.readAll stream').1)
    (offends : Request.offends stream = Request.offends stream') :
    upshot k client shut unheard stream leave delivered =
      upshot k client shut unheard stream' leave delivered := by
  simp only [upshot, read, offends]

theorem upshot_not_busy {k client : Nat} {shut unheard : Bool} {stream : Bytes} {leave : Leave}
    {delivered : List Nat} :
    (upshot k client shut unheard stream leave delivered).status ≠ .busy := by
  unfold upshot
  cases leave <;> dsimp only <;> split_ifs <;> exact nofun

variable {process : Processing} {s s' s₀ : Service} {past later : List (Moment Service Act)}
  {k client : Nat} {h : Handler} {c : Connection} {requests : List Request} {act : Act}

/-! ## What arrives -/

/-- The bytes that a client writes by an act. -/
def Act.bytes : Act → Bytes
  | .clientWrites _ bs => bs
  | _ => []

theorem arrivedIn_aside (aside : act.isAside k = true) : arrivedIn k ⟨s, act, s'⟩ = [] := by
  cases act with
  | clientWrites i bs =>
      have hne : i ≠ k := by simpa [Act.isAside] using aside
      simp [arrivedIn, hne]
  | _ => rfl

/-- Nothing arrives where nothing is written. -/
theorem streamOf_eq_nil (silent : ∀ act ∈ doneTo k past, act.bytes = []) :
    streamOf k past = [] := by
  rw [streamOf, List.flatMap_eq_nil_iff]
  rintro ⟨s, act, s'⟩ hm
  cases haside : act.isAside k with
  | true => exact arrivedIn_aside haside
  | false =>
      have hdone : act ∈ doneTo k past :=
        List.mem_filter.mpr ⟨List.mem_map_of_mem hm, by rw [haside]; rfl⟩
      have hbytes := silent act hdone
      cases act with
      | clientWrites i bs =>
          rw [show bs = [] from hbytes]
          simp [arrivedIn]
      | _ => rfl

/-- Everything that has been written has arrived, or the client has been cut off for a bad
frame and what it has written since is lost. -/
def Arrived (k : Nat) (past : List (Moment Service Act)) (c : Connection) : Prop :=
  streamOf k past = (doneTo k past).flatMap Act.bytes ∨
    c.aborted = true ∧ Request.Malformed (streamOf k past) ∧
      streamOf k past <+: (doneTo k past).flatMap Act.bytes

section Arriving

variable {shut unheard : Bool} (only : ∀ act ∈ doneTo k past, ∃ bs, act = .clientWrites k bs)

include only

/-- A client that has only written so far is heard unless it has been cut off. -/
theorem LeftAlone.receiving (alone : LeftAlone k shut unheard past s h c) :
    c.clientGone = false ∧ c.isReceiving = !c.aborted := by
  have hno {act : Act} (hact : act ∈ doneTo k past) (hother : ∀ bs, act ≠ .clientWrites k bs) :
      False := by
    obtain ⟨bs, heq⟩ := only act hact
    exact hother bs heq
  have hpresent : c.clientGone = false := by
    rw [Bool.eq_false_iff]
    exact fun hgone => hno (alone.gone.mp hgone) nofun
  have hended : c.inlet.ended = c.aborted := by
    rw [Bool.eq_iff_iff, alone.ended]
    refine ⟨fun hover => ?_, Or.inl⟩
    rcases hover with habort | hfinished | hclosed
    · exact habort
    · exact (hno hfinished nofun).elim
    · exact (hno hclosed nofun).elim
  exact ⟨hpresent, by simp [Connection.isReceiving, hpresent, hended]⟩

theorem Arrived.written {bs : Bytes} (arrived : Arrived k past c)
    (alone : LeftAlone k shut unheard past s h c) (handles : Handles k client past s h c requests)
    (hc : s.connections[k]? = some c) :
    Arrived k (past ++ [⟨s, .clientWrites k bs, s'⟩]) (c.clientWrites bs) := by
  obtain ⟨hpresent, hreceiving⟩ := alone.receiving only
  have hcounts : (Act.clientWrites k bs).isAside k = false := by simp [Act.isAside]
  have harrived : arrivedIn k ⟨s, .clientWrites k bs, s'⟩ = if c.isReceiving then bs else [] := by
    simp [arrivedIn, hc]
  rw [Arrived, streamOf_snoc, doneTo_snoc, hcounts, if_neg Bool.false_ne_true, List.flatMap_append,
    List.flatMap_singleton, harrived, hreceiving, Connection.clientWrites_eq, hreceiving]
  cases habort : c.aborted with
  | true =>
      have hbad : Request.Malformed (streamOf k past) := by
        rcases alone.blamed habort with ⟨cause, hcause, hcuts⟩ | ⟨hgone, -⟩
        · exact handles.reads.malformed_of_cutsOff hcause hcuts
        · rw [hpresent] at hgone
          contradiction
      have hstart : streamOf k past <+: (doneTo k past).flatMap Act.bytes :=
        arrived.elim (fun heq => heq ▸ List.prefix_refl _) fun h => h.2.2
      rw [Bool.not_true, if_neg Bool.false_ne_true, if_neg Bool.false_ne_true, List.append_nil]
      exact Or.inr ⟨habort, hbad, hstart.trans (List.prefix_append _ _)⟩
  | false =>
      rcases arrived with heq | ⟨habort', -⟩
      · exact Or.inl (congrArg (· ++ bs) heq)
      · rw [habort] at habort'
        contradiction

end Arriving

/-- While a client does nothing but write, everything arrives as long as it is good. -/
theorem arrived_run (run : Run (act? process) s₀ past s) (hh : s₀.handlers[k]? = some {})
    (hc : s₀.connections[k]? = some { client, capacity })
    (only : ∀ act ∈ doneTo k past, ∃ bs, act = .clientWrites k bs) :
    ∃ c, s.connections[k]? = some c ∧ Arrived k past c := by
  induction run with
  | start => exact ⟨_, hc, Or.inl rfl⟩
  | @snoc past now next act run step ih =>
      have htalk (act' : Act) (hact' : act' ∈ doneTo k (past ++ [⟨now, act, next⟩])) :
          act'.isTalk k = true := by
        obtain ⟨bs, rfl⟩ := only act' hact'
        exact decide_eq_true rfl
      have hbefore (act' : Act) (hact' : act' ∈ doneTo k past) :=
        only act' (doneTo_subset hact')
      obtain ⟨c, hc', arrived⟩ := ih hbefore
      obtain ⟨h, c₁, hh₁, hc₁, alone⟩ :=
        leftAlone_run run hh hc fun act' hact' => htalk act' (doneTo_subset hact')
      cases hc'.symm.trans hc₁
      cases haside : act.isAside k with
      | true =>
          obtain ⟨h', c', -, hc'', onward⟩ :=
            onward_run run (Run.start.snoc step) hh hc htalk hh₁ hc₁
          refine ⟨c', hc'', ?_⟩
          rw [Arrived, streamOf_snoc, arrivedIn_aside haside, List.append_nil, doneTo_snoc,
            if_pos haside]
          exact arrived.imp_right fun ⟨habort, hbad⟩ => ⟨onward.aborted habort, hbad⟩
      | false =>
          obtain ⟨bs, rfl⟩ := only act ((mem_doneTo_snoc haside).mpr (Or.inr rfl))
          obtain ⟨h₂, c₂, requests, hh₂, hc₂, handles⟩ := handles_run run hh hc
          cases hh₁.symm.trans hh₂
          cases hc'.symm.trans hc₂
          cases step
          refine ⟨_, ?_, arrived.written hbefore alone handles hc'⟩
          rw [getElem?_onConnection hc', if_pos rfl]

theorem streamOf_append : streamOf k (past ++ later) = streamOf k past ++ streamOf k later := by
  simp [streamOf]

theorem exists_of_doneTo_append {done more : List Act} (h : doneTo k past = done ++ more) :
    ∃ first second, past = first ++ second ∧ doneTo k first = done ∧ doneTo k second = more := by
  obtain ⟨acts, acts', hacts, hfirst, hsecond⟩ := List.filter_eq_append_iff.mp h
  obtain ⟨first, second, hpast, rfl, rfl⟩ := List.map_eq_append_iff.mp hacts
  exact ⟨first, second, hpast, hfirst, hsecond⟩

/-- However its stream is cut, what arrives of it asks for the same and is as good. -/
theorem read_of_pieces {pieces : List Bytes} {leave : Leave} (run : Run (act? process) s₀ past s)
    (hh : s₀.handlers[k]? = some {}) (hc : s₀.connections[k]? = some { client, capacity })
    (done : doneTo k past = opening k pieces leave) :
    (Request.readAll (streamOf k past)).1 = (Request.readAll pieces.flatten).1 ∧
      Request.offends (streamOf k past) = Request.offends pieces.flatten := by
  obtain ⟨first, second, rfl, hwrites, hleaves⟩ := exists_of_doneTo_append done
  obtain ⟨mid, hfirst, -⟩ := run.of_append
  have hsilent : streamOf k second = [] := by
    apply streamOf_eq_nil
    intro act hact
    rw [hleaves] at hact
    cases leave <;> simp_all [Leave.acts, Act.bytes]
  have hwritten : (doneTo k first).flatMap Act.bytes = pieces.flatten := by
    rw [hwrites, List.flatMap_map, List.flatten_eq_flatMap]
    rfl
  obtain ⟨c, -, harrived⟩ := arrived_run hfirst hh hc fun act hact => by
    rw [hwrites] at hact
    obtain ⟨bs, -, rfl⟩ := List.mem_map.mp hact
    exact ⟨bs, rfl⟩
  rw [Arrived, hwritten] at harrived
  rw [streamOf_append, hsilent, List.append_nil]
  rcases harrived with heq | ⟨-, hbad, lost, hlost⟩
  · rw [heq]
    exact ⟨rfl, rfl⟩
  · obtain ⟨hsame, hoffends⟩ := hbad.readAll_append lost
    have hoffended := (hbad.readAll_append []).2
    rw [List.append_nil] at hoffended
    rw [← hlost, hsame, hoffends, hoffended]
    exact ⟨rfl, rfl⟩

/-! ## What is delivered -/

theorem mem_doneTo_of_acceptedBy {p : Nat × Response}
    (talk : ∀ act ∈ doneTo k past, act.isTalk k = true) (hp : p ∈ acceptedBy k past) :
    .deliver k p.1 p.2 ∈ doneTo k past := by
  obtain ⟨⟨s, act, s'⟩, hm, hp⟩ := List.mem_flatMap.mp hp
  have hmailed := mailed_of_deliveredIn (List.mem_of_mem_filter hp)
  have hdone (counts : act.isAside k = false) : act ∈ doneTo k past :=
    List.mem_filter.mpr ⟨List.mem_map_of_mem hm, by rw [counts]; rfl⟩
  rcases hmailed with rfl | ⟨i, -, -, rfl, -⟩
  · exact hdone (by simp [Act.isAside])
  · have htalk := talk _ (hdone rfl)
    contradiction

/-- Whatever sequence a connection has passed, a response has been delivered for it. -/
theorem Settles.delivered (settles : Settles k past h c)
    (talk : ∀ act ∈ doneTo k past, act.isTalk k = true) {i : Nat} (passed : i < c.next) :
    ∃ r, .deliver k i r ∈ doneTo k past := by
  obtain ⟨r, hr⟩ := settles.keeps.follows.passed i passed
  obtain ⟨before, after, haccepted, -⟩ := List.lookup_eq_some_iff.mp hr
  have hmem : (i, r) ∈ acceptedBy k past := by
    rw [haccepted]
    exact List.mem_append_right _ List.mem_cons_self
  exact ⟨r, mem_doneTo_of_acceptedBy talk hmem⟩

/-! ## What comes of a client -/

/-- What the connection of a client that is left alone owes to its leave and to what it has
been delivered, for the requests its handler has forwarded. -/
structure Concludes (leave : Leave) (delivered : List Nat) (causes : List Cause)
    (requests : List Request) (c : Connection) : Prop where
  orderly : c.Orderly
  ended : c.inlet.ended = true ↔ c.aborted = true ∨ leave ≠ .stays
  passed : ∀ i < c.next, i ∈ delivered
  answered : c.aborted = false → ∀ i ∈ delivered, c.isAnswered i = true
  /-- A client that has gone away is sent nothing. -/
  unsent : leave = .closes → c.aborted = false → c.sent = 0
  /-- A client that does not go wrong is cut off only when it is owed a response and has gone
  away, and a response is there. -/
  spared : (∀ cause ∈ causes, cause.cutsOff = false) → c.aborted = true →
    leave = .closes ∧ requests ≠ [] ∧ 0 ∈ delivered

section Concludes

variable {leave : Leave} {delivered : List Nat} {causes : List Cause}

/-- A live connection whose writer waits for a response has been delivered none for it. -/
theorem Concludes.owing (concludes : Concludes leave delivered causes requests c)
    (ended : c.inlet.ended = true) (live : c.aborted = false) (written : c.sent = c.next)
    (owed : c.next < requests.length) :
    leave ≠ .stays ∧ (List.range requests.length).all (· ∈ delivered) = false ∧
      (leave = .closes → 0 ∉ delivered) := by
  have hmissing : c.next ∉ delivered := by
    intro hnext
    have hanswered := concludes.answered live c.next hnext
    rw [concludes.orderly.next_unanswered] at hanswered
    contradiction
  refine ⟨?_, ?_, ?_⟩
  · refine (concludes.ended.mp ended).resolve_left ?_
    rw [live]
    exact Bool.false_ne_true
  · rw [List.all_eq_false]
    exact ⟨c.next, List.mem_range.mpr owed, by simpa using hmissing⟩
  · intro hcloses
    rw [← concludes.unsent hcloses live, written]
    exact hmissing

/-- A client that leaves and has done nothing wrong has been sent everything it was owed, or
has gone away and is cut off as soon as it is sent anything. -/
theorem Concludes.parting (concludes : Concludes leave delivered causes requests c)
    (ended : c.inlet.ended = true) (good : ∀ cause ∈ causes, cause.cutsOff = false)
    (flushed : c.aborted = false → requests.length ≤ c.sent) :
    leave ≠ .stays ∧
      (leave = .finishes → c.aborted = false ∧
        (List.range requests.length).all (· ∈ delivered) = true) ∧
      (leave = .closes → if requests = [] then c.aborted = false
        else c.aborted = true ∧ 0 ∈ delivered) := by
  have hspared := concludes.spared good
  refine ⟨?_, ?_, ?_⟩
  · rcases concludes.ended.mp ended with habort | hleft
    · simp [(hspared habort).1]
    · exact hleft
  · rintro rfl
    have hlive : c.aborted = false := by
      rw [Bool.eq_false_iff]
      intro habort
      have hcloses := (hspared habort).1
      contradiction
    refine ⟨hlive, ?_⟩
    have hcount := concludes.orderly.counted hlive
    have hwritten := flushed hlive
    rw [List.all_eq_true]
    intro i hi
    rw [List.mem_range] at hi
    exact decide_eq_true (concludes.passed i (by omega))
  · intro hcloses
    cases haborted : c.aborted with
    | true =>
        obtain ⟨-, hsome, hfirst⟩ := hspared haborted
        rw [if_neg hsome]
        exact ⟨rfl, hfirst⟩
    | false =>
        -- A live client that has gone away has been sent nothing, so nothing was owed.
        have hwritten := flushed haborted
        rw [concludes.unsent hcloses haborted, Nat.le_zero, List.length_eq_zero_iff] at hwritten
        rw [if_pos hwritten]

theorem Concludes.upshot {shut unheard : Bool} {stream : Bytes} {events : List Event}
    (concludes : Concludes leave delivered causes requests c)
    (outcome : Outcome shut unheard client stream requests events h c causes)
    (flushed : h.status = .ended → c.aborted = false → requests.length ≤ c.sent)
    (untaken : shut = true → requests = []) :
    { tickets := ticketsOf client k requests, aborted := c.aborted, events, status := h.status } =
      upshot k client shut unheard stream leave delivered := by
  have hshut : (shut && !requests.isEmpty) = false := by
    cases shut with
    | true => simp [untaken rfl]
    | false => rfl
  cases outcome with
  | waits hstatus hopen hall hoffends hsilent =>
      have hno : ¬(c.aborted = true ∨ leave ≠ .stays) := by
        rw [← concludes.ended, hopen]
        exact Bool.false_ne_true
      obtain ⟨hlive, hstays⟩ := not_or.mp hno
      rw [not_not] at hstays
      rw [Bool.not_eq_true] at hlive
      simp [Service.upshot, ← hall, hshut, hoffends, hstays, hlive, hstatus, hsilent]
  | owes hstatus hcuts hended hlive hsent hnext hall hoffends hsilent =>
      obtain ⟨hleft, hmissing, hfirst⟩ := concludes.owing hended hlive hsent hnext
      have hsome : requests ≠ [] := List.ne_nil_of_length_pos (Nat.zero_lt_of_lt hnext)
      cases leave with
      | stays => contradiction
      | finishes =>
          simp [Service.upshot, ← hall, hshut, hoffends, hlive, hstatus, hsilent, hmissing]
      | closes =>
          simp [Service.upshot, ← hall, hshut, hoffends, hlive, hstatus, hsilent, hsome, hfirst]
  | refused hstatus hclosed hnone hsome hsilent =>
      have hlive : c.aborted = false := by
        rw [Bool.eq_false_iff]
        intro habort
        obtain ⟨-, hrequests, -⟩ := concludes.spared (by simp [Cause.cutsOff]) habort
        exact hrequests hnone
      simp [Service.upshot, hclosed, hsome, hnone, hlive, hstatus, hsilent, ticketsOf]
  | @leaves cause hstatus hended hcuts hall hoffends htold =>
      cases hcut : cause.cutsOff with
      | true =>
          rw [hcut] at hoffends
          simp [Service.upshot, ← hall, hshut, hoffends, hcuts hcut, hstatus, htold]
      | false =>
          rw [hcut] at hoffends
          obtain ⟨hleft, hfinished, hclosed⟩ :=
            concludes.parting hended (by simpa using hcut) (flushed hstatus)
          cases leave with
          | stays => contradiction
          | finishes =>
              obtain ⟨hlive, hevery⟩ := hfinished rfl
              simp [Service.upshot, ← hall, hshut, hoffends, hlive, hstatus, htold, hevery]
          | closes =>
              have hend := hclosed rfl
              split at hend
              · rename_i hnone
                simp [Service.upshot, ← hall, hoffends, hstatus, htold, hnone, hend]
              · rename_i hsome
                simp [Service.upshot, ← hall, hshut, hoffends, hstatus, htold, hsome, hend]

end Concludes

/-- A handler at rest that is left alone, with all that is known of it. -/
structure Rests (k client : Nat) (shut unheard : Bool) (past : List (Moment Service Act))
    (s : Service) (h : Handler) (c : Connection) (requests : List Request) : Prop where
  handler : s.handlers[k]? = some h
  connection : s.connections[k]? = some c
  handles : Handles k client past s h c requests
  settles : Settles k past h c
  alone : LeftAlone k shut unheard past s h c
  outcome : Outcome shut unheard client (streamOf k past) requests (emittedBy k past) h c
    (causesOf k past)

theorem rests_run (run : Run (act? process) s₀ past s) (hh : s₀.handlers[k]? = some {})
    (hc : s₀.connections[k]? = some { client, capacity })
    (talk : ∀ act ∈ doneTo k past, act.isTalk k = true) (rest : s.AtRest k) :
    ∃ h c requests,
      Rests k client s₀.inbound.closed s₀.events.closed past s h c requests := by
  obtain ⟨h, c, requests, hh', hc', handles⟩ := handles_run run hh hc
  obtain ⟨h₁, c₁, hh₁, hc₁, settles⟩ := settles_run run hh hc
  cases hh'.symm.trans hh₁
  cases hc'.symm.trans hc₁
  obtain ⟨h₂, c₂, hh₂, hc₂, alone⟩ := leftAlone_run run hh hc talk
  cases hh'.symm.trans hh₂
  cases hc'.symm.trans hc₂
  exact ⟨h, c, requests, hh', hc', handles, settles, alone,
    alone.outcome handles rest hh' hc'⟩

/-! ## The acts of a talk -/

section Talk

variable {shut unheard : Bool} {pieces : List Bytes} {leave : Leave}
  {deliveries : List (Nat × Response)} {early late : List (Moment Service Act)}
  {mid last : Service} {h₀ : Handler} {c₀ : Connection} {requests₀ : List Request}

theorem closes_mem_opening : .clientCloses k ∈ opening k pieces leave ↔ leave = .closes := by
  cases leave <;> simp [opening, Leave.acts]

theorem finishes_mem_opening :
    .clientFinishes k ∈ opening k pieces leave ↔ leave = .finishes := by
  cases leave <;> simp [opening, Leave.acts]

theorem deliver_not_mem_opening {i : Nat} {r : Response} :
    .deliver k i r ∉ opening k pieces leave := by
  cases leave <;> simp [opening, Leave.acts]

theorem mem_mail : act ∈ mail k deliveries ↔ ∃ p ∈ deliveries, .deliver k p.1 p.2 = act := by
  simp [mail]

theorem isTalk_of_mem_opening (hact : act ∈ opening k pieces leave) : act.isTalk k = true := by
  rcases List.mem_append.mp hact with hact | hact
  · obtain ⟨bs, -, rfl⟩ := List.mem_map.mp hact
    exact decide_eq_true rfl
  · cases leave <;> simp_all [Leave.acts, Act.isTalk]

theorem isTalk_of_mem_mail (hact : act ∈ mail k deliveries) : act.isTalk k = true := by
  obtain ⟨p, -, rfl⟩ := mem_mail.mp hact
  exact decide_eq_true rfl

theorem isTalk_of_mem (opens : doneTo k early = opening k pieces leave)
    (mailed : doneTo k late = mail k deliveries) :
    ∀ act ∈ doneTo k (early ++ late), act.isTalk k = true := by
  intro act hact
  rw [doneTo_append, opens, mailed] at hact
  exact (List.mem_append.mp hact).elim isTalk_of_mem_opening isTalk_of_mem_mail

/-! ## From one rest to the next -/

/-- Before anything is delivered no sequence is passed. -/
theorem Rests.next_eq_zero (rests : Rests k client shut unheard early mid h₀ c₀ requests₀)
    (opens : doneTo k early = opening k pieces leave) : c₀.next = 0 := by
  by_contra hnext
  obtain ⟨r, hdelivered⟩ := rests.settles.delivered
    (fun act hact => isTalk_of_mem_opening (opens ▸ hact)) (Nat.pos_of_ne_zero hnext)
  rw [opens] at hdelivered
  exact deliver_not_mem_opening hdelivered

/-- What is forwarded at one rest is forwarded at the next. -/
theorem Rests.length_le (first : Rests k client shut unheard early mid h₀ c₀ requests₀)
    (second : Rests k client shut unheard (early ++ late) last h c requests) :
    requests₀.length ≤ requests.length := by
  rw [first.handles.reads.counted, second.handles.reads.counted,
    ← first.handles.length_putBy, ← second.handles.length_putBy, putBy, putBy,
    List.flatMap_append, List.length_append]
  exact Nat.le_add_right _ _

/-- A client that has gone away and has done nothing wrong is cut off only if it is owed
something. -/
theorem Rests.owed (first : Rests k client shut unheard early mid h₀ c₀ requests₀)
    (second : Rests k client shut unheard (early ++ late) last h c requests)
    (onward : Onward h₀ c₀ h c) (opens : doneTo k early = opening k pieces .closes)
    (good : ∀ cause ∈ causesOf k (early ++ late), cause.cutsOff = false)
    (aborted : c.aborted = true) : requests ≠ [] := by
  have hclosed : c₀.inlet.ended = true :=
    first.alone.ended.mpr (Or.inr (Or.inr (opens ▸ closes_mem_opening.mpr rfl)))
  -- A handler that has ended by the first rest leaves nobody to cut the client off later.
  have hgoing (hstatus : h₀.status = .ended) : False := by
    have hended := Handler.phase_of_status hstatus
    obtain ⟨-, -, hsame⟩ := onward.ended hended (first.alone.joined (Or.inr hended))
    rcases first.alone.blamed (hsame.symm.trans aborted) with ⟨cause, hcause, hcuts⟩ | ⟨-, hpassed⟩
    · have hcause' : cause ∈ causesOf k (early ++ late) := by
        rw [causesOf, List.flatMap_append]
        exact List.mem_append_left _ hcause
      rw [good cause hcause'] at hcuts
      contradiction
    · rw [first.next_eq_zero opens] at hpassed
      exact Nat.lt_irrefl 0 hpassed
  have houtcome := first.outcome
  generalize causesOf k early = causes at houtcome
  cases houtcome with
  | waits _ hopen =>
      rw [hclosed] at hopen
      contradiction
  | owes _ _ _ _ _ hnext =>
      have hle := first.length_le second
      exact List.ne_nil_of_length_pos (by omega)
  | refused hstatus | leaves hstatus => exact (hgoing hstatus).elim

theorem Rests.concludes (first : Rests k client shut unheard early mid h₀ c₀ requests₀)
    (second : Rests k client shut unheard (early ++ late) last h c requests)
    (onward : Onward h₀ c₀ h c) (opens : doneTo k early = opening k pieces leave)
    (mailed : doneTo k late = mail k deliveries) :
    Concludes leave (deliveries.map Prod.fst) (causesOf k (early ++ late)) requests c := by
  have hcloses : .clientCloses k ∈ doneTo k (early ++ late) ↔ leave = .closes := by
    rw [doneTo_append, opens, mailed, List.mem_append, closes_mem_opening, mem_mail]
    simp
  have hfinishes : .clientFinishes k ∈ doneTo k (early ++ late) ↔ leave = .finishes := by
    rw [doneTo_append, opens, mailed, List.mem_append, finishes_mem_opening, mem_mail]
    simp
  have hdelivers {i : Nat} {r : Response} :
      .deliver k i r ∈ doneTo k (early ++ late) ↔ (i, r) ∈ deliveries := by
    rw [doneTo_append, opens, mailed, List.mem_append, or_iff_right deliver_not_mem_opening,
      mem_mail]
    simp
  have hpassed (i : Nat) (hi : i < c.next) : i ∈ deliveries.map Prod.fst := by
    obtain ⟨r, hr⟩ := second.settles.delivered (isTalk_of_mem opens mailed) hi
    exact List.mem_map.mpr ⟨(i, r), hdelivers.mp hr, rfl⟩
  refine
    { orderly := second.handles.orderly
      ended := ?ended
      passed := hpassed
      answered := ?answered
      unsent := ?unsent
      spared := ?spared }
  case ended =>
    rw [second.alone.ended, hcloses, hfinishes]
    cases leave <;> simp
  case answered =>
    intro hlive i hi
    obtain ⟨⟨i, r⟩, hp, rfl⟩ := List.mem_map.mp hi
    exact second.alone.answered hlive i r (hdelivers.mpr hp)
  case unsent =>
    rintro rfl hlive
    have hgone : c₀.clientGone = true :=
      first.alone.gone.mpr (opens ▸ closes_mem_opening.mpr rfl)
    have hlive₀ : c₀.aborted = false := by
      rw [Bool.eq_false_iff]
      intro habort
      rw [onward.aborted habort] at hlive
      contradiction
    have hcount := first.handles.orderly.counted hlive₀
    rw [first.next_eq_zero opens] at hcount
    rw [(onward.sent hgone).2]
    omega
  case spared =>
    intro hgood habort
    rcases second.alone.blamed habort with ⟨cause, hcause, hcuts⟩ | ⟨hgone, hnext⟩
    · rw [hgood cause hcause] at hcuts
      contradiction
    · obtain rfl := hcloses.mp (second.alone.gone.mp hgone)
      exact ⟨rfl, first.owed second onward opens hgood habort, hpassed 0 hnext⟩

/-- What comes of a client that is left alone is computed from its whole stream. -/
theorem Talk.upshot (talk : Talk process s₀ k pieces leave deliveries past s)
    (hh : s₀.handlers[k]? = some {}) (hc : s₀.connections[k]? = some { client, capacity }) :
    upshotOf k past s =
      some (upshot k client s₀.inbound.closed s₀.events.closed pieces.flatten leave
        (deliveries.map Prod.fst)) := by
  cases talk with
  | @mk early late mid _ run opens rest run' mailed rest' =>
      have htalk := isTalk_of_mem opens mailed
      obtain ⟨h₀, c₀, requests₀, first⟩ :=
        rests_run run hh hc (fun act hact => htalk act (doneTo_subset hact)) rest
      obtain ⟨h, c, requests, second⟩ := rests_run (run.append run') hh hc htalk rest'
      obtain ⟨h₁, c₁, hh₁, hc₁, onward⟩ :=
        onward_run run run' hh hc htalk first.handler first.connection
      cases second.handler.symm.trans hh₁
      cases second.connection.symm.trans hc₁
      have hsilent : streamOf k late = [] := by
        apply streamOf_eq_nil
        intro act hact
        rw [mailed] at hact
        obtain ⟨p, -, rfl⟩ := mem_mail.mp hact
        rfl
      have hstream : streamOf k (early ++ late) = streamOf k early := by
        rw [streamOf_append, hsilent, List.append_nil]
      obtain ⟨hread, hoffends⟩ := read_of_pieces run hh hc opens
      have hconcludes := (first.concludes second onward opens mailed).upshot (k := k) second.outcome
        (fun hstatus hlive => ?_) (second.alone.none_taken second.handles)
      · rw [hstream, upshot_congr hread hoffends] at hconcludes
        rw [upshotOf, second.handler, second.connection, second.handles.put, ← hconcludes]
      · rw [second.handles.reads.counted]
        exact second.settles.flushed (Or.inr (Handler.phase_of_status hstatus)) hlive

end Talk

/-- **How a stream is cut makes no difference.** Two clients write the same stream to the same
service, each in pieces of its own, and take leave in the same way or stay; their handlers run
at any time in between. Once they are at rest the same responses are delivered to both. When
they are at rest again, both handlers have forwarded the same requests with the same sequences
and told the monitor the same, both connections are aborted or neither is, and both handlers
wait for bytes, wait for responses or have ended. -/
theorem cutting_makes_no_difference {pieces pieces' : List Bytes} {leave : Leave}
    {deliveries : List (Nat × Response)} {past' : List (Moment Service Act)}
    (talk : Talk process s₀ k pieces leave deliveries past s)
    (talk' : Talk process s₀ k pieces' leave deliveries past' s')
    (same : pieces.flatten = pieces'.flatten) (hh : s₀.handlers[k]? = some {})
    (hc : s₀.connections[k]? = some { client, capacity }) :
    ∃ u, upshotOf k past s = some u ∧ upshotOf k past' s' = some u ∧ u.status ≠ .busy := by
  refine ⟨_, talk.upshot hh hc, ?_, ?_⟩
  · rw [talk'.upshot hh hc, same]
  · exact upshot_not_busy

/-- A client asks for one thing and then announces a frame of length zero. In one run its
bytes come in three pieces, cut inside the first length, and the last of them behind the
abort; in the other they come at once. -/
theorem cutting_makes_no_difference_bad_length :
    let s₀ : Service := { connections := [{ client := 7 }], handlers := [{}] }
    let process : Processing := fun t => (.answer (.ok t.request.id), [])
    let asks : Bytes := Frame.encode (Message.ofRequest ⟨3, .create⟩).encode
    let pieces : List Bytes := [asks.take 5, asks.drop 5 ++ .replicate 8 0, [1, 2]]
    let pieces' : List Bytes := [asks ++ .replicate 8 0 ++ [1, 2]]
    ∃ past s past' s', Talk process s₀ 0 pieces .finishes [(0, .ok 3)] past s ∧
      Talk process s₀ 0 pieces' .finishes [(0, .ok 3)] past' s' ∧
      pieces.flatten = pieces'.flatten ∧
      upshotOf 0 past s = some
        { tickets := [{ client := 7, request := ⟨3, .create⟩, connection := some 0 }]
          aborted := true
          events := [.disconnected 7 1]
          status := .ended } ∧
      ∃ u, upshotOf 0 past s = some u ∧ upshotOf 0 past' s' = some u ∧ u.status ≠ .busy := by
  intro s₀ process asks pieces pieces'
  let u : Upshot :=
    { tickets := [{ client := 7, request := ⟨3, .create⟩, connection := some 0 }]
      aborted := true
      events := [.disconnected 7 1]
      status := .ended }
  have htalk (pieces : List Bytes) (acts : List Act)
      (hperform : ((perform? (act? process) s₀ acts).bind fun p =>
        (perform? (act? process) p.2 [.deliver 0 0 (.ok 3)]).map fun q => (p, q)).map
        (fun (r : (List (Moment Service Act) × Service) × List (Moment Service Act) × Service) =>
          decide (doneTo 0 r.1.1 = opening 0 pieces .finishes ∧ r.1.2.AtRest 0 ∧
            doneTo 0 r.2.1 = mail 0 [(0, .ok 3)] ∧ r.2.2.AtRest 0 ∧
            upshotOf 0 (r.1.1 ++ r.2.1) r.2.2 = some u)) = some true) :
      ∃ past s, Talk process s₀ 0 pieces .finishes [(0, .ok 3)] past s ∧
        upshotOf 0 past s = some u := by
    obtain ⟨⟨⟨early, mid⟩, late, last⟩, hboth, hshows⟩ := Option.map_eq_some_iff.mp hperform
    obtain ⟨opens, hrest, mailed, hrest', hupshot⟩ := of_decide_eq_true hshows
    obtain ⟨_, hfirst, hthen⟩ := Option.bind_eq_some_iff.mp hboth
    obtain ⟨_, hsecond, heq⟩ := Option.map_eq_some_iff.mp hthen
    cases heq
    exact ⟨_, _, .mk (Run.of_perform? hfirst) opens hrest (Run.of_perform? hsecond) mailed hrest',
      hupshot⟩
  let reads : List Act := [.step (.handler 0 100), .step (.handler 0 0)]
  let ends : List Act :=
    reads ++ [.step (.writer 0 0), .step (.handler 0 0), .step (.handler 0 0)]
  obtain ⟨past, s, talk, hupshot⟩ := htalk pieces
    ([.start 0, .clientWrites 0 (asks.take 5), .step (.handler 0 100),
      .clientWrites 0 (asks.drop 5 ++ .replicate 8 0)] ++ reads ++ ends ++
      [.clientWrites 0 [1, 2], .clientFinishes 0]) (by decide +kernel)
  obtain ⟨past', s', talk', -⟩ := htalk pieces'
    ([.start 0, .clientWrites 0 (asks ++ .replicate 8 0 ++ [1, 2]),
      .clientFinishes 0] ++ reads ++ ends) (by decide +kernel)
  have hsame : pieces.flatten = pieces'.flatten := by decide +kernel
  exact ⟨past, s, past', s', talk, talk', hsame, hupshot,
    cutting_makes_no_difference talk talk' hsame rfl rfl⟩

end SearchDaemon.Service
