import SearchDaemon.Proofs.Losses

/-!
# Clients do not harm each other

The standard processor has an answer to every request, a bad pattern and a missing directory
included, so no worker dies of one. What is left to harm a client is its own stream and its
own socket. `Watched` is the invariant: an aborted connection has one of the two to blame. It
follows that what a harmless client is sent depends on nobody else.
-/

namespace SearchDaemon

/-- Behind the frames of some requests comes a length that no frame has, or a frame whose body
is no request. -/
inductive Request.Malformed : Bytes → Prop
  | badLength {requests : List Request} {read digits rest : Bytes} :
      Request.Frames requests read → digits.length = Frame.lengthSize →
      Frame.isInvalidLength (ofBigEndian digits) = true →
      Request.Malformed (read ++ (digits ++ rest))
  | badBody {requests : List Request} {read body rest : Bytes} {e : DecodeError} :
      Request.Frames requests read → Frame.isInvalidLength body.length = false →
      Request.decode body = .error e → Request.Malformed (read ++ (Frame.encode body ++ rest))

/-- Whatever follows, the stream stays as bad. -/
theorem Request.Malformed.append {stream : Bytes} (h : Request.Malformed stream)
    (more : Bytes) : Request.Malformed (stream ++ more) := by
  cases h with
  | badLength hframes hdigits hinvalid =>
      rw [List.append_assoc, List.append_assoc]
      exact .badLength hframes hdigits hinvalid
  | badBody hframes hvalid herror =>
      rw [List.append_assoc, List.append_assoc]
      exact .badBody hframes hvalid herror

/-- A stream of nothing but the frames of requests is good. -/
theorem Request.Frames.not_malformed {requests : List Request} {stream : Bytes}
    (frames : Request.Frames requests stream) : ¬Request.Malformed stream := by
  -- A stream of frames is read to its end, a bad one is not.
  have hall := frames.readAll_append []
  have hnil : Request.readAll [] = ([], []) := Request.readAll_of_not_frame nofun
  rw [List.append_nil, hnil] at hall
  have hstuck {read rest : Bytes} {rs : List Request} (hframes : Request.Frames rs read)
      (hsome : Frame.next rest ≠ .closed) (hno : ∀ body after, Frame.next rest = .frame body after →
        ∃ e, Request.decode body = .error e)
      (hread : (Request.readAll (read ++ rest)).2 = []) : False := by
    rw [hframes.readAll_append, Request.readAll_of_not_frame hno] at hread
    rw [show rest = [] from hread] at hsome
    exact hsome rfl
  intro hbad
  cases hbad with
  | @badLength _ _ digits rest hframes hdigits hinvalid =>
      have hnext : Frame.next (digits ++ rest) = .invalid _ rest :=
        Frame.next_invalid hdigits hinvalid
      refine hstuck hframes ?_ ?_ (by rw [hall])
      · rw [hnext]
        exact nofun
      · intro body after hframe
        rw [hnext] at hframe
        contradiction
  | @badBody _ _ body rest e hframes hvalid herror =>
      have hnext : Frame.next (Frame.encode body ++ rest) = .frame body rest :=
        Frame.next_encode_append hvalid
      refine hstuck hframes ?_ ?_ (by rw [hall])
      · rw [hnext]
        exact nofun
      · intro body after hframe
        rw [hnext] at hframe
        cases hframe
        exact ⟨e, herror⟩

/-- Whatever is asked, the standard processor has an answer. -/
theorem Processor.standard_answers (tree : FileTree) (cwd : Place) (t : Ticket) :
    succeeds (Processor.standard tree cwd).processing t = true := by
  unfold succeeds responseTo Processor.processing Processor.standard
  cases htask : t.request.task <;> simp [htask]

/-- The writer is in the middle of a frame and its client has gone away. -/
def Connection.failsToWrite (c : Connection) : Bool :=
  !c.aborted && c.clientGone &&
    match c.writer with
    | .writing _ => true
    | _ => false

namespace Handler

variable {stream : Bytes} {causes : List Cause} {closed : Bool} {h h' : Handler}
  {c c' : Connection} {requests : List Request} {k : Nat} {s : Service} {tickets : List Ticket}
  {told : List Event}

/-- The client is cut off for it. -/
def Cause.cutsOff : Cause → Bool
  | .badLength | .badBody => true
  | .stopped | .turnedAway | .streamEnd | .tornFrame => false

theorem Reads.malformed_of_cutsOff {cause : Cause}
    (reads : Reads stream causes closed h c requests) (hcause : cause ∈ causes)
    (cuts : cause.cutsOff = true) : Request.Malformed stream := by
  obtain ⟨read, rest, hframes, rfl, hstands⟩ := reads.stands
  cases hstands with
  | past _ hover =>
      cases List.mem_singleton.mp hcause
      cases hover with
      | badLength hdigits hinvalid => exact .badLength hframes hdigits hinvalid
      | badBody hvalid herror => exact .badBody hframes hvalid herror
      | _ => contradiction
  | _ => contradiction

/-- A handler cuts its connection off for a bad frame only. -/
theorem Reads.cutsOff (reads : Reads stream causes closed h c requests)
    (step : Service.Handled s k h c h' c' tickets told) (live : c.aborted = false)
    (cut : c'.aborted = true) : ∃ cause ∈ h.causes h' c, cause.cutsOff = true := by
  obtain ⟨read, rest, -, -, hstands⟩ := reads.stands
  cases step with
  | @rejects reader _ later body rest _ hphase hgo hsplit htake =>
      obtain ⟨-, hinside, -⟩ := hstands.of_reading hphase
      obtain ⟨hvalid, hbytes⟩ := Frame.take_frame hinside htake
      have hrest : reader.bytes ++ c.inlet.unread = Frame.encode body ++ (rest ++ later) := by
        rw [hsplit, ← List.append_assoc, hbytes, List.append_assoc]
      refine ⟨.badBody, ?_, rfl⟩
      simp [Handler.causes, hphase, hgo, hrest, Frame.next_encode_append hvalid, Cause.ofReading]
  | @objects reader _ later rest _ hphase hgo hsplit htake =>
      obtain ⟨-, hinside, -⟩ := hstands.of_reading hphase
      obtain ⟨digits, hlength, rfl, hinvalid, hbytes⟩ := Frame.take_invalid hinside htake
      have hrest : reader.bytes ++ c.inlet.unread = digits ++ (rest ++ later) := by
        rw [hsplit, ← List.append_assoc, hbytes, List.append_assoc]
      refine ⟨.badLength, ?_, rfl⟩
      simp [Handler.causes, hphase, hgo, hrest, Frame.next_invalid hlength hinvalid,
        Cause.ofReading]
  | _ =>
      rw [show c.aborted = true from cut] at live
      contradiction

/-- A handler cuts its connection off for nothing but its stream. -/
theorem Reads.malformed (reads : Reads stream causes s.inbound.closed h c requests)
    (step : Service.Handled s k h c h' c' tickets told) (live : c.aborted = false)
    (cut : c'.aborted = true) : Request.Malformed stream := by
  obtain ⟨cause, hcause, hcuts⟩ := reads.cutsOff step live cut
  obtain ⟨more, -, hreads⟩ := reads.handled step
  exact hreads.malformed_of_cutsOff (List.mem_append_right _ hcause) hcuts

end Handler

namespace Service

/-! ## Before the stop -/

/-- What can happen to a service before it is stopped: its threads and its clients act, and
somebody may ask for a shutdown. -/
def unstopped? (process : Processing) (s : Service) : Option Act → Option Service
  | some act => if act.isOrdinary then s.act? process act else none
  | none => some s.requestShutdown

/-- What the threads and the clients have done. -/
def deeds (past : List (Moment Service (Option Act))) : List (Moment Service Act) :=
  past.filterMap fun m => m.act.map fun act => ⟨m.before, act, m.after⟩

/-- The writer of a connection finds that its client has gone away. -/
def failedWriteIn (k : Nat) (m : Moment Service Act) : Bool :=
  match m.act with
  | .step (.writer i _) => i = k && (m.before.connections[k]?).any (·.failsToWrite)
  | _ => false

def failedWrite (k : Nat) (past : List (Moment Service Act)) : Bool := past.any (failedWriteIn k)

variable {process : Processing} {s s' : Service} {act : Act} {past : List (Moment Service Act)}
  {m : Moment Service Act} {k n : Nat} {c c' : Connection} {t : Ticket}

theorem failedWrite_snoc :
    failedWrite k (past ++ [m]) = (failedWrite k past || failedWriteIn k m) := by
  simp [failedWrite]

theorem gone_of_failedWriteIn (failed : failedWriteIn k m = true) :
    ∃ c, m.before.connections[k]? = some c ∧ c.clientGone = true := by
  unfold failedWriteIn at failed
  split at failed
  · rw [Bool.and_eq_true, Option.any_eq_true] at failed
    obtain ⟨-, c, hc, hfails⟩ := failed
    simp only [Connection.failsToWrite, Bool.and_eq_true] at hfails
    exact ⟨c, hc, hfails.1.2⟩
  · contradiction

/-! ## One step -/

/-- A client does nothing that aborts a connection. -/
theorem live_onConnection {i : Nat} {f : Connection → Connection}
    (hc : s.connections[k]? = some c) (hc' : (s.onConnection i f).connections[k]? = some c')
    (same : (f c).aborted = c.aborted) : c'.aborted = c.aborted := by
  rw [getElem?_onConnection hc] at hc'
  cases hc'
  split
  · exact same
  · rfl

/-- Outside the pool, a connection is aborted for its own stream or its own socket. -/
theorem Tended.blames_itself (tended : Tended process past s) (ordinary : act.isOrdinary = true)
    (others : act.isOfPool = false) (step : s.act? process act = some s')
    (hc : s.connections[k]? = some c) (hc' : s'.connections[k]? = some c')
    (live : c.aborted = false) (cut : c'.aborted = true) :
    Request.Malformed (streamOf k past) ∨ failedWriteIn k ⟨s, act, s'⟩ = true := by
  have hsame (h : c'.aborted = c.aborted) : False := by
    rw [h, live] at cut
    contradiction
  have hkept (h : s'.connections[k]? = some c) : False := by
    cases hc'.symm.trans h
    exact hsame rfl
  cases act with
  | step thread =>
      cases stepped_of_act? step with
      | monitor => exact (hkept hc).elim
      | worker | scheduler => contradiction
      | writer hc₀ hwrote =>
          rcases getElem?_set_cases hc₀ hc' with ⟨rfl, rfl⟩ | ⟨-, hold⟩
          · cases hc.symm.trans hc₀
            cases hwrote with
            | fails _ hwriting hgone =>
                right
                simp [failedWriteIn, hc, Connection.failsToWrite, live, hgone, hwriting]
            | _ => exact (hsame rfl).elim
          · cases hc.symm.trans hold
            exact (hsame rfl).elim
      | handler hh₀ hc₀ hhandled =>
          rcases getElem?_set_cases hc₀ hc' with ⟨rfl, rfl⟩ | ⟨-, hold⟩
          · cases hc.symm.trans hc₀
            obtain ⟨causes, requests, hreads⟩ := (tended.attends _ _ _ hh₀ hc).reads
            exact Or.inl (hreads.malformed hhandled live cut)
          · cases hc.symm.trans hold
            exact (hsame rfl).elim
  | accept capacity =>
      cases step
      refine (hkept ?_).elim
      rw [(accept_appends tended.quiet.paired capacity).2,
        List.getElem?_append_left (List.getElem?_eq_some_iff.mp hc).1, hc]
  | clientWrites i bs =>
      cases step
      refine (hsame (live_onConnection hc hc' ?_)).elim
      rw [Connection.clientWrites_eq]
      split <;> rfl
  | clientFinishes | clientReads =>
      cases step
      exact (hsame (live_onConnection hc hc' rfl)).elim
  | clientCloses i =>
      cases step
      refine (hsame (live_onConnection hc hc' ?_)).elim
      unfold Connection.clientCloses
      split <;> rfl
  | _ => contradiction

/-- A client that has gone away does not come back. -/
theorem gone_kept (step : s.act? process act = some s') (hc : s.connections[k]? = some c)
    (gone : c.clientGone = true) :
    ∃ c', s'.connections[k]? = some c' ∧ c'.clientGone = true := by
  have habort (c : Connection) (h : c.clientGone = true) : c.abort.1.clientGone = true := by
    unfold Connection.abort
    split <;> exact h
  by_cases hown : act.isOfHandler k = true
  · obtain ⟨budget, rfl⟩ := Act.eq_of_isOfHandler hown
    cases stepped_of_act? step with
    | handler _ hc₀ hhandled =>
        cases hc.symm.trans hc₀
        refine ⟨_, connection_afterHandler hc, ?_⟩
        cases hhandled with
        | rejects | objects => exact habort _ gone
        | _ => exact gone
  · rw [Bool.not_eq_true] at hown
    obtain ⟨c', hc', touched⟩ := connection_touched hown step hc
    refine ⟨c', hc', ?_⟩
    generalize arrivedIn k ⟨s, act, s'⟩ = arrived at touched
    cases touched with
    | starts =>
        unfold Connection.startWriter
        split <;> exact gone
    | wrote hwrote =>
        cases hwrote with
        | fails => exact habort c gone
        | _ => exact gone
    | answered =>
        unfold Connection.deliver
        split
        · exact gone
        · split <;> exact gone
    | cutOff => exact habort c gone
    | closes =>
        unfold Connection.clientCloses
        rw [if_pos gone]
        exact gone
    | _ => exact gone

/-- Where every request has its answer, the pool aborts nothing. -/
theorem Deals.spares (deals : Deals process n past s)
    (answers : ∀ t, succeeds process t = true) : abortedBy true past = [] := by
  rw [List.eq_nil_iff_forall_not_mem]
  intro k hk
  obtain ⟨i, t, ht, -⟩ := deals.blamed k hk
  rw [List.dropWhile_eq_nil_iff.mpr fun t _ => answers t] at ht
  contradiction

/-- Where every request has its answer, no worker dies. -/
theorem Deals.alive (deals : Deals process n past s)
    (answers : ∀ t, succeeds process t = true) : ∀ w ∈ s.workers, w.dead = false := by
  intro w hmem
  obtain ⟨i, hw⟩ := List.mem_iff_getElem?.mp hmem
  rw [(deals.served i w hw).dead_iff, List.any_eq_false]
  intro t _
  rw [answers]
  exact Bool.false_ne_true

theorem Tended.holds (tended : Tended process past s) (flight : s.InFlight t) :
    s.holds t = true := by
  obtain ⟨k, h, hk, hh, -, -⟩ := tended.genuine t flight
  rw [holds_iff]
  intro j hj
  cases hk.symm.trans hj
  rw [← tended.quiet.paired]
  exact (List.getElem?_eq_some_iff.mp hh).1

/-! ## Runs -/

/-- What holds of a service that nobody stops and whose processor answers every request. -/
structure Watched (process : Processing) (n : Nat) (past : List (Moment Service Act))
    (s : Service) : Prop where
  tended : Tended process past s
  deals : Deals process n past s
  room : s.events.capacity = 0
  /-- An aborted connection has its own stream to blame, or its own socket. -/
  spared : ∀ (k : Nat) (c : Connection), s.connections[k]? = some c → c.aborted = true →
    Request.Malformed (streamOf k past) ∨ failedWrite k past = true
  /-- Writing fails only for clients that have gone away. -/
  gone : ∀ k, failedWrite k past = true →
    ∃ c, s.connections[k]? = some c ∧ c.clientGone = true

theorem watched_launch (n inbound queue : Nat) :
    Watched process n [] (launch n inbound queue) where
  tended := tended_start
  deals := deals_start
  room := by rw [launch_eq]
  spared := by
    intro k c hc
    rw [launch_eq] at hc
    contradiction
  gone := nofun

/-- A request for a shutdown changes nothing that the threads look at. -/
theorem Watched.requestShutdown (watched : Watched process n past s) :
    Watched process n past s.requestShutdown where
  tended :=
    { quiet := ⟨watched.tended.quiet.stop, watched.tended.quiet.inbound,
        watched.tended.quiet.dealing, watched.tended.quiet.paired⟩
      silent := watched.tended.silent
      attends := by
        intro k h c hh hc
        have attends := watched.tended.attends k h c hh hc
        exact ⟨attends.named, attends.busy, attends.reads, attends.orderly, attends.follows,
          attends.present, attends.started, attends.expected, attends.finished⟩
      genuine := watched.tended.genuine
      right := watched.tended.right }
  deals :=
    { size := watched.deals.size
      cursor := watched.deals.cursor
      offers := watched.deals.offers
      served := fun i w hw => (watched.deals.served i w hw).kept (fun _ cut => cut) id
      counted := watched.deals.counted
      blamed := watched.deals.blamed }
  room := watched.room
  spared := watched.spared
  gone := watched.gone

theorem Watched.step (watched : Watched process n past s)
    (answers : ∀ t, succeeds process t = true) (ordinary : act.isOrdinary = true)
    (step : s.act? process act = some s') :
    Watched process n (past ++ [⟨s, act, s'⟩]) s' := by
  have deals := watched.deals.step (fun t => watched.tended.holds) step
  refine ⟨watched.tended.step ordinary step, deals, ?_, ?_, ?_⟩
  · rw [(channels_kept step).2.2, watched.room]
  · intro k c' hc' hcut
    rw [streamOf_snoc, failedWrite_snoc, Bool.or_eq_true]
    cases hc : s.connections[k]? with
    | none =>
        -- Somebody who has just connected is not cut off.
        have hk := (List.getElem?_eq_some_iff.mp hc').1
        rcases size_kept ordinary step with ⟨capacity, rfl⟩ | ⟨-, hsize⟩
        · cases step
          rw [(accept_appends watched.tended.quiet.paired capacity).2,
            List.getElem?_append_right (List.getElem?_eq_none_iff.mp hc)] at hc'
          rw [List.mem_singleton.mp (List.mem_of_getElem? hc')] at hcut
          contradiction
        · rw [hsize] at hk
          exact absurd hk (Nat.not_lt.mpr (List.getElem?_eq_none_iff.mp hc))
    | some c =>
        cases hlive : c.aborted with
        | true =>
            exact (watched.spared k c hc hlive).imp (·.append _) Or.inl
        | false =>
            cases hpool : act.isOfPool with
            | true =>
                have hin : k ∈ abortedIn ⟨s, act, s'⟩ := by
                  refine List.mem_filter.mpr ⟨?_, ?_⟩
                  · exact List.mem_range.mpr (List.getElem?_eq_some_iff.mp hc').1
                  · simp [hc, hc', hlive, hcut]
                have hmem : k ∈ abortedBy true (past ++ [⟨s, act, s'⟩]) := by
                  rw [abortedBy_snoc, if_pos hpool]
                  exact List.mem_append_right _ hin
                rw [deals.spares answers] at hmem
                contradiction
            | false =>
                have hblame :=
                  watched.tended.blames_itself ordinary hpool step hc hc' hlive hcut
                exact hblame.imp (·.append _) Or.inr
  · intro k hfailed
    have hgone : ∃ c, s.connections[k]? = some c ∧ c.clientGone = true := by
      rw [failedWrite_snoc, Bool.or_eq_true] at hfailed
      rcases hfailed with hbefore | hnow
      · exact watched.gone k hbefore
      · exact gone_of_failedWriteIn hnow
    obtain ⟨c, hc, hgone⟩ := hgone
    exact gone_kept step hc hgone

theorem watched_run {inbound queue : Nat} {past : List (Moment Service (Option Act))}
    (answers : ∀ t, succeeds process t = true)
    (run : Run (unstopped? process) (launch n inbound queue) past s) :
    Watched process n (deeds past) s := by
  induction run with
  | start => exact watched_launch n inbound queue
  | @snoc past now next act run step ih =>
      rw [deeds, List.filterMap_append]
      cases act with
      | none =>
          cases step
          rw [List.filterMap_cons_none rfl, List.filterMap_nil, List.append_nil]
          exact ih.requestShutdown
      | some act =>
          obtain ⟨hordinary, hact⟩ := Option.ite_none_right_eq_some.mp step
          exact ih.step answers hordinary hact

/-! ## What a client is sent -/

/-- Once the pool and its own threads can do nothing, a client that is not cut off and leaves
room on its socket has been sent all replies. -/
theorem Watched.written (watched : Watched process n past s) (positive : 0 < n)
    (stuck : s.Stuck process fun thread => thread.isOfPool || thread.isAt k)
    (hc : s.connections[k]? = some c) (live : c.aborted = false) (reads : c.isStalled = false) :
    c.written = replies process (askedBy k past) := by
  have hpool : s.Stuck process Thread.isOfPool := stuck.mono fun _ h => by simp [h]
  have hown : s.Stuck process (Thread.isAt k) := stuck.mono fun _ h => by simp [h]
  have quiet := watched.tended.quiet
  have hlt : k < s.handlers.length := by
    rw [quiet.paired]
    exact (List.getElem?_eq_some_iff.mp hc).1
  have hh := List.getElem?_eq_getElem hlt
  have attends := watched.tended.attends k _ c hh hc
  have hroom : s.events.hasRoom = true := by
    rw [Channel.hasRoom, watched.room]
    rfl
  have hlanded (t : Ticket) := watched.deals.not_inFlight (t := t) positive hroom quiet hpool
  have hempty : s.inbound.items = [] :=
    List.eq_nil_iff_forall_not_mem.mpr fun t ht => hlanded t (Or.inl ht)
  have hforwarded := attends.forwarded_all hh hc quiet hempty live (hown.handler 0)
  obtain ⟨hleft, houtgoing⟩ := attends.written_all live reads (writer_stuck hc (hown.writer 0))
  have hwhole : (askedBy k past).take c.next = askedBy k past := by
    apply List.take_of_length_le
    rw [hforwarded]
    exact attends.answered_all hlanded live
  have hstream := attends.follows.stream live
  rwa [hleft, houtgoing, (bodies_answerOf attends.follows.passed).1, hwhole, List.flatMap_nil,
    List.append_nil, List.append_nil] at hstream

/-- The replies of a processor depend on nothing but the requests. -/
theorem replies_congr {p : Processor} {ts ts' : List Ticket}
    (same : ts.map (·.request) = ts'.map (·.request)) :
    replies p.processing ts = replies p.processing ts' := by
  induction ts generalizing ts' with
  | nil =>
      rw [List.map_nil, eq_comm, List.map_eq_nil_iff] at same
      rw [same]
  | cons t ts ih =>
      obtain ⟨t', later, rfl, ht, hlater⟩ := List.map_eq_cons_iff.mp same.symm
      have hresponse : responseTo p.processing t = responseTo p.processing t' := by
        unfold responseTo Processor.processing
        rw [ht]
      rw [replies, replies, hresponse, ih hlater.symm]

theorem requests_askedBy :
    (askedBy k past).map (·.request) = (Request.readAll (streamOf k past)).1 := by
  apply List.ext_getElem?
  intro i
  rw [List.getElem?_map, askedBy, ticketsOf, List.getElem?_mapIdx, Option.map_map]
  exact congrFun Option.map_id _

/-- A client that stays and whose stream is good is not cut off. -/
theorem Watched.live (watched : Watched process n past s) (hc : s.connections[k]? = some c)
    (good : ¬Request.Malformed (streamOf k past)) (stays : c.clientGone = false) :
    c.aborted = false := by
  rw [Bool.eq_false_iff]
  intro haborted
  rcases watched.spared k c hc haborted with hbad | hfailed
  · exact good hbad
  · obtain ⟨c', hc', hgone⟩ := watched.gone k hfailed
    cases hc.symm.trans hc'
    rw [stays] at hgone
    contradiction

end Service

namespace Daemon

open Service (Act unstopped? deeds streamOf failedWrite launch settled_of_threads)

/-- What can have become of a daemon with the standard processor, somehow started, before it
is stopped. -/
inductive Serves (tree : FileTree) (cwd : Place) :
    List (Moment Service (Option Act)) → Service → Prop
  | intro {config : Config} {site site' : Site} {d : Daemon} {journal : Log.Journal}
      {past : List (Moment Service (Option Act))} {s : Service} :
      (new config fun tree => .standard tree cwd).start site = (true, d, site', journal) →
      Run (unstopped? (Processor.standard tree cwd).processing) d.service past s →
      Serves tree cwd past s

theorem Serves.watched {tree : FileTree} {cwd : Place}
    {past : List (Moment Service (Option Act))} {s : Service} (serves : Serves tree cwd past s) :
    ∃ n, 0 < n ∧ Service.Watched (Processor.standard tree cwd).processing n (deeds past) s := by
  obtain ⟨started, run⟩ := serves
  obtain ⟨hpositive, hservice⟩ := service_of_start started
  rw [hservice] at run
  exact ⟨_, hpositive, Service.watched_run (Processor.standard_answers tree cwd) run⟩

/-- **No client harms another.** Whatever the clients of a daemon with the standard processor
send, no worker dies before the daemon is stopped, and a connection is aborted only if its own
stream holds a bad length or a bad body, or if its own client has gone away in the middle of a
write. So what a client has been sent that stays, keeps reading and sends a good stream is the
same whenever the pool and the two threads of that client can do nothing, whoever else is there,
in whatever order everybody acts. The others may not read at all, so that their writers wait for
ever. -/
theorem clients_are_isolated (tree : FileTree) (cwd : Place) :
    (∀ past s, Serves tree cwd past s →
      (∀ w ∈ s.workers, w.dead = false) ∧
      ∀ k c, s.connections[k]? = some c → c.aborted = true →
        Request.Malformed (streamOf k (deeds past)) ∨ failedWrite k (deeds past) = true) ∧
    ∀ past s past' s' k k' c c', Serves tree cwd past s → Serves tree cwd past' s' →
      s.Stuck (Processor.standard tree cwd).processing
        (fun thread => thread.isOfPool || thread.isAt k) →
      s'.Stuck (Processor.standard tree cwd).processing
        (fun thread => thread.isOfPool || thread.isAt k') →
      s.connections[k]? = some c → s'.connections[k']? = some c' →
      streamOf k (deeds past) = streamOf k' (deeds past') →
      ¬Request.Malformed (streamOf k (deeds past)) →
      c.clientGone = false → c'.clientGone = false → c.isStalled = false →
      c'.isStalled = false → c.written = c'.written := by
  constructor
  · intro past s hserves
    obtain ⟨n, -, watched⟩ := hserves.watched
    exact ⟨watched.deals.alive (Processor.standard_answers tree cwd), watched.spared⟩
  · intro past s past' s' k k' c c' hserves hserves' hstuck hstuck' hc hc' hstream hgood
      hstays hstays' hreads hreads'
    obtain ⟨n, hpositive, watched⟩ := hserves.watched
    obtain ⟨n', hpositive', watched'⟩ := hserves'.watched
    have hlive := watched.live hc hgood hstays
    have hlive' := watched'.live hc' (hstream ▸ hgood) hstays'
    rw [watched.written hpositive hstuck hc hlive hreads,
      watched'.written hpositive' hstuck' hc' hlive' hreads']
    apply Service.replies_congr
    rw [Service.requests_askedBy, Service.requests_askedBy, hstream]

/-- A client asks for something and sends a pattern that is none: once alone, and once beside
a client that sends no frame and is cut off and a client that asks the same and reads none of
its replies, with a shutdown asked for in between. -/
theorem clients_are_isolated_beside_garbage :
    ∃ (tree : FileTree) (cwd : Place) (past past' : List (Moment Service (Option Act)))
      (s s' : Service) (c c' other idle : Connection),
      Serves tree cwd past s ∧ Serves tree cwd past' s' ∧
      s.Settled (Processor.standard tree cwd).processing ∧
      s'.Settled (Processor.standard tree cwd).processing ∧ s.connections = [c] ∧
      s'.connections = [other, c', idle] ∧ idle.isStalled = true ∧
      streamOf 0 (deeds past) = streamOf 1 (deeds past') ∧
      ¬Request.Malformed (streamOf 0 (deeds past)) ∧ c.clientGone = false ∧
      c'.clientGone = false ∧ c.isStalled = false ∧ c'.isStalled = false ∧
      other.aborted = true ∧ other.clientGone = false ∧
      Request.Malformed (streamOf 0 (deeds past')) ∧ (∀ w ∈ s'.workers, w.dead = false) ∧
      c.written = c'.written := by
  let tree : FileTree := {}
  let config : Config := { socketPath := text "/s", pidFile := text "/p", workers := 2 }
  let site : Site := { host := {}, process := { pid := 7, vantage := { cwd := [] } } }
  let process : Processing := (Processor.standard tree []).processing
  let body (r : Request) : Bytes := (Message.ofRequest r).encode
  let asks : Bytes := Frame.encode (body ⟨1, .create⟩) ++
    (Frame.encode (body ⟨2, .find (text "/") (text "(")⟩) ++ [])
  let handles (i n : Nat) : List (Option Act) := List.replicate n (some (.step (.handler i 100)))
  let deals : List (Option Act) := List.replicate 2 (some (.step .scheduler))
  let works (i : Nat) : List (Option Act) := List.replicate 3 (some (.step (.worker i)))
  let writes (i : Nat) : List (Option Act) := List.replicate 2 (some (.step (.writer i 200)))
  have hok : ((new config fun tree => .standard tree []).start site).1 = true := by cbv
  have started : (new config fun tree => .standard tree []).start site = (true, _, _, _) :=
    Prod.ext hok rfl
  have hservice := (service_of_start started).2
  have hgood : ¬Request.Malformed asks := by
    refine Request.Frames.not_malformed
      (.cons (r := ⟨1, .create⟩) ?_ ?_ (.cons (r := ⟨2, .find (text "/") (text "(")⟩) ?_ ?_ .nil))
    all_goals decide +kernel
  let alone : List (Option Act) :=
    [some .accept, some (.clientWrites 0 asks)] ++ handles 0 4 ++ deals ++ deals ++ works 0 ++
      works 1 ++ writes 0 ++ writes 0
  let beside : List (Option Act) :=
    [some .accept, some .accept, some (.accept (some 30)),
      some (.clientWrites 0 (List.replicate 9 0)), some (.clientWrites 1 asks),
      some (.clientWrites 2 asks)] ++ handles 1 4 ++ handles 2 4 ++ handles 0 2 ++ deals ++
      [none] ++ deals ++ deals ++ deals ++ works 0 ++ works 1 ++ works 1 ++ works 0 ++
      writes 1 ++ writes 1 ++ writes 2 ++ writes 2 ++ [some (.step (.writer 0 0))] ++
      handles 0 2 ++ List.replicate 2 (some (.step .monitor))
  have hrun : (perform? (unstopped? process) (launch 2 1024 0) alone).map
      (fun p => decide ((p.2.threads.all fun thread => (p.2.step? process thread).isNone) = true ∧
        streamOf 0 (deeds p.1) = asks ∧
        p.2.connections.map (fun c => (c.clientGone, c.isStalled)) = [(false, false)])) =
      some true := by decide +kernel
  have hrun' : (perform? (unstopped? process) (launch 2 1024 0) beside).map
      (fun p => decide ((p.2.threads.all fun thread => (p.2.step? process thread).isNone) = true ∧
        streamOf 1 (deeds p.1) = asks ∧
        p.2.connections.map (fun c => (c.aborted, c.clientGone, c.isStalled)) =
          [(true, false, false), (false, false, false), (false, false, true)])) = some true := by
    decide +kernel
  obtain ⟨⟨past, s⟩, hperform, hshows⟩ := Option.map_eq_some_iff.mp hrun
  obtain ⟨⟨past', s'⟩, hperform', hshows'⟩ := Option.map_eq_some_iff.mp hrun'
  rw [decide_eq_true_iff] at hshows hshows'
  obtain ⟨hstuck, hstream, hclient⟩ := hshows
  obtain ⟨hstuck', hstream', hclients⟩ := hshows'
  rw [List.all_eq_true] at hstuck hstuck'
  have hsettled : s.Settled process :=
    settled_of_threads fun thread h => Option.isNone_iff_eq_none.mp (hstuck thread h)
  have hsettled' : s'.Settled process :=
    settled_of_threads fun thread h => Option.isNone_iff_eq_none.mp (hstuck' thread h)
  have run : Run (unstopped? process) _ past s := Run.of_perform? hperform
  have run' : Run (unstopped? process) _ past' s' := Run.of_perform? hperform'
  rw [← hservice] at run run'
  have hserves : Serves tree [] past s := .intro started run
  have hserves' : Serves tree [] past' s' := .intro started run'
  obtain ⟨c, cs, hcs, hc, hnil⟩ := List.map_eq_cons_iff.mp hclient
  rw [List.map_eq_nil_iff.mp hnil] at hcs
  obtain ⟨other, cs', hcs', hother, htail⟩ := List.map_eq_cons_iff.mp hclients
  obtain ⟨c', cs'', rfl, hc', hlast⟩ := List.map_eq_cons_iff.mp htail
  obtain ⟨idle, cs₃, rfl, hidle, hnil'⟩ := List.map_eq_cons_iff.mp hlast
  rw [List.map_eq_nil_iff.mp hnil'] at hcs'
  simp only [Prod.mk.injEq] at hc hother hc' hidle
  obtain ⟨hstays, hreads⟩ := hc
  obtain ⟨hcut, hthere, -⟩ := hother
  obtain ⟨-, hstays', hreads'⟩ := hc'
  obtain ⟨hharmless, hsame⟩ := clients_are_isolated tree []
  obtain ⟨halive, -⟩ := hharmless past' s' hserves'
  have hfirst : s'.connections[0]? = some other := by rw [hcs']; rfl
  have hblamed : Request.Malformed (streamOf 0 (deeds past')) := by
    by_contra hharmed
    obtain ⟨_, _, hwatched⟩ := hserves'.watched
    rw [hwatched.live hfirst hharmed hthere] at hcut
    exact Bool.false_ne_true hcut
  rw [← hstream] at hgood
  refine ⟨tree, [], past, past', s, s', c, c', other, idle, hserves, hserves', hsettled,
    hsettled', hcs, hcs', hidle.2.2, hstream.trans hstream'.symm, hgood, hstays, hstays', hreads,
    hreads', hcut, hthere, hblamed, halive, ?_⟩
  exact hsame past s past' s' 0 1 c c' hserves hserves' (hsettled.stuck _) (hsettled'.stuck _)
    (by rw [hcs]; rfl) (by rw [hcs']; rfl) (hstream.trans hstream'.symm) hgood hstays hstays'
    hreads hreads'

end Daemon

end SearchDaemon
