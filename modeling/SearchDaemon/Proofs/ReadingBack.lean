import SearchDaemon.Client
import SearchDaemon.Proofs.DeliveryRuns
import SearchDaemon.Proofs.Framing
import SearchDaemon.Proofs.ResponseBodies

/-!
# Responses as their client reads them

What a connection has counted as sent stands whole on its stream, and a client that reads
the stream gets the responses back, one for each attempt. The two sides do not agree on
sizes: every body is sent, but only one of at most `Frame.limit` bytes is received. So the
client gets the responses up to the first that is too long, and none in its place.
-/

namespace SearchDaemon

/-! ## What stands on the stream -/

namespace Connection

variable {past : List (Moment Connection Act)} {m : Moment Connection Act} {c c' : Connection}

/-- The responses written completely, in order. -/
def sentIn (past : List (Moment Connection Act)) (c : Connection) : List Response :=
  (List.range c.sent).filterMap (answerIn past)

theorem left_eq_nil {w : Writer} (h : w.underway = 0) : w.left = [] := by
  cases w with
  | writing rest => contradiction
  | _ => rfl

/-- An act counts a response as sent only by writing the last bytes of its frame. -/
theorem sent_of_act? {act : Act} (step : c.act? act = some c') :
    (c'.sent = c.sent ∧ c.written <+: c'.written) ∨ c'.writer.underway = 0 := by
  have same {x : Connection} (hsent : x.sent = c.sent) (hwritten : x.written = c.written) :
      (x.sent = c.sent ∧ c.written <+: x.written) ∨ x.writer.underway = 0 :=
    Or.inl ⟨hsent, hwritten ▸ List.prefix_refl _⟩
  cases act with
  | deliver sequence r =>
      cases step
      rcases c.deliver_cases sequence r with hsame | ⟨-, -, htaken⟩
      · rw [hsame]
        exact same rfl rfl
      · rw [htaken]
        exact same rfl rfl
  | write budget =>
      obtain ⟨⟨c'', journal⟩, hstep, rfl⟩ := Option.map_eq_some_iff.mp step
      cases wrote_of_writerStep? hstep with
      | cutOff _ _ => exact same rfl rfl
      | begins _ _ _ => exact same rfl rfl
      | done _ _ _ => exact same rfl rfl
      | fails _ _ _ => exact Or.inr rfl
      | completes _ _ => exact Or.inr rfl
      | writes _ _ => exact Or.inl ⟨rfl, List.prefix_append _ _⟩
  | finish expected =>
      cases step
      exact same rfl rfl
  | abort =>
      cases step
      apply same
      · unfold abort
        split <;> rfl
      · exact abort_written c
  | startWriter =>
      cases step
      apply same <;> unfold startWriter <;> split <;> rfl
  | clientWrites bs =>
      cases step
      apply same <;> unfold clientWrites <;> split <;> rfl
  | clientFinishes =>
      cases step
      exact same rfl rfl
  | clientReads count =>
      cases step
      exact same rfl rfl
  | clientCloses =>
      cases step
      apply same <;> unfold clientCloses <;> split <;> rfl

/-- The frames of the first bodies handed over, as many as are counted as sent, have been
written. -/
theorem Recorded.frames_written (h : Recorded past c) (live : c.aborted = false)
    (between : c.writer.underway = 0) :
    ((handed past).take c.sent).flatMap Frame.encode = c.written := by
  have hstream := h.follows.stream live
  have hcount := h.orderly.counted live
  have hbegun := h.begun_append live
  have hlength : (handed past).length = c.next := by
    rw [h.handed_eq, length_bodies h.follows.passed]
  -- No frame is underway, so the bodies begun are just those sent.
  have htake : (handed past).take c.sent = begun past := by
    have hfront : (begun past).length = c.sent := by
      rw [← hbegun, List.length_append] at hlength
      omega
    rw [← hbegun, List.take_left' hfront]
  rw [left_eq_nil between, List.append_nil, ← h.handed_eq, ← hbegun,
    List.flatMap_append] at hstream
  rw [htake]
  exact (List.append_cancel_right hstream).symm

theorem handed_take_snoc (le : c.sent ≤ (handed past).length) :
    (handed (past ++ [m])).take c.sent = (handed past).take c.sent := by
  rw [handed_snoc, List.take_append_of_le_length le]

/-- Whole frames stand at the beginning of the stream, one for each body counted as sent. -/
theorem sent_written {client : Nat} {capacity : Option Nat}
    (run : Run act? { client, capacity } past c) (live : c.aborted = false) :
    ((handed past).take c.sent).flatMap Frame.encode <+: c.written := by
  induction run with
  | start => exact List.nil_prefix
  | @snoc past before after act run step ih =>
      have hrecorded := recorded_run run
      have hlive : before.aborted = false := by
        by_contra hcut
        rw [Bool.not_eq_false] at hcut
        rw [(act?_aborted hcut step).1] at live
        contradiction
      rcases sent_of_act? step with ⟨hsent, hwritten⟩ | hbetween
      · have hle : before.sent ≤ (handed past).length := by
          have := hrecorded.orderly.counted hlive
          rw [hrecorded.handed_eq, length_bodies hrecorded.follows.passed]
          omega
        rw [hsent, handed_take_snoc hle]
        exact (ih hlive).trans hwritten
      · have hwhole := (hrecorded.act step).frames_written live hbetween
        exact hwhole ▸ List.prefix_refl _

/-- Every number counted as sent has its response among the ones sent. -/
theorem Recorded.sentIn_eq (h : Recorded past c) (live : c.aborted = false) :
    (sentIn past c).map some = (List.range c.sent).map (answerIn past) := by
  have hcount := h.orderly.counted live
  apply map_some_filterMap
  intro i hi
  exact h.follows.passed i (Nat.lt_of_lt_of_le (List.mem_range.mp hi) (by omega))

/-- The frames of the responses sent stand at the beginning of the stream. -/
theorem frames_of_sentIn {client : Nat} {capacity : Option Nat}
    (run : Run act? { client, capacity } past c) (live : c.aborted = false) :
    (sentIn past c).flatMap Response.frame <+: c.written := by
  have h := recorded_run run
  have hcount := h.orderly.counted live
  have hwritten := sent_written run live
  rw [h.handed_eq, bodies_take (by omega) h.follows.passed, List.flatMap_map] at hwritten
  exact hwritten

theorem mem_sentIn {r : Response} (h : r ∈ sentIn past c) : ∃ p ∈ accepted past, p.2 = r := by
  obtain ⟨i, -, hi⟩ := List.mem_filterMap.mp h
  exact ⟨(i, r), mem_of_answerIn hi, rfl⟩

end Connection

/-! ## One attempt to read a response -/

namespace Response

/-- A response that survives its encoding, its header's payload size included. -/
def IsWritable (r : Response) : Prop := r.IsCanonical ∧ r.size < 2 ^ 32

/-- The number of bytes in the body of a response. -/
def bodySize (r : Response) : Nat := Header.size + r.size

theorem length_body (r : Response) : r.body.length = r.bodySize := by
  rw [body, bodySize, (read_back_if_kind_carries r).1]

end Response

namespace Frame

variable {inlet : Inlet} {digits body rest : Bytes}

theorem take_start (h : digits.length = lengthSize) (rest : Bytes) :
    Reader.start.take (digits ++ rest) =
      if isInvalidLength (ofBigEndian digits) then .invalid (ofBigEndian digits) rest
      else Reader.takeBody (ofBigEndian digits) [] rest := by
  have hfirst : (digits ++ rest).take lengthSize = digits := List.take_left' h
  have hlater : (digits ++ rest).drop lengthSize = rest := List.drop_left' h
  simp only [Reader.start, Reader.take, List.length_nil, Nat.sub_zero, List.nil_append, hfirst,
    hlater, h, Nat.lt_irrefl, if_false]

/-- A frame that lies ready is received, and what is behind it is left. -/
theorem receive_encode (ready : inlet.unread = encode body ++ rest)
    (valid : isInvalidLength body.length = false) :
    receive inlet = (.frame body, { inlet with unread := rest }) := by
  have htake : Reader.start.take inlet.unread = .frame body rest := by
    rw [ready, encode, List.append_assoc, take_start (length_bigEndian _ _),
      ofBigEndian_length valid, valid, if_neg Bool.false_ne_true, Reader.takeBody]
    simp
  rw [receive, Reader.receive, htake]

/-- A body that is too long is refused by its length; it is not taken off the stream. -/
theorem receive_encode_long (ready : inlet.unread = encode body ++ rest)
    (long : limit < body.length) (lt : body.length < 2 ^ 64) :
    receive inlet = (.invalid body.length, { inlet with unread := body ++ rest }) := by
  have hsize : ofBigEndian (bigEndian lengthSize body.length) = body.length := by
    rw [ofBigEndian_bigEndian]
    apply Nat.mod_eq_of_lt
    exact Nat.lt_of_lt_of_eq lt (by decide)
  have hinvalid : isInvalidLength body.length = true := isInvalidLength_iff.2 (Or.inr long)
  have htake : Reader.start.take inlet.unread = .invalid body.length (body ++ rest) := by
    rw [ready, encode, List.append_assoc, take_start (length_bigEndian _ _), hsize,
      if_pos hinvalid]
  rw [receive, Reader.receive, htake]

end Frame

namespace Client

variable {k : Client} {r : Response} {rest : Bytes}

/-- The client with these bytes to read. -/
def reading (k : Client) (stream : Bytes) : Client :=
  let near := k.sockets.near
  let inlet := { near.inlet with unread := stream }
  { k with sockets := k.sockets.set .near { near with inlet } }

/-- What so many attempts to receive a response give, as far as none of them has to wait. -/
def responses : Nat → Client → List (Option Response)
  | 0, _ => []
  | n + 1, k =>
      match k.receive? with
      | some (response, k, _) => response :: responses n k
      | none => []

theorem receive?_reading (connected : k.isConnected = true) {stream : Bytes}
    {response : Option Response} {journal : Log.Journal}
    (h : takeResponse? { k.sockets.near.inlet with unread := stream } =
      some (response, { k.sockets.near.inlet with unread := rest }, journal)) :
    (k.reading stream).receive? = some (response, k.reading rest, journal) := by
  have hconnected : (k.reading stream).isConnected = true := connected
  rw [receive?, if_pos hconnected]
  change (takeResponse? { k.sockets.near.inlet with unread := stream }).bind _ = _
  rw [h]
  rfl

/-- A response in a frame that is not too long is read. -/
theorem receive?_frame (connected : k.isConnected = true) (writable : r.IsWritable)
    (short : r.bodySize ≤ Frame.limit) (rest : Bytes) :
    (k.reading (r.frame ++ rest)).receive? = some (some r, k.reading rest, []) := by
  apply receive?_reading connected
  have hvalid : Frame.isInvalidLength r.body.length = false := by
    rw [Frame.isInvalidLength_eq_false_iff, r.length_body]
    exact ⟨Nat.le_add_right_of_le (by decide), short⟩
  have hdecode : Response.decode r.body = .ok r :=
    Response.decode_eq_ok.2 ⟨writable.1, writable.2, rfl⟩
  rw [takeResponse?, Frame.receive_encode rfl hvalid]
  dsimp only
  rw [hdecode]

/-- A body that is too long is refused, and what is read next is the body itself. -/
theorem receive?_refused (connected : k.isConnected = true) {body : Bytes}
    (long : Frame.limit < body.length) (lt : body.length < 2 ^ 64) (rest : Bytes) :
    (k.reading (Frame.encode body ++ rest)).receive? =
      some (none, k.reading (body ++ rest),
        [Log.warning (text "Invalid frame length: " ++ decimal body.length),
          Log.debug (text "No response: protocol error")]) := by
  apply receive?_reading connected
  rw [takeResponse?, Frame.receive_encode_long rfl long lt]
  rfl

/-- In place of a response in a frame that is too long the client gets none. -/
theorem receive?_long (connected : k.isConnected = true) (writable : r.IsWritable)
    (long : Frame.limit < r.bodySize) (rest : Bytes) :
    (k.reading (r.frame ++ rest)).receive? =
      some (none, k.reading (r.body ++ rest),
        [Log.warning (text "Invalid frame length: " ++ decimal r.bodySize),
          Log.debug (text "No response: protocol error")]) := by
  have hlt : r.body.length < 2 ^ 64 := by
    have := writable.2
    rw [r.length_body, Response.bodySize, Header.size]
    omega
  have hrefused := receive?_refused connected (r.length_body ▸ long) hlt rest
  rwa [r.length_body] at hrefused

theorem responses_succ {response : Option Response} {k' : Client} {journal : Log.Journal}
    (h : k.receive? = some (response, k', journal)) (n : Nat) :
    k.responses (n + 1) = response :: k'.responses n := by
  rw [responses, h]

/-- One response after the other is read, as long as none is too long. -/
theorem responses_frames (connected : k.isConnected = true) {rs : List Response}
    (readable : ∀ r ∈ rs, r.IsWritable ∧ r.bodySize ≤ Frame.limit) (n : Nat) (rest : Bytes) :
    (k.reading (rs.flatMap Response.frame ++ rest)).responses (rs.length + n) =
      rs.map some ++ (k.reading rest).responses n := by
  induction rs with
  | nil => rw [List.flatMap_nil, List.length_nil, Nat.zero_add, List.map_nil, List.nil_append,
      List.nil_append]
  | cons r rs ih =>
      obtain ⟨hwritable, hshort⟩ := readable r List.mem_cons_self
      have hlater := ih fun r' hr' => readable r' (List.mem_cons_of_mem _ hr')
      have hfirst := receive?_frame connected hwritable hshort (rs.flatMap Response.frame ++ rest)
      rw [List.flatMap_cons, List.append_assoc, List.length_cons, Nat.add_right_comm,
        responses_succ hfirst, hlater]
      rfl

/-- Of responses that stand on the stream in frames those before the first that is too long
are read, and none in its place. -/
theorem responses_until_long (connected : k.isConnected = true) {short later : List Response}
    (readable : ∀ r ∈ short, r.IsWritable ∧ r.bodySize ≤ Frame.limit) (writable : r.IsWritable)
    (long : Frame.limit < r.bodySize) (rest : Bytes) :
    short.map some ++ [none] <+:
      (k.reading ((short ++ r :: later).flatMap Response.frame ++ rest)).responses
        (short ++ r :: later).length := by
  have hrefused := receive?_long connected writable long (later.flatMap Response.frame ++ rest)
  have hframes : (short ++ r :: later).flatMap Response.frame ++ rest =
      short.flatMap Response.frame ++ (r.frame ++ (later.flatMap Response.frame ++ rest)) := by
    rw [List.flatMap_append, List.flatMap_cons, List.append_assoc, List.append_assoc]
  rw [hframes, List.length_append, List.length_cons, responses_frames connected readable,
    responses_succ hrefused, List.prefix_append_right_inj]
  exact ⟨_, rfl⟩

end Client

namespace Connection

variable {past : List (Moment Connection Act)} {c : Connection}

/-- **A client reads what it is sent up to the first response that is too long.** Along every
run of a live connection to which only canonical responses with payloads of less than 2^32
bytes are delivered, in any order, a client that reads the stream gets the responses counted
as sent, by their numbers and one for each attempt, up to the first whose body is longer than
a frame may be; in its place it gets none. So it gets all of them exactly if no body is longer
than that, however far the writer has come with the next one. -/
theorem read_back_until_too_long {client : Nat} {capacity : Option Nat}
    (run : Run act? { client, capacity } past c) (live : c.aborted = false)
    (writable : ∀ p ∈ accepted past, p.2.IsWritable) (k : Client)
    (connected : k.isConnected = true) :
    let sent := sentIn past c
    let short := sent.takeWhile fun r => r.bodySize ≤ Frame.limit
    let got := (k.reading c.written).responses c.sent
    sent.map some = (List.range c.sent).map (answerIn past) ∧
    short.map some <+: got ∧ (short ≠ sent → short.map some ++ [none] <+: got) ∧
    (got = sent.map some ↔ ∀ r ∈ sent, r.bodySize ≤ Frame.limit) := by
  intro sent short got
  have hsent := (recorded_run run).sentIn_eq live
  have hlength : sent.length = c.sent := by
    have := congrArg List.length hsent
    rwa [List.length_map, List.length_map, List.length_range] at this
  have hwritable : ∀ r ∈ sent, r.IsWritable := by
    intro r hr
    obtain ⟨p, hp, rfl⟩ := mem_sentIn hr
    exact writable p hp
  obtain ⟨rest, hwritten⟩ := frames_of_sentIn run live
  have hgot : got = (k.reading (sent.flatMap Response.frame ++ rest)).responses sent.length := by
    rw [hwritten, hlength]
  have hshort : ∀ r ∈ short, r.IsWritable ∧ r.bodySize ≤ Frame.limit := by
    intro r hr
    have hall := List.all_eq_true.mp (List.all_takeWhile (l := sent)) r hr
    exact ⟨hwritable r ((List.takeWhile_sublist _).subset hr), of_decide_eq_true hall⟩
  have hsplit : short ++ sent.dropWhile (fun r => r.bodySize ≤ Frame.limit) = sent :=
    List.takeWhile_append_dropWhile
  refine ⟨hsent, ?_⟩
  cases hlater : sent.dropWhile (fun r => r.bodySize ≤ Frame.limit) with
  | nil =>
      -- Nothing is too long, and every response is read.
      have hsame : short = sent := by rw [← hsplit, hlater, List.append_nil]
      rw [hsame] at hshort ⊢
      have hall : got = sent.map some := by
        rw [hgot]
        have hread := Client.responses_frames connected hshort 0 rest
        rwa [Nat.add_zero, Client.responses, List.append_nil] at hread
      rw [hall]
      refine ⟨List.prefix_refl _, fun hne => absurd rfl hne, fun _ r hr => (hshort r hr).2,
        fun _ => rfl⟩
  | cons r later =>
      have hlong : Frame.limit < r.bodySize := by
        have hfails := List.head?_dropWhile_not
          (fun r : Response => decide (r.bodySize ≤ Frame.limit)) sent
        rw [hlater] at hfails
        exact Nat.lt_of_not_le (of_decide_eq_false hfails)
      have hmem : r ∈ sent := by
        rw [← hsplit, hlater]
        exact List.mem_append_right _ List.mem_cons_self
      have hnone : short.map some ++ [none] <+: got := by
        have hwhole : sent = short ++ r :: later := by rw [← hlater, hsplit]
        rw [hgot, hwhole]
        exact Client.responses_until_long connected hshort (hwritable r hmem) hlong rest
      refine ⟨(List.prefix_append _ _).trans hnone, fun _ => hnone, ?_, ?_⟩
      · intro hall
        have hin : none ∈ sent.map some := by
          rw [← hall]
          exact hnone.subset (List.mem_append_right _ List.mem_cons_self)
        obtain ⟨r', -, hr'⟩ := List.mem_map.mp hin
        contradiction
      · intro hfit
        exact absurd (hfit r hmem) (Nat.not_le_of_lt hlong)

/-- A list of one file and a plain answer are sent, the last frame is begun, and the client
reads both. -/
theorem read_back_until_too_long_two_sent :
    ∃ past c, Run act? { client := 1 } past c ∧ c.aborted = false ∧ c.sent = 2 ∧
      (Client.reading { path := [], sockets := {} } c.written).responses c.sent =
        [some { requestId := 5, kind := Response.fileList, files := [[97, 98]] },
          some (Response.ok 6)] := by
  have hrun : (perform? act? { client := 1 }
      [.deliver 1 (.ok 6), .startWriter,
        .deliver 0 { requestId := 5, kind := Response.fileList, files := [[97, 98]] }, .write 0,
        .write 3, .deliver 2 (.ok 7), .write 99, .write 0, .write 99, .write 0, .write 4]).map
      (fun p => (accepted p.1, sentIn p.1 p.2, p.2.sent, p.2.aborted)) =
      some ([(1, .ok 6), (0, { requestId := 5, kind := Response.fileList, files := [[97, 98]] }),
          (2, .ok 7)],
        [{ requestId := 5, kind := Response.fileList, files := [[97, 98]] }, .ok 6], 2, false) := by
    decide +kernel
  obtain ⟨⟨past, c⟩, hperform, hshows⟩ := Option.map_eq_some_iff.mp hrun
  obtain ⟨hacc, hsentIn, hsent, hlive⟩ := by simpa only [Prod.mk.injEq] using hshows
  have run := Run.of_perform? hperform
  have hwritable : ∀ p ∈ accepted past, p.2.IsWritable := by
    rw [hacc]
    simp [Response.IsWritable, Response.IsCanonical, Response.size, Response.ok, Response.plain,
      Response.fileList]
  obtain ⟨-, -, -, hall⟩ :=
    read_back_until_too_long run hlive hwritable { path := [], sockets := {} } rfl
  refine ⟨past, c, run, hlive, hsent, ?_⟩
  rw [hsentIn] at hall
  apply hall.2
  decide

/-! ## A response that is sent and not received -/

/-- The answer that one file was found. -/
def oneFile (name : Bytes) : Response :=
  { requestId := 1, kind := Response.fileList, files := [name] }

theorem size_oneFile (name : Bytes) : (oneFile name).size = 14 + name.length := by
  simp only [oneFile, Response.size, if_true, List.map_cons, List.map_nil, total_cons, total_nil,
    List.length_nil]
  omega

/-- A writer gets to the end of its frame if the client reads along, however little the socket
holds. -/
theorem written_out {rest : Bytes} (nonempty : rest ≠ []) (hwriting : c.writer = .writing rest)
    (live : c.aborted = false) (there : c.clientGone = false) (read : c.unseen = []) :
    ∃ past, Run act? c past
        { c with written := c.written ++ rest, sent := c.sent + 1, writer := .ready } ∧
      accepted past = [] := by
  induction rest generalizing c with
  | nil => exact absurd rfl nonempty
  | cons b later ih =>
      have hroom : c.hasRoom = true := by
        have hfull := isFull_of_unseen read
        rwa [isFull, there, Bool.not_false, Bool.true_and, Bool.not_eq_false'] at hfull
      have hone : c.allowance (0 + 1) = 1 := by
        unfold allowance
        cases c.capacity with
        | none => rfl
        | some capacity => simp [read]
      have hpiece : c.act? (.write 0) = some (c.writePiece 1 (b :: later)) := by
        rw [act?, writerStep?_writing hwriting, live, there, hroom, hone]
        rfl
      cases hlater : later with
      | nil =>
          have hlast : (c.writePiece 1 [b]).act? (.clientReads 1) =
              some
                { c with written := c.written ++ [b], sent := c.sent + 1, writer := .ready } := by
            simp [act?, writePiece, clientTakes, read]
          rw [hlater] at hpiece
          exact ⟨_, (Run.start.snoc hpiece).snoc hlast, rfl⟩
      | cons b' later' =>
          have hsome : later ≠ [] := by simp [hlater]
          have hread : (c.writePiece 1 (b :: later)).act? (.clientReads 1) =
              some { c with written := c.written ++ [b], writer := .writing later } := by
            simp [act?, writePiece, clientTakes, read, hsome]
          obtain ⟨past, run, hacc⟩ :=
            @ih { c with written := c.written ++ [b], writer := .writing later } hsome rfl live
              there read
          have hwhole := ((Run.start.snoc hpiece).snoc hread).append run
          dsimp only at hwhole
          rw [List.append_assoc c.written, List.singleton_append, hlater] at hwhole
          exact ⟨_, hwhole, hacc⟩

/-- A response that is delivered alone, to a client that reads along, is written and counted,
however little the socket holds. -/
theorem sent_alone (r : Response) (capacity : Option Nat) :
    ∃ past, Run act? { capacity } past
        { next := 1, sent := 1, writer := .ready, written := r.frame, capacity } ∧
      accepted past = [(0, r)] := by
  have hbegun : perform? act? { capacity } [.deliver 0 r, .startWriter, .write 0] =
      some (_, { next := 1, writer := .writing r.frame, capacity }) := rfl
  have hsome : r.frame ≠ [] := by
    rw [Ne, ← List.length_eq_zero_iff, Response.frame, Frame.encode, List.length_append,
      length_bigEndian]
    simp [Frame.lengthSize]
  obtain ⟨past, run, hacc⟩ := @written_out { next := 1, writer := .writing r.frame, capacity } _
    hsome rfl rfl rfl rfl
  refine ⟨_, (Run.of_perform? hbegun).append run, ?_⟩
  rw [accepted, List.flatMap_append, ← accepted, ← accepted, hacc]
  rfl

/-- A response that is too long is delivered, written and counted like any other, and its
client gets none. -/
theorem sent_and_not_read {r : Response} (writable : r.IsWritable)
    (long : Frame.limit < r.bodySize) (capacity : Option Nat) :
    ∃ past c, Run act? { capacity } past c ∧ c.aborted = false ∧ accepted past = [(0, r)] ∧
      c.sent = 1 ∧ c.unseen = [] ∧
      ∀ k : Client, k.isConnected = true → (k.reading c.written).responses c.sent = [none] := by
  obtain ⟨past, run, hacc⟩ := sent_alone r capacity
  refine ⟨past, _, run, rfl, hacc, rfl, rfl, ?_⟩
  intro k connected
  have hrefused := Client.receive?_long connected writable long []
  rw [List.append_nil] at hrefused
  exact Client.responses_succ hrefused 0

/-- A name that its client, having refused its frame, can go on to read: what stands in it
looks like the length of a frame, 256 times, and each time a body follows. -/
def framedName : Bytes :=
  text "aaaaa" ++ (List.replicate 256 (Frame.encode (List.replicate 65528 120))).flatten

theorem length_framedName : framedName.length = 16777221 := by
  have hfirst : (text "aaaaa").length = 5 := by decide
  have hframe : (Frame.encode (List.replicate 65528 120)).length = 65536 := by
    rw [Frame.encode, List.length_append, length_bigEndian, List.length_replicate]
    rfl
  rw [framedName, List.length_append, List.length_flatten, List.map_replicate, hfirst, hframe]
  decide +kernel

/-- The answer that a file of such a name was found fits its header. A client that reads along
over a socket that holds 64 KiB is sent all of it and has read all of it, and has got no
response. -/
theorem file_list_sent_and_not_read :
    ∃ past c, Run act? { capacity := some 65535 } past c ∧ c.aborted = false ∧ c.sent = 1 ∧
      c.unseen = [] ∧ accepted past = [(0, oneFile framedName)] ∧
      (oneFile framedName).IsWritable ∧
      (Client.reading { path := [], sockets := {} } c.written).responses c.sent = [none] := by
  have hwritable : (oneFile framedName).IsWritable := by
    refine ⟨Or.inr rfl, ?_⟩
    rw [size_oneFile, length_framedName]
    decide
  have hlong : Frame.limit < (oneFile framedName).bodySize := by
    rw [Response.bodySize, size_oneFile, length_framedName]
    decide
  obtain ⟨past, c, run, hlive, hacc, hsent, hread, hnone⟩ :=
    sent_and_not_read hwritable hlong (some 65535)
  exact ⟨past, c, run, hlive, hsent, hread, hacc, hwritable, hnone _ rfl⟩

end Connection

end SearchDaemon
