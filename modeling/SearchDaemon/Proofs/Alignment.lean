import SearchDaemon.Proofs.ReadingBack

/-!
# The client and the frames it is sent

A client that reads frame after frame keeps to their boundaries: what an attempt to receive a
response gives is decided by the body of one frame, the next one in the stream, whether that
body is a response, something else or nothing at all. A body that is longer than a frame may
be ends this. Its length is refused, the body itself stays in the stream, and the client, which
is still connected, reads on from it as if frames stood there.
-/

namespace SearchDaemon

namespace Frame

variable {stream body digits rest later : Bytes}

theorem encode_ne_nil (body : Bytes) : encode body ≠ [] := by
  simp [encode, bigEndian, lengthSize]

/-- The length at the beginning of a frame is that of its body. -/
theorem digits_of_front (hd : digits.length = lengthSize)
    (front : digits ++ rest <+: encode body ++ later) :
    digits = bigEndian lengthSize body.length := by
  obtain ⟨more, hmore⟩ := front
  rw [encode, List.append_assoc, List.append_assoc] at hmore
  exact List.append_inj_left hmore (by rw [hd, length_bigEndian])

theorem ofBigEndian_of_lt {n : Nat} (lt : n < 2 ^ 64) :
    ofBigEndian (bigEndian lengthSize n) = n := by
  rw [ofBigEndian_bigEndian]
  exact Nat.mod_eq_of_lt (Nat.lt_of_lt_of_eq lt (by decide))

/-- A frame at the beginning of a stream of frames is the first of these. -/
theorem body_of_front {found : Bytes} (valid : isInvalidLength found.length = false)
    (lt : body.length < 2 ^ 64) (front : encode found ++ rest <+: encode body ++ later) :
    found = body := by
  have hdigits := digits_of_front (length_bigEndian _ _)
    (by rwa [encode, List.append_assoc] at front)
  have hlength : found.length = body.length := by
    have hread := congrArg ofBigEndian hdigits
    rwa [ofBigEndian_length valid, ofBigEndian_of_lt lt] at hread
  obtain ⟨more, hmore⟩ := front
  rw [encode, encode, hdigits, List.append_assoc, List.append_assoc, List.append_assoc] at hmore
  exact List.append_inj_left (List.append_cancel_left hmore) hlength

/-- A reader that waits has not been given a whole frame. -/
theorem not_whole_of_waiting {reader : Reader} (h : Reader.start.take stream = .waiting reader)
    (short : body.length ≤ limit) : ¬encode body <+: stream := by
  rintro ⟨rest, rfl⟩
  have hsize : ofBigEndian (bigEndian lengthSize body.length) = body.length := by
    refine ofBigEndian_of_lt (Nat.lt_of_le_of_lt short ?_)
    decide
  rw [encode, List.append_assoc, take_start (length_bigEndian _ _), hsize] at h
  split at h
  · contradiction
  · rw [Reader.takeBody] at h
    simp at h

end Frame

namespace Client

/-! ## One attempt -/

/-- The response that the body of a frame is, if it is one and not too long. -/
def answer? (body : Bytes) : Option Response :=
  if body.length ≤ Frame.limit then (Response.decode body).toOption else none

/-- What an attempt to receive a response comes to on a stream of frames, of which this body is
the first one. -/
inductive Attempt (inlet : Inlet) (body : Bytes) : Option Response → Inlet → Prop
  /-- The frame is taken whole. -/
  | whole {rest : Bytes} : body.length ≤ Frame.limit → inlet.unread = Frame.encode body ++ rest →
      Attempt inlet body (answer? body) { inlet with unread := rest }
  /-- The length is refused, and the body stays in the stream. -/
  | refused {inlet' : Inlet} : Frame.limit < body.length → Attempt inlet body none inlet'
  /-- The stream is over before the frame is. -/
  | exhausted {inlet' : Inlet} : inlet.reset = true ∨ inlet.ended = true → inlet'.unread = [] →
      (body.length ≤ Frame.limit → ¬Frame.encode body <+: inlet.unread) →
      Attempt inlet body none inlet'

/-- An attempt neither ends a stream nor breaks it. -/
theorem takeResponse?_flags {inlet inlet' : Inlet} {response : Option Response}
    {journal : Log.Journal} (taken : takeResponse? inlet = some (response, inlet', journal)) :
    inlet'.ended = inlet.ended ∧ (inlet'.reset = true → inlet.reset = true) := by
  have hinlet : inlet' = (Frame.receive inlet).2 := by
    rw [takeResponse?] at taken
    split at taken
    · contradiction
    · rename_i hreceive
      rw [hreceive]
      split at taken <;>
        · cases taken
          rfl
    · rename_i hreceive
      rw [hreceive]
      cases taken
      rfl
  rw [hinlet, Frame.receive, Frame.Reader.receive]
  split
  · exact ⟨rfl, id⟩
  · exact ⟨rfl, id⟩
  · dsimp only
    split_ifs
    · exact ⟨rfl, False.elim⟩
    · exact ⟨rfl, id⟩
    · exact ⟨rfl, id⟩
    · exact ⟨rfl, id⟩

theorem takeResponse?_waiting {inlet inlet' : Inlet} {reader : Frame.Reader}
    {response : Option Response} {journal : Log.Journal}
    (wait : Frame.Reader.start.take inlet.unread = .waiting reader)
    (taken : takeResponse? inlet = some (response, inlet', journal)) :
    response = none ∧ (inlet.reset = true ∨ inlet.ended = true) ∧ inlet'.unread = [] := by
  rw [takeResponse?, Frame.receive, Frame.Reader.receive, wait] at taken
  dsimp only at taken
  by_cases hreset : inlet.reset = true
  · rw [if_pos hreset] at taken
    cases taken
    exact ⟨rfl, Or.inl hreset, rfl⟩
  · rw [if_neg hreset] at taken
    by_cases hended : inlet.ended = true
    · rw [if_pos hended] at taken
      cases hfresh : reader.isFresh <;>
        · rw [hfresh] at taken
          cases taken
          exact ⟨rfl, Or.inr hended, rfl⟩
    · rw [if_neg hended] at taken
      contradiction

/-- An attempt to receive takes the next frame, or refuses it, or finds the stream over. -/
theorem attempt_of_takeResponse? {inlet inlet' : Inlet} {body later : Bytes}
    {response : Option Response} {journal : Log.Journal} (lt : body.length < 2 ^ 64)
    (front : inlet.unread <+: Frame.encode body ++ later)
    (taken : takeResponse? inlet = some (response, inlet', journal)) :
    Attempt inlet body response inlet' := by
  cases htake : Frame.Reader.start.take inlet.unread with
  | frame found rest =>
      obtain ⟨hvalid, hunread⟩ := Frame.take_frame Frame.Reader.isPartial_start htake
      rw [Frame.Reader.start, Frame.Reader.bytes, List.nil_append] at hunread
      rw [hunread] at front
      have hbody := Frame.body_of_front hvalid lt front
      subst hbody
      have hshort : found.length ≤ Frame.limit :=
        (Frame.isInvalidLength_eq_false_iff.mp hvalid).2
      have hanswer : answer? found = (Response.decode found).toOption := if_pos hshort
      rw [takeResponse?, Frame.receive, Frame.Reader.receive, htake] at taken
      dsimp only at taken
      have hresponse : response = answer? found ∧ inlet' = { inlet with unread := rest } := by
        rw [hanswer]
        cases hdecode : Response.decode found with
        | ok r =>
            rw [hdecode] at taken
            cases taken
            exact ⟨rfl, rfl⟩
        | error e =>
            rw [hdecode] at taken
            cases taken
            exact ⟨rfl, rfl⟩
      obtain ⟨rfl, rfl⟩ := hresponse
      exact .whole hshort hunread
  | invalid n rest =>
      obtain ⟨digits, hd, hn, hinvalid, hunread⟩ :=
        Frame.take_invalid Frame.Reader.isPartial_start htake
      rw [Frame.Reader.start, Frame.Reader.bytes, List.nil_append] at hunread
      rw [hunread] at front
      have hdigits := Frame.digits_of_front hd front
      have hsize : n = body.length := by rw [← hn, hdigits, Frame.ofBigEndian_of_lt lt]
      rw [takeResponse?, Frame.receive, Frame.Reader.receive, htake] at taken
      cases taken
      rw [hsize] at hinvalid
      obtain hempty | hlong := Frame.isInvalidLength_iff.mp hinvalid
      · have hbody := List.length_eq_zero_iff.mp hempty
        subst hbody
        have hwhole : inlet.unread = Frame.encode [] ++ rest := by
          rw [hunread, hdigits, Frame.encode, List.append_nil]
        exact .whole (Nat.zero_le _) hwhole
      · exact .refused hlong
  | waiting reader =>
      obtain ⟨rfl, hover, hempty⟩ := takeResponse?_waiting htake taken
      exact .exhausted hover hempty (Frame.not_whole_of_waiting htake)

theorem receive?_eq_some {k k' : Client} {response : Option Response} {journal : Log.Journal}
    (connected : k.isConnected = true) (h : k.receive? = some (response, k', journal)) :
    takeResponse? k.sockets.near.inlet = some (response, k'.sockets.near.inlet, journal) ∧
      k'.isConnected = true ∧ k'.sockets.canWrite .far = k.sockets.canWrite .far := by
  rw [receive?, if_pos connected] at h
  obtain ⟨⟨response', inlet, journal'⟩, htaken, hsome⟩ := Option.bind_eq_some_iff.mp h
  cases hsome
  exact ⟨htaken, connected, rfl⟩

/-! ## A connection that stays -/

/-- What can happen between a client and a daemon while the client stays connected. -/
inductive Act where
  | daemonWrites (bs : Bytes)
  | daemonReads
  /-- The daemon ends its direction. -/
  | daemonFinishes
  | daemonCloses
  /-- The client sends a body as a frame. -/
  | sends (body : Bytes)
  /-- The client ends its direction. -/
  | finishes
  /-- The client receives a response, which it can do unless it has to wait. -/
  | receives
deriving DecidableEq, Repr

def act? (k : Client) : Act → Option Client
  | .daemonWrites bs => some (k.daemonWrites bs).2
  | .daemonReads => some k.daemonReads.2
  | .daemonFinishes => some { k with sockets := k.sockets.finish .far }
  | .daemonCloses => some k.daemonCloses
  | .sends body => some (k.sendFrame body).2
  | .finishes => some k.finish
  | .receives => k.receive?.map fun (_, k, _) => k

/-- The bytes that come to the client's end. -/
def arrivedIn : Moment Client Act → Bytes
  | ⟨before, .daemonWrites bs, _⟩ => if (before.daemonWrites bs).1 then bs else []
  | _ => []

/-- The stream that has come to the client's end. -/
def arrived (past : List (Moment Client Act)) : Bytes := past.flatMap arrivedIn

/-- What an attempt to receive gives. -/
def gotIn : Moment Client Act → List (Option Response)
  | ⟨before, .receives, _⟩ => (before.receive?.map fun (response, _, _) => response).toList
  | _ => []

/-- What the attempts to receive have given, one after the other. -/
def got (past : List (Moment Client Act)) : List (Option Response) := past.flatMap gotIn

variable {past : List (Moment Client Act)} {k c c' : Client} {act : Act} {bodies : List Bytes}

theorem arrived_snoc (m : Moment Client Act) :
    arrived (past ++ [m]) = arrived past ++ arrivedIn m := by
  rw [arrived, arrived, List.flatMap_append, List.flatMap_singleton]

theorem got_snoc (m : Moment Client Act) : got (past ++ [m]) = got past ++ gotIn m := by
  rw [got, got, List.flatMap_append, List.flatMap_singleton]

/-- Nothing arrives at an end whose stream is over. -/
structure Sound (k : Client) : Prop where
  connected : k.isConnected = true
  mute : k.sockets.near.inlet.ended = true → k.sockets.canWrite .far = false
  cut : k.sockets.near.inlet.reset = true → k.sockets.near.inlet.ended = true

/-- An act that leaves the client's end as it is. -/
theorem quiet_act (sound : c.Sound) (none : arrivedIn ⟨c, act, c'⟩ = [])
    (near : c'.sockets.near.inlet = c.sockets.near.inlet) (connected : c'.isConnected = true)
    (mute : c.sockets.canWrite .far = false → c'.sockets.canWrite .far = false) :
    c'.Sound ∧
      c'.sockets.near.inlet.unread =
        c.sockets.near.inlet.unread ++ arrivedIn ⟨c, act, c'⟩ ∧
      (c.sockets.near.inlet.ended = true →
        c'.sockets.near.inlet.ended = true ∧ arrivedIn ⟨c, act, c'⟩ = []) := by
  rw [none, List.append_nil, near]
  refine ⟨⟨connected, ?_, ?_⟩, rfl, fun h => ⟨h, rfl⟩⟩
  · rw [near]
    exact fun h => mute (sound.mute h)
  · rw [near]
    exact sound.cut

/-- What an act of the two sides does to the stream, the receiving of a response apart. -/
theorem outside_act (sound : c.Sound) (step : c.act? act = some c') (outside : act ≠ .receives) :
    c'.Sound ∧
      c'.sockets.near.inlet.unread =
        c.sockets.near.inlet.unread ++ arrivedIn ⟨c, act, c'⟩ ∧
      (c.sockets.near.inlet.ended = true →
        c'.sockets.near.inlet.ended = true ∧ arrivedIn ⟨c, act, c'⟩ = []) := by
  have hconnected := sound.connected
  cases act with
  | receives => exact absurd rfl outside
  | daemonWrites bs =>
      cases step
      rw [arrivedIn, daemonWrites, SocketPair.write]
      by_cases hempty : bs.isEmpty = true
      · have hbs : bs = [] := List.isEmpty_iff.mp hempty
        subst hbs
        exact ⟨sound, (List.append_nil _).symm, fun h => ⟨h, rfl⟩⟩
      · rw [if_neg hempty]
        cases hwrite : c.sockets.canWrite .far with
        | true =>
            have hopen : c.sockets.near.inlet.ended ≠ true := fun h => by
              rw [sound.mute h] at hwrite
              contradiction
            exact ⟨⟨hconnected, fun h => absurd h hopen, sound.cut⟩, rfl,
              fun h => absurd h hopen⟩
        | false => exact ⟨sound, (List.append_nil _).symm, fun h => ⟨h, rfl⟩⟩
  | daemonReads =>
      cases step
      apply quiet_act sound rfl <;> rw [daemonReads] <;> split
      all_goals first | rfl | exact hconnected | exact id
  | daemonFinishes =>
      cases step
      by_cases hopen : c.sockets.far.isOpen = true
      · have hfinish : c.sockets.finish .far =
            { near := { c.sockets.near with inlet := c.sockets.near.inlet.finish }
              far := { c.sockets.far with doneWriting := true } } := if_pos hopen
        rw [hfinish]
        refine ⟨⟨hconnected, fun _ => ?_, fun _ => rfl⟩, (List.append_nil _).symm,
          fun _ => ⟨rfl, rfl⟩⟩
        simp [SocketPair.canWrite, SocketPair.socket]
      · have hfinish : c.sockets.finish .far = c.sockets := if_neg hopen
        rw [hfinish]
        exact ⟨sound, (List.append_nil _).symm, fun h => ⟨h, rfl⟩⟩
  | daemonCloses =>
      cases step
      by_cases hopen : c.sockets.far.isOpen = true
      · have hclose : (c.sockets.drain .far).2.close .far =
            { near := { c.sockets.near with
                inlet := { c.sockets.near.inlet.finish with
                  reset := c.sockets.near.inlet.reset || false } }
              far := { c.sockets.far with isOpen := false, inlet := {} } } := if_pos hopen
        rw [daemonCloses, hclose]
        refine ⟨⟨hconnected, fun _ => ?_, fun _ => rfl⟩, (List.append_nil _).symm,
          fun _ => ⟨rfl, rfl⟩⟩
        simp [SocketPair.canWrite, SocketPair.socket]
      · have hclose : (c.sockets.drain .far).2.close .far = (c.sockets.drain .far).2 :=
          if_neg hopen
        rw [daemonCloses, hclose]
        exact quiet_act sound rfl rfl hconnected id
  | sends body =>
      cases step
      apply quiet_act sound rfl <;> rw [sendFrame, Frame.send, SocketPair.write] <;> split_ifs
      all_goals first | rfl | exact hconnected | exact id
  | finishes =>
      cases step
      have hfinish : c.sockets.finish .near =
          { near := { c.sockets.near with doneWriting := true }
            far := { c.sockets.far with inlet := c.sockets.far.inlet.finish } } :=
        if_pos hconnected
      rw [finish, hfinish]
      exact quiet_act sound rfl rfl hconnected id

/-! ## The course of a client through a stream of frames -/

/-- No body among these is too long for a frame. -/
def AllShort (bodies : List Bytes) : Prop := ∀ body ∈ bodies, body.length ≤ Frame.limit

/-- How far a client has come in a stream of frames with these bodies. -/
inductive Course (bodies : List Bytes) (past : List (Moment Client Act)) (c : Client) : Prop
  /-- It has read the first frames and stands before the next one. -/
  | reading (n : Nat) : n ≤ bodies.length → AllShort (bodies.take n) →
      got past = (bodies.take n).map answer? →
      arrived past = (bodies.take n).flatMap Frame.encode ++ c.sockets.near.inlet.unread →
      Course bodies past c
  /-- It has read the first frames, and the stream is over before the next one is. -/
  | exhausted (n k : Nat) (lost : Bytes) : n ≤ bodies.length → AllShort (bodies.take n) →
      got past = (bodies.take n).map answer? ++ List.replicate k none →
      arrived past = (bodies.take n).flatMap Frame.encode ++ lost →
      (∀ body, bodies[n]? = some body → body.length ≤ Frame.limit →
        ¬Frame.encode body <+: lost) →
      c.sockets.near.inlet.unread = [] → c.sockets.near.inlet.ended = true →
      Course bodies past c
  /-- It has refused a frame that is too long, and is lost in the stream. -/
  | astray (n : Nat) (body : Bytes) (later : List (Option Response)) :
      AllShort (bodies.take n) → bodies[n]? = some body → Frame.limit < body.length →
      got past = (bodies.take n).map answer? ++ none :: later →
      (bodies.take n).flatMap Frame.encode <+: arrived past → Course bodies past c

theorem AllShort.snoc {n : Nat} {body : Bytes} (h : AllShort (bodies.take n))
    (next : bodies[n]? = some body) (short : body.length ≤ Frame.limit) :
    AllShort (bodies.take (n + 1)) := by
  intro b hb
  rw [List.take_add_one, next, Option.toList_some] at hb
  obtain hb | hb := List.mem_append.mp hb
  · exact h b hb
  · rw [List.mem_singleton.mp hb]
    exact short

/-- An act other than receiving leaves a client on its course. -/
theorem Course.outside (h : Course bodies past c) (sound : c.Sound)
    (step : c.act? act = some c') (outside : act ≠ .receives) :
    Course bodies (past ++ [⟨c, act, c'⟩]) c' := by
  obtain ⟨-, hunread, hended⟩ := outside_act sound step outside
  have hgot : got (past ++ [⟨c, act, c'⟩]) = got past := by
    rw [got_snoc]
    cases act with
    | receives => exact absurd rfl outside
    | _ => exact List.append_nil _
  cases h with
  | reading n hn hshort hanswers hstream =>
      refine .reading n hn hshort (hgot.trans hanswers) ?_
      rw [arrived_snoc, hstream, hunread, List.append_assoc]
  | exhausted n k lost hn hshort hanswers hstream hlost hempty hover =>
      obtain ⟨hover', hnothing⟩ := hended hover
      refine .exhausted n k lost hn hshort (hgot.trans hanswers) ?_ hlost ?_ hover'
      · rw [arrived_snoc, hnothing, List.append_nil, hstream]
      · rw [hunread, hnothing, hempty]
        rfl
  | astray n body later hshort hbody hlong hanswers hstream =>
      refine .astray n body later hshort hbody hlong (hgot.trans hanswers) ?_
      rw [arrived_snoc]
      exact hstream.trans (List.prefix_append _ _)

/-- What is read next in a stream of frames stands at the beginning of those not yet read. -/
theorem front_of_stream {n : Nat} {unread : Bytes}
    (frames : (bodies.take n).flatMap Frame.encode ++ unread <+: bodies.flatMap Frame.encode) :
    unread <+: (bodies.drop n).flatMap Frame.encode := by
  have hsplit : bodies.flatMap Frame.encode =
      (bodies.take n).flatMap Frame.encode ++ (bodies.drop n).flatMap Frame.encode := by
    rw [← List.flatMap_append, List.take_append_drop]
  rw [hsplit] at frames
  exact (List.prefix_append_right_inj _).mp frames

theorem sound_received (sound : c.Sound) {response : Option Response} {journal : Log.Journal}
    (taken : c.receive? = some (response, c', journal)) : c'.Sound := by
  obtain ⟨htaken, hconnected, hwrite⟩ := receive?_eq_some sound.connected taken
  obtain ⟨hended, hreset⟩ := takeResponse?_flags htaken
  refine ⟨hconnected, ?_, ?_⟩
  · rw [hended, hwrite]
    exact sound.mute
  · rw [hended]
    exact fun h => sound.cut (hreset h)

section Received

variable {response : Option Response} {journal : Log.Journal}

/-- A client that stands before a frame reads it, or refuses it, or finds the stream over. -/
theorem Course.attempted {past' : List (Moment Client Act)} {n : Nat} {body : Bytes}
    (attempt : Attempt c.sockets.near.inlet body response c'.sockets.near.inlet)
    (next : bodies[n]? = some body) (short : AllShort (bodies.take n))
    (answers : got past = (bodies.take n).map answer?)
    (stream : arrived past = (bodies.take n).flatMap Frame.encode ++ c.sockets.near.inlet.unread)
    (gets : got past' = got past ++ [response]) (still : arrived past' = arrived past)
    (ends : c.sockets.near.inlet.reset = true ∨ c.sockets.near.inlet.ended = true →
      c'.sockets.near.inlet.ended = true) :
    Course bodies past' c' := by
  have hlt : n < bodies.length := (List.getElem?_eq_some_iff.mp next).1
  have htake : bodies.take (n + 1) = bodies.take n ++ [body] := by
    rw [List.take_add_one, next, Option.toList_some]
  generalize hinlet : c'.sockets.near.inlet = inlet at attempt
  cases attempt with
  | @whole rest hfits hunread =>
      refine .reading (n + 1) hlt (short.snoc next hfits) ?_ ?_
      · rw [gets, answers, htake, List.map_append, List.map_singleton]
      · rw [still, stream, hunread, hinlet, htake, List.flatMap_append, List.flatMap_singleton,
          List.append_assoc]
  | refused hlong =>
      refine .astray n body [] short next hlong ?_ ?_
      · rw [gets, answers]
      · rw [still, stream]
        exact List.prefix_append _ _
  | exhausted hends hempty hpart =>
      refine .exhausted n 1 c.sockets.near.inlet.unread hlt.le short ?_ ?_ ?_ ?_ (ends hends)
      · rw [gets, answers]
        rfl
      · rw [still, stream]
      · intro body' hbody' hfits
        cases next.symm.trans hbody'
        exact hpart hfits
      · rw [hinlet, hempty]

/-- An attempt to receive goes one frame further, or finds the stream over, or goes astray. -/
theorem Course.received (h : Course bodies past c) (sound : c.Sound)
    (taken : c.receive? = some (response, c', journal))
    (frames : arrived past <+: bodies.flatMap Frame.encode)
    (sized : ∀ body ∈ bodies, body.length < 2 ^ 64) :
    Course bodies (past ++ [⟨c, .receives, c'⟩]) c' := by
  obtain ⟨htaken, -, -⟩ := receive?_eq_some sound.connected taken
  have hended := (takeResponse?_flags htaken).1
  have hover (ends : c.sockets.near.inlet.reset = true ∨ c.sockets.near.inlet.ended = true) :
      c'.sockets.near.inlet.ended = true := by
    rw [hended]
    exact ends.elim sound.cut id
  have hstill : arrived (past ++ [⟨c, .receives, c'⟩]) = arrived past := by
    rw [arrived_snoc]
    exact List.append_nil _
  have hgot : got (past ++ [⟨c, .receives, c'⟩]) = got past ++ [response] := by
    rw [got_snoc, gotIn, taken]
    rfl
  cases h with
  | reading n hn hshort hanswers hstream =>
      rw [hstream] at frames
      have hfront := front_of_stream frames
      cases hnext : bodies[n]? with
      | none =>
          -- All frames have been read.
          have hdrop : bodies.drop n = [] :=
            List.drop_eq_nil_of_le (List.getElem?_eq_none_iff.mp hnext)
          rw [hdrop, List.flatMap_nil, List.prefix_nil] at hfront
          have hwait : Frame.Reader.start.take c.sockets.near.inlet.unread =
              .waiting Frame.Reader.start := by
            rw [hfront]
            rfl
          obtain ⟨rfl, hends, hempty⟩ := takeResponse?_waiting hwait htaken
          refine .exhausted n 1 [] hn hshort ?_ ?_ ?_ hempty (hover hends)
          · rw [hgot, hanswers]
            rfl
          · rw [hstill, hstream, hfront]
          · intro body hbody
            rw [hnext] at hbody
            contradiction
      | some body =>
          obtain ⟨hlt, hbody⟩ := List.getElem?_eq_some_iff.mp hnext
          have hdrop : bodies.drop n = body :: bodies.drop (n + 1) := by
            rw [List.drop_eq_getElem_cons hlt, hbody]
          rw [hdrop, List.flatMap_cons] at hfront
          have hsized : body.length < 2 ^ 64 := sized body (List.mem_of_getElem? hnext)
          exact .attempted (attempt_of_takeResponse? hsized hfront htaken) hnext hshort hanswers
            hstream hgot hstill hover
  | exhausted n k lost hn hshort hanswers hstream hlost hempty hends =>
      have hwait : Frame.Reader.start.take c.sockets.near.inlet.unread =
          .waiting Frame.Reader.start := by
        rw [hempty]
        rfl
      obtain ⟨rfl, -, hempty'⟩ := takeResponse?_waiting hwait htaken
      refine .exhausted n (k + 1) lost hn hshort ?_ (hstill.trans hstream) hlost hempty'
        (hover (Or.inr hends))
      rw [hgot, hanswers, List.append_assoc, List.replicate_succ']
  | astray n body later hshort hbody hlong hanswers hstream =>
      refine .astray n body (later ++ [response]) hshort hbody hlong ?_ (hstill ▸ hstream)
      rw [hgot, hanswers, List.append_assoc]
      rfl

end Received

/-- Along every run a client is on its course through the stream. -/
theorem course_run (connected : k.isConnected = true) (fresh : k.sockets.near.inlet = {})
    (run : Run act? k past c) (frames : arrived past <+: bodies.flatMap Frame.encode)
    (sized : ∀ body ∈ bodies, body.length < 2 ^ 64) : c.Sound ∧ Course bodies past c := by
  induction run with
  | start =>
      have hsound : k.Sound := by
        refine ⟨connected, ?_, ?_⟩ <;>
          · rw [fresh]
            exact nofun
      refine ⟨hsound, .reading 0 (Nat.zero_le _) nofun rfl ?_⟩
      rw [fresh]
      rfl
  | @snoc past before after act run step ih =>
      have hfrom : arrived past <+: bodies.flatMap Frame.encode := by
        rw [arrived_snoc] at frames
        exact (List.prefix_append _ _).trans frames
      obtain ⟨hsound, hcourse⟩ := ih hfrom
      by_cases hact : act = .receives
      · subst hact
        obtain ⟨⟨response, k', journal⟩, htaken, hafter⟩ := Option.map_eq_some_iff.mp step
        cases hafter
        exact ⟨sound_received hsound htaken, hcourse.received hsound htaken hfrom sized⟩
      · exact ⟨(outside_act hsound step hact).1, hcourse.outside hsound step hact⟩

theorem answer?_eq_some {body : Bytes} {r : Response} (h : answer? body = some r) :
    Response.decode body = .ok r := by
  rw [answer?] at h
  split at h
  · cases hdecode : Response.decode body with
    | ok r' =>
        rw [hdecode] at h
        cases h
        rfl
    | error e =>
        rw [hdecode] at h
        contradiction
  · contradiction

theorem getElem?_answers {n i : Nat} (lt : i < n) (le : n ≤ bodies.length)
    (tail : List (Option Response)) :
    ((bodies.take n).map answer? ++ tail)[i]? = bodies[i]?.map answer? := by
  have hi : i < ((bodies.take n).map answer?).length := by
    rw [List.length_map, List.length_take]
    omega
  rw [List.getElem?_append_left hi, List.getElem?_map, List.getElem?_take_of_lt lt]

theorem flatMap_take_begins {n i : Nat} (le : i ≤ n) :
    (bodies.take i).flatMap Frame.encode <+: (bodies.take n).flatMap Frame.encode := by
  have hfront : bodies.take i <+: bodies.take n := List.take_prefix_take_left le
  obtain ⟨rest, hrest⟩ := hfront
  rw [← hrest, List.flatMap_append]
  exact List.prefix_append _ _

theorem AllShort.at {n i : Nat} {body : Bytes} (h : AllShort (bodies.take n))
    (here : bodies[i]? = some body) (lt : i < n) : body.length ≤ Frame.limit := by
  refine h body (List.mem_of_getElem? (i := i) ?_)
  rw [List.getElem?_take_of_lt lt, here]

/-- How far a client has come: the first frames are answered one by one, and after them comes
the end of the stream, or a frame that is too long. -/
theorem Course.front (h : Course bodies past c) :
    ∃ n tail, n ≤ bodies.length ∧ got past = (bodies.take n).map answer? ++ tail ∧
      (bodies.take n).flatMap Frame.encode <+: arrived past ∧ AllShort (bodies.take n) ∧
      (tail ≠ [] → (∃ body later, bodies[n]? = some body ∧ Frame.limit < body.length ∧
          tail = none :: later) ∨
        (∀ r, some r ∉ tail) ∧ ∀ body, bodies[n]? = some body → body.length ≤ Frame.limit →
          ¬(bodies.take (n + 1)).flatMap Frame.encode <+: arrived past) := by
  cases h with
  | reading n hn hshort hanswers hstream =>
      refine ⟨n, [], hn, by rw [hanswers, List.append_nil], ?_, hshort, fun h => absurd rfl h⟩
      rw [hstream]
      exact List.prefix_append _ _
  | exhausted n k lost hn hshort hanswers hstream hlost hempty hover =>
      refine ⟨n, _, hn, hanswers, ?_, hshort, fun _ => Or.inr ⟨?_, ?_⟩⟩
      · rw [hstream]
        exact List.prefix_append _ _
      · intro r hr
        cases List.eq_of_mem_replicate hr
      · intro body hbody hfits hwhole
        rw [hstream, List.take_add_one, hbody, Option.toList_some, List.flatMap_append,
          List.flatMap_singleton, List.prefix_append_right_inj] at hwhole
        exact hlost body hbody hfits hwhole
  | astray n body later hshort hbody hlong hanswers hstream =>
      have hn : n ≤ bodies.length := Nat.le_of_lt (List.getElem?_eq_some_iff.mp hbody).1
      exact ⟨n, _, hn, hanswers, hstream, hshort, fun _ => Or.inl ⟨body, later, hbody, hlong, rfl⟩⟩

/-- **A client keeps to the frames it is sent, up to the first that is too long.** Let a stream
of frames come to a connected client, in whatever pieces, while the client sends and receives as
it likes. If no frame before the `i`-th is too long, then the `i`-th attempt to receive gives a
response only if that is what the whole body of the `i`-th frame is decoded to; and if that frame
is not too long and has come whole, it gives what the body is decoded to, or none if it is no
response. So as long as no frame is too long the responses are those of the frames, in the same
order, and no part of a body is taken for a frame. -/
theorem responses_keep_to_frames (connected : k.isConnected = true)
    (fresh : k.sockets.near.inlet = {}) (run : Run act? k past c)
    (frames : arrived past <+: bodies.flatMap Frame.encode)
    (sized : ∀ body ∈ bodies, body.length < 2 ^ 64) :
    (∀ i r, (got past)[i]? = some (some r) → AllShort (bodies.take i) →
      ∃ body, bodies[i]? = some body ∧ Response.decode body = .ok r ∧
        (bodies.take (i + 1)).flatMap Frame.encode <+: arrived past) ∧
    ∀ i body, bodies[i]? = some body → AllShort (bodies.take (i + 1)) →
      (bodies.take (i + 1)).flatMap Frame.encode <+: arrived past → i < (got past).length →
      (got past)[i]? = some (Response.decode body).toOption := by
  obtain ⟨-, hcourse⟩ := course_run connected fresh run frames sized
  obtain ⟨n, tail, hn, hgot, hstream, -, hend⟩ := hcourse.front
  have hlength : ((bodies.take n).map answer?).length = n := by
    rw [List.length_map, List.length_take, Nat.min_eq_left hn]
  rw [hgot]
  constructor
  · intro i r hi hshort
    by_cases hlt : i < n
    · rw [getElem?_answers hlt hn] at hi
      obtain ⟨body, hbody, hanswer⟩ := Option.map_eq_some_iff.mp hi
      exact ⟨body, hbody, answer?_eq_some hanswer, (flatMap_take_begins hlt).trans hstream⟩
    · -- Behind the frames read, no attempt gives a response until a frame was too long.
      have hle : n ≤ i := Nat.le_of_not_lt hlt
      rw [List.getElem?_append_right (by rwa [hlength]), hlength] at hi
      have hmem : some r ∈ tail := List.mem_of_getElem? hi
      obtain ⟨body, later, hbody, hlong, htail⟩ | ⟨hnone, -⟩ := hend (List.ne_nil_of_mem hmem)
      · obtain hsame | hfurther := Nat.eq_or_lt_of_le hle
        · rw [htail, hsame, Nat.sub_self] at hi
          cases hi
        · exact absurd (hshort.at hbody hfurther) (Nat.not_le_of_lt hlong)
      · exact absurd hmem (hnone r)
  · intro i body hbody hshort hwhole hi
    by_cases hlt : i < n
    · have hfits := hshort.at hbody (Nat.lt_succ_self i)
      rw [getElem?_answers hlt hn, hbody, Option.map_some, answer?, if_pos hfits]
    · have hle : n ≤ i := Nat.le_of_not_lt hlt
      have htail : tail ≠ [] := by
        rintro rfl
        rw [List.append_nil, hlength] at hi
        omega
      obtain ⟨body', later, hbody', hlong, -⟩ | ⟨-, hpart⟩ := hend htail
      · exact absurd (hshort.at hbody' (Nat.lt_succ_of_le hle)) (Nat.not_le_of_lt hlong)
      · have hnext : n < bodies.length :=
          Nat.lt_of_le_of_lt hle (List.getElem?_eq_some_iff.mp hbody).1
        have hbody' := List.getElem?_eq_getElem hnext
        have hfits := hshort.at hbody' (Nat.lt_succ_of_le hle)
        exact absurd ((flatMap_take_begins (Nat.succ_le_succ hle)).trans hwhole)
          (hpart _ hbody' hfits)

/-- A client that has just connected. -/
def connectedAnew : Client where
  path := []
  sockets := {}

/-- Three frames of which the second is no response, and the third arrives in two pieces. -/
theorem responses_keep_to_frames_garbage_between :
    ∃ past c, Run act? connectedAnew past c ∧
      arrived past = [(Response.ok 5).body, [9], (Response.ok 6).body].flatMap Frame.encode ∧
      (got past)[1]? = some none ∧ (got past)[2]? = some (some (Response.ok 6)) := by
  have hrun : (perform? act? connectedAnew
      [.daemonWrites (Frame.encode (Response.ok 5).body ++ Frame.encode [9]), .receives,
        .daemonWrites ((Frame.encode (Response.ok 6).body).take 11), .receives, .sends [1],
        .daemonWrites ((Frame.encode (Response.ok 6).body).drop 11), .receives]).map
      (fun p => (arrived p.1, (got p.1).length)) =
      some ([(Response.ok 5).body, [9], (Response.ok 6).body].flatMap Frame.encode, 3) := by
    decide +kernel
  obtain ⟨⟨past, c⟩, hperform, hshows⟩ := Option.map_eq_some_iff.mp hrun
  obtain ⟨hstream, hattempts⟩ := by simpa only [Prod.mk.injEq] using hshows
  have run := Run.of_perform? hperform
  have hsized : ∀ body ∈ [(Response.ok 5).body, [9], (Response.ok 6).body],
      body.length < 2 ^ 64 := by
    decide +kernel
  have hshort : AllShort [(Response.ok 5).body, [9], (Response.ok 6).body] := by
    unfold AllShort
    decide +kernel
  have hall := (responses_keep_to_frames rfl rfl run (hstream ▸ List.prefix_refl _) hsized).2
  have hsecond := hall 1 [9] rfl (fun b hb => hshort b (List.mem_of_mem_take hb))
    (by rw [hstream]; exact List.prefix_append _ _) (by rw [hattempts]; decide)
  have hthird := hall 2 (Response.ok 6).body rfl hshort
    (by rw [hstream]; exact List.prefix_refl _) (by rw [hattempts]; decide)
  exact ⟨past, c, run, hstream, hsecond, hthird⟩

/-- Bytes that the daemon writes to a client that has just connected are what it has to read. -/
theorem write_connectedAnew {bs : Bytes} (some : bs ≠ []) :
    connectedAnew.daemonWrites bs = (true, connectedAnew.reading bs) := by
  have hsome : bs.isEmpty = false := by simpa using some
  rw [daemonWrites, SocketPair.write, hsome]
  rfl

/-- A response that stands in a frame at the beginning of a body that is too long is read as if
it had been sent. -/
theorem read_inside_body {r : Response} {rest : Bytes} (writable : r.IsWritable)
    (short : r.bodySize ≤ Frame.limit) (long : Frame.limit < (r.frame ++ rest).length)
    (lt : (r.frame ++ rest).length < 2 ^ 64) :
    ∃ past c, Run act? connectedAnew past c ∧
      arrived past = [r.frame ++ rest].flatMap Frame.encode ∧ got past = [none, some r] ∧
      Response.decode (r.frame ++ rest) ≠ .ok r := by
  have hwrite := write_connectedAnew (Frame.encode_ne_nil (r.frame ++ rest))
  have hrefused := @receive?_refused connectedAnew rfl _ long lt []
  rw [List.append_nil, List.append_nil] at hrefused
  have hread := @receive?_frame connectedAnew r rfl writable short rest
  have hfirst : act? connectedAnew (.daemonWrites (Frame.encode (r.frame ++ rest))) =
      some (connectedAnew.reading (Frame.encode (r.frame ++ rest))) := by
    rw [act?, hwrite]
  have hsecond : act? (connectedAnew.reading (Frame.encode (r.frame ++ rest))) .receives =
      some (connectedAnew.reading (r.frame ++ rest)) := by
    rw [act?, hrefused]
    rfl
  have hthird : act? (connectedAnew.reading (r.frame ++ rest)) .receives =
      some (connectedAnew.reading rest) := by
    rw [act?, hread]
    rfl
  have run : Run act? connectedAnew _ (connectedAnew.reading rest) :=
    ((Run.start.snoc hfirst).snoc hsecond).snoc hthird
  refine ⟨_, _, run, ?_, ?_, ?_⟩
  · simp [arrived, arrivedIn, hwrite]
  · simp [got, gotIn, hrefused, hread]
  · intro hdecode
    -- The body would be that of the response, which is not too long.
    have hbody : r.frame ++ rest = r.body := (Response.decode_eq_ok.mp hdecode).2.2
    rw [hbody, r.length_body] at long
    omega

/-- **A response is found inside the body of a frame.** The one frame that is sent holds no such
response, and the client gets it with its second attempt. -/
theorem response_found_inside_body :
    ∃ past c body, Run act? connectedAnew past c ∧ connectedAnew.isConnected = true ∧
      connectedAnew.sockets.near.inlet = {} ∧ arrived past = [body].flatMap Frame.encode ∧
      body.length < 2 ^ 64 ∧ got past = [none, some (Response.ok 5)] ∧
      Response.decode body ≠ .ok (Response.ok 5) := by
  have hlength : ((Response.ok 5).frame ++ List.replicate Frame.limit 0).length =
      (Response.ok 5).frame.length + Frame.limit := by
    rw [List.length_append, List.length_replicate]
  have hframe : (Response.ok 5).frame.length = 27 := by decide +kernel
  have hlong : Frame.limit < ((Response.ok 5).frame ++ List.replicate Frame.limit 0).length := by
    omega
  have hlt : ((Response.ok 5).frame ++ List.replicate Frame.limit 0).length < 2 ^ 64 := by
    rw [hlength, hframe]
    decide
  obtain ⟨past, c, run, hstream, hgot, hdecode⟩ :=
    read_inside_body ⟨Or.inl ⟨rfl, rfl⟩, by decide +kernel⟩ (by decide +kernel) hlong hlt
  exact ⟨past, c, _, run, rfl, rfl, hstream, hlt, hgot, hdecode⟩

end Client

end SearchDaemon
