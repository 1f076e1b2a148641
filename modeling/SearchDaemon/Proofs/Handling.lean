import SearchDaemon.Proofs.Acts
import SearchDaemon.Proofs.Reading

/-!
# What a handler makes of its stream

However the threads of a service interleave, a handler that starts with a fresh
connection puts on the inbound channel the requests of the longest good beginning of
its client's stream, numbered from zero. `Stands` is the invariant behind this: the
stream is the frames of the requests forwarded, then what the handler has in hand,
then what is unread.
-/

namespace SearchDaemon

namespace Handler

/-! ## How reading ends -/

/-- How the reading of a handler can come to its end. -/
inductive Cause where
  /-- The handler was told to stop. -/
  | stopped
  /-- The inbound channel was closed. -/
  | turnedAway
  /-- The stream ended between frames. -/
  | streamEnd
  /-- The stream ended inside a frame. -/
  | tornFrame
  | badLength
  /-- The body of a frame was no request. -/
  | badBody
deriving DecidableEq, Repr

namespace Cause

/-- What a handler makes of a cause. -/
def ending : Cause → Ending
  | .stopped | .turnedAway => .stopped
  | .streamEnd | .tornFrame | .badLength | .badBody => .disconnected

/-- Why a handler that reads on its own stops where a stream goes on like this. -/
def ofReading : Frame.Reading → Cause
  | .closed => .streamEnd
  | .torn => .tornFrame
  | .invalid .. => .badLength
  | .frame .. => .badBody

end Cause

/-- Why a handler has stopped reading, if it has between two states. -/
def causes (h h' : Handler) (c : Connection) : List Cause :=
  match h.phase, h'.phase with
  | .reading reader, .finishing _ =>
      if h.stopRequested then [.stopped]
      else [Cause.ofReading (Frame.next (reader.bytes ++ c.inlet.unread))]
  | .forwarding _, .finishing _ => [.turnedAway]
  | _, _ => []

/-- The handler has stopped reading. -/
def Phase.IsPast (why : Ending) : Phase → Prop
  | .finishing w | .joining w => w = why
  | .reporting => why = .disconnected
  | .ended => True
  | .idle | .reading _ | .forwarding _ => False

/-- What is left of the stream of a handler that has stopped reading. -/
inductive Over (closed : Bool) (h : Handler) (c : Connection) : Cause → Bytes → Prop
  | stopped {rest : Bytes} : h.stopRequested = true → Over closed h c .stopped rest
  | turnedAway {rest : Bytes} : closed = true → Over closed h c .turnedAway rest
  | streamEnd : c.inlet.unread = [] → c.inlet.ended = true → Over closed h c .streamEnd []
  | tornFrame {reader : Frame.Reader} : reader.IsPartial → reader.isFresh = false →
      c.inlet.unread = [] → c.inlet.ended = true → Over closed h c .tornFrame reader.bytes
  | badLength {digits : Bytes} : digits.length = Frame.lengthSize →
      Frame.isInvalidLength (ofBigEndian digits) = true → c.aborted = true →
      Over closed h c .badLength (digits ++ c.inlet.unread)
  | badBody {body : Bytes} {e : DecodeError} : Frame.isInvalidLength body.length = false →
      Request.decode body = .error e → c.aborted = true →
      Over closed h c .badBody (Frame.encode body ++ c.inlet.unread)

/-- What is left of the stream of a handler, beyond the requests it has forwarded, and why
it reads no more if that is so. `closed` tells whether the inbound channel is. -/
inductive Stands (closed : Bool) (h : Handler) (c : Connection) : List Cause → Bytes → Prop
  | idle : h.phase = .idle → Stands closed h c [] c.inlet.unread
  | reading {reader : Frame.Reader} : h.phase = .reading reader → reader.IsPartial →
      Stands closed h c [] (reader.bytes ++ c.inlet.unread)
  | forwarding {body : Bytes} {r : Request} : h.phase = .forwarding r →
      Frame.isInvalidLength body.length = false → Request.decode body = .ok r →
      Stands closed h c [] (Frame.encode body ++ c.inlet.unread)
  | past {cause : Cause} {rest : Bytes} : h.phase.IsPast cause.ending →
      Over closed h c cause rest → Stands closed h c [cause] rest

/-- The handler has forwarded these requests and stands in its stream right behind them. -/
structure Reads (stream : Bytes) (causes : List Cause) (closed : Bool) (h : Handler)
    (c : Connection) (requests : List Request) : Prop where
  counted : requests.length = h.forwarded
  stands : ∃ read rest, Request.Frames requests read ∧ stream = read ++ rest ∧
    Stands closed h c causes rest

variable {stream arrived : Bytes} {causes : List Cause} {closed closed' : Bool}
  {h h' : Handler} {c c' : Connection} {requests : List Request}

/-! ## What the outside does -/

theorem Over.grown {cause : Cause} {rest : Bytes} (left : Over closed h c cause rest)
    (told : h.stopRequested = true → h'.stopRequested = true) (grown : c.Grown arrived c')
    (kept : closed = true → closed' = true) : Over closed' h' c' cause (rest ++ arrived) := by
  cases left with
  | stopped hstop => exact .stopped (told hstop)
  | turnedAway hclosed => exact .turnedAway (kept hclosed)
  | streamEnd hdry hended =>
      obtain ⟨hended', rfl⟩ := grown.ended hended
      exact .streamEnd (by rw [grown.unread, hdry, List.append_nil]) hended'
  | tornFrame hinside htorn hdry hended =>
      obtain ⟨hended', rfl⟩ := grown.ended hended
      rw [List.append_nil]
      exact .tornFrame hinside htorn (by rw [grown.unread, hdry, List.append_nil]) hended'
  | badLength hdigits hinvalid habort =>
      rw [List.append_assoc, ← grown.unread]
      exact .badLength hdigits hinvalid (grown.aborted habort).1
  | badBody hvalid herror habort =>
      rw [List.append_assoc, ← grown.unread]
      exact .badBody hvalid herror (grown.aborted habort).1

theorem Stands.grown {k : Nat} {act : Service.Act} {rest : Bytes}
    (stands : Stands closed h c causes rest) (nudged : Service.Nudged k h act h')
    (grown : c.Grown arrived c') (kept : closed = true → closed' = true) :
    Stands closed' h' c' causes (rest ++ arrived) := by
  cases stands with
  | idle hidle =>
      rw [← grown.unread]
      cases nudged with
      | kept => exact .idle hidle
      | starts => exact .reading rfl Frame.Reader.isPartial_start
      | stops => exact .idle hidle
  | reading hreading hinside =>
      rw [List.append_assoc, ← grown.unread]
      refine .reading ?_ hinside
      rw [nudged.phase (by rw [hreading]; exact nofun), hreading]
  | forwarding hforwarding hvalid hfound =>
      rw [List.append_assoc, ← grown.unread]
      refine .forwarding ?_ hvalid hfound
      rw [nudged.phase (by rw [hforwarding]; exact nofun), hforwarding]
  | past hpast hover =>
      refine .past ?_ (hover.grown nudged.stopRequested grown kept)
      rwa [nudged.phase]
      intro hidle
      rw [hidle] at hpast
      exact hpast

theorem Reads.grown {k : Nat} {act : Service.Act}
    (reads : Reads stream causes closed h c requests) (nudged : Service.Nudged k h act h')
    (grown : c.Grown arrived c') (kept : closed = true → closed' = true) :
    Reads (stream ++ arrived) causes closed' h' c' requests := by
  obtain ⟨read, rest, hframes, rfl, hstands⟩ := reads.stands
  refine ⟨?_, read, rest ++ arrived, hframes, List.append_assoc _ _ _,
    hstands.grown nudged grown kept⟩
  rw [reads.counted, nudged.forwarded]

/-! ## What the handler does -/

theorem Stands.of_reading {reader : Frame.Reader} {rest : Bytes}
    (stands : Stands closed h c causes rest) (hphase : h.phase = .reading reader) :
    causes = [] ∧ reader.IsPartial ∧ rest = reader.bytes ++ c.inlet.unread := by
  cases stands with
  | idle hidle => simp [hphase] at hidle
  | reading hreading hinside =>
      cases hphase.symm.trans hreading
      exact ⟨rfl, hinside, rfl⟩
  | forwarding hforwarding => simp [hphase] at hforwarding
  | past hpast => simp [hphase, Phase.IsPast] at hpast

theorem Stands.of_forwarding {r : Request} {rest : Bytes}
    (stands : Stands closed h c causes rest) (hphase : h.phase = .forwarding r) :
    causes = [] ∧ ∃ body, Frame.isInvalidLength body.length = false ∧
      Request.decode body = .ok r ∧ rest = Frame.encode body ++ c.inlet.unread := by
  cases stands with
  | idle hidle => simp [hphase] at hidle
  | reading hreading => simp [hphase] at hreading
  | forwarding hforwarding hvalid hfound =>
      cases hphase.symm.trans hforwarding
      exact ⟨rfl, _, hvalid, hfound, rfl⟩
  | past hpast => simp [hphase, Phase.IsPast] at hpast

theorem Stands.of_past {rest : Bytes} (stands : Stands closed h c causes rest)
    {why : Ending} (past : h.phase.IsPast why) :
    ∃ cause, causes = [cause] ∧ h.phase.IsPast cause.ending ∧ Over closed h c cause rest := by
  cases stands with
  | idle hidle => simp [hidle, Phase.IsPast] at past
  | reading hreading => simp [hreading, Phase.IsPast] at past
  | forwarding hforwarding => simp [hforwarding, Phase.IsPast] at past
  | past hpast hover => exact ⟨_, rfl, hpast, hover⟩

/-- The invariant of a step after which nothing more is read. -/
theorem Stands.step_past {k : Nat} {s : Service} {rest : Bytes} {tickets : List Ticket}
    {told : List Event} {why : Ending} (stands : Stands closed h c causes rest)
    (step : Service.Handled s k h c h' c' tickets told) (past : h.phase.IsPast why) :
    tickets = [] ∧ h.causes h' c = [] ∧ h'.forwarded = h.forwarded ∧
      Stands closed h' c' causes rest := by
  obtain ⟨cause, rfl, hpast, hover⟩ := stands.of_past past
  have hkept {phase : Phase} (hphase : phase.IsPast cause.ending) :
      Stands closed { h with phase } c [cause] rest := by
    have hsame : Over closed { h with phase } c cause (rest ++ []) :=
      hover.grown id (Connection.Grown.kept c) id
    rw [List.append_nil] at hsame
    exact .past hphase hsame
  cases step with
  | @finishes why hphase =>
      rw [hphase] at hpast
      have hgrown : c.Grown [] (c.finish h.forwarded) :=
        ⟨rfl, (List.append_nil _).symm, fun hended => ⟨hended, rfl⟩,
          fun habort => ⟨habort, rfl⟩⟩
      have hsame : Over closed { h with phase := .joining why } (c.finish h.forwarded) cause
          (rest ++ []) := hover.grown id hgrown id
      rw [List.append_nil] at hsame
      exact ⟨rfl, by simp [Handler.causes], rfl, .past hpast hsame⟩
  | leaves => exact ⟨rfl, by simp [Handler.causes], rfl, hkept trivial⟩
  | joins hphase =>
      rw [hphase] at hpast
      exact ⟨rfl, by simp [Handler.causes], rfl, hkept hpast.symm⟩
  | reports => exact ⟨rfl, by simp [Handler.causes], rfl, hkept trivial⟩
  | unheard => exact ⟨rfl, by simp [Handler.causes], rfl, hkept trivial⟩
  | _ => simp_all [Phase.IsPast]

theorem Reads.handled {k : Nat} {s : Service} {tickets : List Ticket} {told : List Event}
    (reads : Reads stream causes s.inbound.closed h c requests)
    (step : Service.Handled s k h c h' c' tickets told) :
    ∃ more, tickets = more.map (Service.ticketOf k h c) ∧
      Reads stream (causes ++ h.causes h' c) s.inbound.closed h' c' (requests ++ more) := by
  obtain ⟨read, rest, hframes, rfl, hstands⟩ := reads.stands
  -- As long as nothing is forwarded, the frames read stay the same and only the rest counts.
  have hnothing {causes' : List Cause} (htickets : tickets = [])
      (hforwarded : h'.forwarded = h.forwarded)
      (hstands' : Stands s.inbound.closed h' c' causes' rest)
      (hcauses : causes' = causes ++ h.causes h' c) :
      ∃ more, tickets = more.map (Service.ticketOf k h c) ∧
        Reads (read ++ rest) (causes ++ h.causes h' c) s.inbound.closed h' c'
          (requests ++ more) := by
    refine ⟨[], htickets, ?_, read, rest, ?_, rfl, hcauses ▸ hstands'⟩
    · rw [List.append_nil, reads.counted, hforwarded]
    · rwa [List.append_nil]
  have hpast {why : Ending} (past : h.phase.IsPast why) := by
    obtain ⟨htickets, hcauses, hforwarded, hstands'⟩ := hstands.step_past step past
    exact hnothing htickets hforwarded hstands' (by rw [hcauses, List.append_nil])
  cases step with
  | stops hphase hstop =>
      obtain ⟨rfl, -, -⟩ := hstands.of_reading hphase
      refine hnothing rfl rfl (.past ?_ (.stopped hstop)) ?_
      · rfl
      · simp [Handler.causes, hphase, hstop]
  | @runsDry reader hphase hgo hdry hended =>
      obtain ⟨rfl, hinside, rfl⟩ := hstands.of_reading hphase
      rw [hdry, List.append_nil] at hnothing ⊢
      have hnext := Frame.next_partial hinside
      cases hfresh : reader.isFresh with
      | true =>
          have hstart : reader = .start := of_decide_eq_true hfresh
          subst hstart
          refine hnothing rfl rfl (.past ?_ (.streamEnd hdry hended)) ?_
          · rfl
          · simp [Handler.causes, hphase, hgo, hdry, hnext, hfresh, Cause.ofReading]
      | false =>
          refine hnothing rfl rfl (.past ?_ (.tornFrame hinside hfresh hdry hended)) ?_
          · rfl
          · simp [Handler.causes, hphase, hgo, hdry, hnext, hfresh, Cause.ofReading]
  | @readsOn reader reader' piece later hphase hgo hsplit htake =>
      obtain ⟨rfl, hinside, rfl⟩ := hstands.of_reading hphase
      obtain ⟨hinside', hbytes⟩ := Frame.take_waiting hinside htake
      have hrest : reader.bytes ++ c.inlet.unread = reader'.bytes ++ later := by
        rw [hsplit, hbytes, List.append_assoc]
      rw [hrest] at hnothing ⊢
      refine hnothing rfl rfl (.reading rfl hinside') ?_
      simp [Handler.causes, hphase]
  | @finds reader piece later body rest request hphase hgo hsplit htake hfound =>
      obtain ⟨rfl, hinside, rfl⟩ := hstands.of_reading hphase
      obtain ⟨hvalid, hbytes⟩ := Frame.take_frame hinside htake
      have hrest : reader.bytes ++ c.inlet.unread = Frame.encode body ++ (rest ++ later) := by
        rw [hsplit, ← List.append_assoc, hbytes, List.append_assoc]
      rw [hrest] at hnothing ⊢
      refine hnothing rfl rfl (.forwarding rfl hvalid hfound) ?_
      simp [Handler.causes, hphase]
  | @rejects reader piece later body rest e hphase hgo hsplit htake herror =>
      obtain ⟨rfl, hinside, rfl⟩ := hstands.of_reading hphase
      obtain ⟨hvalid, hbytes⟩ := Frame.take_frame hinside htake
      have hrest : reader.bytes ++ c.inlet.unread = Frame.encode body ++ (rest ++ later) := by
        rw [hsplit, ← List.append_assoc, hbytes, List.append_assoc]
      have hover : Over s.inbound.closed { h with phase := .finishing .disconnected }
          (c.withUnread (rest ++ later)).abort.1 .badBody
            (Frame.encode body ++ (c.withUnread (rest ++ later)).abort.1.inlet.unread) :=
        .badBody hvalid herror (Connection.abort_aborted _)
      rw [Connection.abort_unread] at hover
      rw [hrest] at hnothing ⊢
      refine hnothing rfl rfl (.past ?_ hover) ?_
      · rfl
      · simp [Handler.causes, hphase, hgo, hrest, Frame.next_encode_append hvalid, Cause.ofReading]
  | @objects reader piece later rest n hphase hgo hsplit htake =>
      obtain ⟨rfl, hinside, rfl⟩ := hstands.of_reading hphase
      obtain ⟨digits, hlength, rfl, hinvalid, hbytes⟩ := Frame.take_invalid hinside htake
      have hrest : reader.bytes ++ c.inlet.unread = digits ++ (rest ++ later) := by
        rw [hsplit, ← List.append_assoc, hbytes, List.append_assoc]
      have hover : Over s.inbound.closed { h with phase := .finishing .disconnected }
          (c.withUnread (rest ++ later)).abort.1 .badLength
            (digits ++ (c.withUnread (rest ++ later)).abort.1.inlet.unread) :=
        .badLength hlength hinvalid (Connection.abort_aborted _)
      rw [Connection.abort_unread] at hover
      rw [hrest] at hnothing ⊢
      refine hnothing rfl rfl (.past ?_ hover) ?_
      · rfl
      · simp [Handler.causes, hphase, hgo, hrest, Frame.next_invalid hlength hinvalid,
          Cause.ofReading]
  | @forwards request hphase =>
      obtain ⟨rfl, body, hvalid, hfound, rfl⟩ := hstands.of_forwarding hphase
      refine ⟨[request], rfl, ?_, read ++ Frame.encode body, c.inlet.unread,
        hframes.snoc hvalid hfound, (List.append_assoc _ _ _).symm, ?_⟩
      · rw [List.length_append, reads.counted]
        rfl
      · simp only [Handler.causes, hphase, List.append_nil]
        exact .reading rfl Frame.Reader.isPartial_start
  | turnedAway hphase hclosed =>
      obtain ⟨rfl, -⟩ := hstands.of_forwarding hphase
      refine hnothing rfl rfl (.past ?_ (.turnedAway hclosed)) ?_
      · rfl
      · simp [Handler.causes, hphase]
  | @finishes why hphase => exact hpast (show h.phase.IsPast why by rw [hphase]; rfl)
  | leaves hphase => exact hpast (show h.phase.IsPast .stopped by rw [hphase]; rfl)
  | joins hphase => exact hpast (show h.phase.IsPast .disconnected by rw [hphase]; rfl)
  | reports hphase => exact hpast (show h.phase.IsPast .disconnected by rw [hphase]; rfl)
  | unheard hphase => exact hpast (show h.phase.IsPast .disconnected by rw [hphase]; rfl)

/-! ## The requests of a stream -/

/-- What a handler has forwarded are the first requests of its stream. -/
theorem Reads.readAll (reads : Reads stream causes closed h c requests) :
    ∃ rest, Stands closed h c causes rest ∧
      Request.readAll stream =
        (requests ++ (Request.readAll rest).1, (Request.readAll rest).2) := by
  obtain ⟨read, rest, hframes, rfl, hstands⟩ := reads.stands
  exact ⟨rest, hstands, hframes.readAll_append rest⟩

/-- A request that is being forwarded is the next one of the stream. -/
theorem Reads.forwarding {r : Request} (reads : Reads stream causes closed h c requests)
    (hphase : h.phase = .forwarding r) :
    (Request.readAll stream).1[h.forwarded]? = some r := by
  obtain ⟨rest, hstands, hall⟩ := reads.readAll
  obtain ⟨-, body, hvalid, hfound, rfl⟩ := hstands.of_forwarding hphase
  have hnext := ((Request.Frames.nil).snoc hvalid hfound).readAll_append c.inlet.unread
  rw [List.nil_append, List.nil_append] at hnext
  rw [hall, hnext, ← reads.counted, List.getElem?_append_right (Nat.le_refl _)]
  simp

/-- A handler that waits for bytes has forwarded all there was. -/
theorem Reads.waiting {reader : Frame.Reader} (reads : Reads stream causes closed h c requests)
    (hphase : h.phase = .reading reader) (hdry : c.inlet.unread = []) :
    (Request.readAll stream).1 = requests := by
  obtain ⟨rest, hstands, hall⟩ := reads.readAll
  obtain ⟨-, hinside, rfl⟩ := hstands.of_reading hphase
  have hnone : Request.readAll (reader.bytes ++ c.inlet.unread) =
      ([], reader.bytes ++ c.inlet.unread) := by
    apply Request.readAll_of_not_frame
    intro body rest hnext
    rw [hdry, List.append_nil, Frame.next_partial hinside] at hnext
    split at hnext <;> contradiction
  rw [hall, hnone, List.append_nil]

/-- What there is at the end of a stream that is read no further, and what became of the
connection. -/
def Cause.Explains (requests : List Request) (stream : Bytes) (c : Connection) : Cause → Prop
  | .stopped | .turnedAway => True
  | .streamEnd =>
      (Request.readAll stream).1 = requests ∧
        Frame.next (Request.readAll stream).2 = .closed ∧
        c.inlet.unread = [] ∧ c.inlet.ended = true
  | .tornFrame =>
      (Request.readAll stream).1 = requests ∧
        Frame.next (Request.readAll stream).2 = .torn ∧
        c.inlet.unread = [] ∧ c.inlet.ended = true
  | .badLength =>
      (Request.readAll stream).1 = requests ∧
        (∃ n, Frame.next (Request.readAll stream).2 = .invalid n c.inlet.unread) ∧
        c.aborted = true
  | .badBody =>
      (Request.readAll stream).1 = requests ∧
        (∃ body e, Frame.next (Request.readAll stream).2 = .frame body c.inlet.unread ∧
          Request.decode body = .error e) ∧
        c.aborted = true

theorem Reads.explains {cause : Cause} (reads : Reads stream [cause] closed h c requests) :
    cause.Explains requests stream c := by
  obtain ⟨rest, hstands, hall⟩ := reads.readAll
  cases hstands with
  | past _ hover =>
      have hwhole (hno : ∀ body after, Frame.next rest = .frame body after →
          ∃ e, Request.decode body = .error e) :
          (Request.readAll stream).1 = requests ∧ (Request.readAll stream).2 = rest := by
        rw [hall, Request.readAll_of_not_frame hno]
        exact ⟨List.append_nil _, rfl⟩
      cases hover with
      | stopped => trivial
      | turnedAway => trivial
      | streamEnd hdry hended =>
          obtain ⟨hrequests, hrest⟩ := hwhole (by
            intro body after h
            contradiction)
          exact ⟨hrequests, by rw [hrest]; rfl, hdry, hended⟩
      | tornFrame hinside htorn hdry hended =>
          have hnext := Frame.next_partial hinside
          rw [htorn, if_neg Bool.false_ne_true] at hnext
          obtain ⟨hrequests, hrest⟩ := hwhole (by
            intro body after h
            rw [hnext] at h
            contradiction)
          exact ⟨hrequests, by rw [hrest, hnext], hdry, hended⟩
      | @badLength digits hlength hinvalid habort =>
          have hnext : Frame.next (digits ++ c.inlet.unread) = .invalid _ c.inlet.unread :=
            Frame.next_invalid hlength hinvalid
          obtain ⟨hrequests, hrest⟩ := hwhole (by
            intro body after h
            rw [hnext] at h
            contradiction)
          exact ⟨hrequests, ⟨_, by rw [hrest, hnext]⟩, habort⟩
      | @badBody body e hvalid herror habort =>
          have hnext : Frame.next (Frame.encode body ++ c.inlet.unread) =
            .frame body c.inlet.unread := Frame.next_encode_append hvalid
          obtain ⟨hrequests, hrest⟩ := hwhole (by
            intro body' after h
            rw [hnext] at h
            cases h
            exact ⟨e, herror⟩)
          exact ⟨hrequests, ⟨body, e, by rw [hrest, hnext], herror⟩, habort⟩

/-! ## What the handler reports -/

/-- The events a handler has emitted so far. -/
inductive Told (unheard : Bool) (client : Nat) (h : Handler) (causes : List Cause) :
    List Event → Prop
  | notYet : h.phase ≠ .ended → Told unheard client h causes []
  | silent {cause : Cause} : h.phase = .ended → causes = [cause] → cause.ending = .stopped →
      Told unheard client h causes []
  | lost : h.phase = .ended → unheard = true → Told unheard client h causes []
  | reported {cause : Cause} : h.phase = .ended → causes = [cause] →
      cause.ending = .disconnected →
      Told unheard client h causes [.disconnected client h.forwarded]

theorem Told.nudged {k client : Nat} {act : Service.Act} {unheard unheard' : Bool}
    {events : List Event} (told : Told unheard client h causes events)
    (nudged : Service.Nudged k h act h') (kept : unheard = true → unheard' = true) :
    Told unheard' client h' causes events := by
  have hended (hphase : h.phase = .ended) : h'.phase = .ended := by
    rw [nudged.phase (by rw [hphase]; exact nofun), hphase]
  cases told with
  | notYet hphase =>
      refine .notYet ?_
      cases nudged with
      | starts => exact nofun
      | _ => exact hphase
  | silent hphase hcauses hending => exact .silent (hended hphase) hcauses hending
  | lost hphase hunheard => exact .lost (hended hphase) (kept hunheard)
  | reported hphase hcauses hending =>
      rw [← nudged.forwarded]
      exact .reported (hended hphase) hcauses hending

theorem Told.handled {k : Nat} {s : Service} {tickets : List Ticket} {more events : List Event}
    (told : Told s.events.closed c.client h causes events)
    (reads : Reads stream causes s.inbound.closed h c requests)
    (step : Service.Handled s k h c h' c' tickets more) :
    Told s.events.closed c.client h' (causes ++ h.causes h' c) (events ++ more) := by
  -- Only the last step reports, and after it there is none.
  have hnothing : events = [] := by
    cases told with
    | notYet => rfl
    | silent => rfl
    | lost => rfl
    | reported hphase => cases step <;> simp_all
  subst hnothing
  obtain ⟨read, rest, -, -, hstands⟩ := reads.stands
  have hcause {why : Ending} (past : h.phase.IsPast why) :
      ∃ cause, causes ++ h.causes h' c = [cause] ∧ h.phase.IsPast cause.ending := by
    obtain ⟨-, hcauses, -, -⟩ := hstands.step_past step past
    obtain ⟨cause, rfl, hpast, -⟩ := hstands.of_past past
    exact ⟨cause, by rw [hcauses, List.append_nil], hpast⟩
  cases step with
  | leaves hphase =>
      obtain ⟨cause, hcauses, hpast⟩ := hcause (show h.phase.IsPast .stopped by rw [hphase]; rfl)
      rw [hphase] at hpast
      exact .silent rfl hcauses hpast.symm
  | reports hphase =>
      obtain ⟨cause, hcauses, hpast⟩ :=
        hcause (show h.phase.IsPast .disconnected by rw [hphase]; rfl)
      rw [hphase] at hpast
      exact .reported rfl hcauses hpast
  | unheard _ hclosed => exact .lost rfl hclosed
  | _ => exact .notYet nofun

end Handler

namespace Service

open Handler (Cause Over Stands Reads)

/-! ## Observations of a handler -/

/-- The tickets the handler at a position puts on the inbound channel. -/
def putIn (k : Nat) (m : Moment Service Act) : List Ticket :=
  if m.act.isOfHandler k then m.after.inbound.items.drop m.before.inbound.items.length else []

/-- The events the handler at a position emits. -/
def emittedIn (k : Nat) (m : Moment Service Act) : List Event :=
  if m.act.isOfHandler k then m.after.events.items.drop m.before.events.items.length else []

/-- Why the handler at a position stops reading. -/
def causesIn (k : Nat) (m : Moment Service Act) : List Cause :=
  if m.act.isOfHandler k then
    match m.before.handlers[k]?, m.before.connections[k]?, m.after.handlers[k]? with
    | some h, some c, some h' => h.causes h' c
    | _, _, _ => []
  else []

def putBy (k : Nat) (past : List (Moment Service Act)) : List Ticket := past.flatMap (putIn k)

def emittedBy (k : Nat) (past : List (Moment Service Act)) : List Event :=
  past.flatMap (emittedIn k)

def causesOf (k : Nat) (past : List (Moment Service Act)) : List Cause :=
  past.flatMap (causesIn k)

/-- The tickets for the requests of a client, in order. -/
def ticketsOf (client k : Nat) (requests : List Request) : List Ticket :=
  requests.mapIdx fun sequence request => { client, sequence, request, connection := some k }

variable {process : Processing} {s s' : Service} {act : Act} {k budget : Nat} {h h' : Handler}
  {c c' : Connection} {stream : Bytes} {causes : List Cause} {requests : List Request}

@[simp]
theorem putBy_snoc {past : List (Moment Service Act)} {m : Moment Service Act} :
    putBy k (past ++ [m]) = putBy k past ++ putIn k m := by
  simp [putBy]

@[simp]
theorem emittedBy_snoc {past : List (Moment Service Act)} {m : Moment Service Act} :
    emittedBy k (past ++ [m]) = emittedBy k past ++ emittedIn k m := by
  simp [emittedBy]

@[simp]
theorem causesOf_snoc {past : List (Moment Service Act)} {m : Moment Service Act} :
    causesOf k (past ++ [m]) = causesOf k past ++ causesIn k m := by
  simp [causesOf]

theorem ticketsOf_snoc {client : Nat} {r : Request} :
    ticketsOf client k (requests ++ [r]) =
      ticketsOf client k requests ++
        [{ client, sequence := requests.length, request := r, connection := some k }] := by
  rw [ticketsOf, List.mapIdx_concat]
  rfl

/-! ## One step of a handler -/

theorem handler_afterHandler {tickets : List Ticket} {told : List Event}
    (hh : s.handlers[k]? = some h) :
    (s.afterHandler k h' c' tickets told).handlers[k]? = some h' := by
  rw [afterHandler, getElem?_set_here hh]

theorem connection_afterHandler {tickets : List Ticket} {told : List Event}
    (hc : s.connections[k]? = some c) :
    (s.afterHandler k h' c' tickets told).connections[k]? = some c' := by
  rw [afterHandler, getElem?_set_here hc]

/-! ### What a step adds to the histories -/

section

variable {act : Act} {budget : Nat} {tickets : List Ticket} {told : List Event}

theorem putIn_of_other (others : act.isOfHandler k = false) : putIn k ⟨s, act, s'⟩ = [] := by
  simp [putIn, others]

theorem emittedIn_of_other (others : act.isOfHandler k = false) :
    emittedIn k ⟨s, act, s'⟩ = [] := by
  simp [emittedIn, others]

theorem causesIn_of_other (others : act.isOfHandler k = false) : causesIn k ⟨s, act, s'⟩ = [] := by
  simp [causesIn, others]

theorem putIn_afterHandler :
    putIn k ⟨s, .step (.handler k budget), s.afterHandler k h' c' tickets told⟩ = tickets := by
  simp [putIn, Act.isOfHandler, afterHandler, Channel.put]

theorem emittedIn_afterHandler :
    emittedIn k ⟨s, .step (.handler k budget), s.afterHandler k h' c' tickets told⟩ = told := by
  simp [emittedIn, Act.isOfHandler, afterHandler, Channel.put]

theorem causesIn_afterHandler (hh : s.handlers[k]? = some h) (hc : s.connections[k]? = some c) :
    causesIn k ⟨s, .step (.handler k budget), s.afterHandler k h' c' tickets told⟩ =
      h.causes h' c := by
  simp [causesIn, Act.isOfHandler, hh, hc, handler_afterHandler hh]

end

/-- What a handler's own step does to its connection. -/
theorem handled_connection {tickets : List Ticket} {told : List Event}
    (step : Handled s k h c h' c' tickets told) :
    c'.client = c.client ∧ (c.Orderly → c'.Orderly) ∧
      ((∃ why, h'.phase = .joining why) → c'.expected = some h'.forwarded) := by
  have hsame (inlet : Inlet) (orderly : c.Orderly) : ({ c with inlet } : Connection).Orderly :=
    ⟨orderly.sorted, orderly.early, orderly.counted, orderly.cleared⟩
  cases step with
  | finishes =>
      exact ⟨rfl, fun o => ⟨o.sorted, o.early, o.counted, o.cleared⟩, fun _ => rfl⟩
  | rejects | objects =>
      exact ⟨Connection.abort_client _, fun o => (hsame _ o).abort, fun ⟨_, h⟩ => nomatch h⟩
  | runsDry | readsOn | finds => exact ⟨rfl, hsame _, fun ⟨_, h⟩ => nomatch h⟩
  | _ => exact ⟨rfl, id, fun ⟨_, h⟩ => nomatch h⟩

/-! ## Runs of a handler -/

/-- What holds of a handler and its connection along every run. -/
structure Handles (k client : Nat) (past : List (Moment Service Act)) (s : Service) (h : Handler)
    (c : Connection) (requests : List Request) : Prop where
  named : c.client = client
  reads : Reads (streamOf k past) (causesOf k past) s.inbound.closed h c requests
  put : putBy k past = ticketsOf client k requests
  told : Handler.Told s.events.closed client h (causesOf k past) (emittedBy k past)
  orderly : c.Orderly
  owes : (∃ why, h.phase = .joining why) → c.expected = some h.forwarded

theorem handles_start {client : Nat} {capacity : Option Nat} :
    Handles k client [] s {} { client, capacity } [] where
  named := rfl
  reads := ⟨rfl, [], [], .nil, rfl, .idle rfl⟩
  put := rfl
  told := .notYet nofun
  orderly := Connection.orderly_fresh client capacity
  owes := fun ⟨_, h⟩ => nomatch h

variable {client : Nat} {past : List (Moment Service Act)}

/-- Another act leaves the handler where it is. -/
theorem Handles.other (handles : Handles k client past s h c requests)
    (others : act.isOfHandler k = false) (step : s.act? process act = some s')
    (hh : s.handlers[k]? = some h) (hc : s.connections[k]? = some c) :
    ∃ h' c', s'.handlers[k]? = some h' ∧ s'.connections[k]? = some c' ∧
      Handles k client (past ++ [⟨s, act, s'⟩]) s' h' c' requests := by
  obtain ⟨h', hh', nudged⟩ := handler_nudged others step hh hc
  obtain ⟨c', hc', touched⟩ := connection_touched others step hc
  obtain ⟨hinbound, hevents, -⟩ := channels_kept step
  refine ⟨h', c', hh', hc', ?_, ?_, ?_, ?_, handles.orderly.touched touched, ?_⟩
  · rw [touched.grown.client, handles.named]
  · rw [streamOf_snoc, causesOf_snoc, causesIn_of_other others, List.append_nil]
    exact handles.reads.grown nudged touched.grown hinbound
  · rw [putBy_snoc, putIn_of_other others, List.append_nil, handles.put]
  · rw [emittedBy_snoc, causesOf_snoc, causesIn_of_other others, emittedIn_of_other others,
      List.append_nil, List.append_nil]
    exact handles.told.nudged nudged hevents
  · rintro ⟨why, hphase⟩
    rw [touched.expected, nudged.forwarded]
    cases nudged with
    | starts => contradiction
    | _ => exact handles.owes ⟨why, hphase⟩

/-- A step of the handler itself. -/
theorem Handles.own {tickets : List Ticket} {told : List Event}
    (handles : Handles k client past s h c requests)
    (step : Handled s k h c h' c' tickets told) (hh : s.handlers[k]? = some h)
    (hc : s.connections[k]? = some c) :
    ∃ requests', Handles k client
      (past ++ [⟨s, .step (.handler k budget), s.afterHandler k h' c' tickets told⟩])
      (s.afterHandler k h' c' tickets told) h' c' requests' := by
  obtain ⟨more, htickets, hreads⟩ := handles.reads.handled step
  obtain ⟨hclient, horderly, howes⟩ := handled_connection step
  refine ⟨requests ++ more, ?_, ?_, ?_, ?_, horderly handles.orderly, howes⟩
  · rw [hclient, handles.named]
  · have harrived : arrivedIn k
        ⟨s, .step (.handler k budget), s.afterHandler k h' c' tickets told⟩ = [] := rfl
    rw [streamOf_snoc, causesOf_snoc, causesIn_afterHandler hh hc, harrived, List.append_nil]
    exact hreads
  · rw [putBy_snoc, putIn_afterHandler, handles.put, htickets]
    have hlength := handles.reads.counted
    cases step with
    | forwards =>
        cases more with
        | nil => simp at htickets
        | cons r more =>
            cases more with
            | nil =>
                rw [ticketsOf_snoc, List.map_singleton, ticketOf, handles.named, hlength]
            | cons => simp at htickets
    | _ =>
        rw [List.map_eq_nil_iff.mp htickets.symm, List.map_nil, List.append_nil,
          List.append_nil]
  · rw [emittedBy_snoc, causesOf_snoc, causesIn_afterHandler hh hc, emittedIn_afterHandler,
      ← handles.named]
    have := handles.told
    rw [← handles.named] at this
    exact this.handled handles.reads step

theorem handles_run {s₀ : Service} {capacity : Option Nat} (run : Run (act? process) s₀ past s)
    (hh : s₀.handlers[k]? = some {}) (hc : s₀.connections[k]? = some { client, capacity }) :
    ∃ h c requests, s.handlers[k]? = some h ∧ s.connections[k]? = some c ∧
      Handles k client past s h c requests := by
  induction run with
  | start => exact ⟨_, _, _, hh, hc, handles_start⟩
  | @snoc past now next act run step ih =>
      obtain ⟨h, c, requests, hh, hc, handles⟩ := ih
      by_cases hown : act.isOfHandler k = true
      · obtain ⟨budget, rfl⟩ := Act.eq_of_isOfHandler hown
        cases stepped_of_act? step with
        | handler hh₀ hc₀ hhandled =>
            cases hh.symm.trans hh₀
            cases hc.symm.trans hc₀
            obtain ⟨requests', handles'⟩ := handles.own hhandled hh hc
            exact ⟨_, _, _, handler_afterHandler hh, connection_afterHandler hc, handles'⟩
      · rw [Bool.not_eq_true] at hown
        obtain ⟨h', c', hh', hc', handles'⟩ := handles.other hown step hh hc
        exact ⟨_, _, _, hh', hc', handles'⟩

/-! ## What a run comes to -/

theorem ticketsOf_prefix {requests' : List Request} (h : requests <+: requests') :
    ticketsOf client k requests <+: ticketsOf client k requests' := by
  obtain ⟨more, rfl⟩ := h
  rw [ticketsOf, ticketsOf, List.mapIdx_append]
  exact List.prefix_append _ _

/-- What became of the stream of a client: the tickets its handler has put on the inbound
channel, why it has stopped reading, and what it has reported. -/
structure Account (k client : Nat) (past : List (Moment Service Act)) (s : Service) (h : Handler)
    (c : Connection) : Prop where
  /-- The tickets are those of the stream's requests, in order and numbered from zero. -/
  in_order : putBy k past <+: ticketsOf client k (Request.readAll (streamOf k past)).1
  counted : (putBy k past).length = h.forwarded
  /-- Reading ends once at most. -/
  ends_once : (causesOf k past).length ≤ 1
  stopped : .stopped ∈ causesOf k past → h.stopRequested = true
  turned_away : .turnedAway ∈ causesOf k past → s.inbound.closed = true
  /-- If reading ends on its own, no request is missing and nothing behind the end of the good
  frames has been read but the offending frame. -/
  complete : ∀ cause ∈ causesOf k past, cause ≠ .stopped → cause ≠ .turnedAway →
    putBy k past = ticketsOf client k (Request.readAll (streamOf k past)).1 ∧
      cause.Explains (Request.readAll (streamOf k past)).1 (streamOf k past) c
  /-- A handler that reads and can do nothing has forwarded all there was, unless the inbound
  channel is full. -/
  waits : causesOf k past = [] → h.phase ≠ .idle → (∀ budget, s.handlerStep? budget k = none) →
    c.inlet.ended = false ∧ c.inlet.unread = [] ∧
        putBy k past = ticketsOf client k (Request.readAll (streamOf k past)).1 ∨
      s.inbound.closed = false ∧ s.inbound.hasRoom = false
  tells_once : emittedBy k past = [] ∨
    emittedBy k past = [.disconnected client (putBy k past).length]
  silent : causesOf k past = [] ∨ .stopped ∈ causesOf k past ∨ .turnedAway ∈ causesOf k past →
    emittedBy k past = []
  /-- Whatever else ends reading is reported, once nothing is owed to the client any more and
  it has taken what it was sent. -/
  tells : ∀ cause ∈ causesOf k past, cause ≠ .stopped → cause ≠ .turnedAway →
    (∀ budget, s.handlerStep? budget k = none) → (∀ budget, s.writerStep? budget k = none) →
    ((∀ i < (putBy k past).length, c.isAnswered i = true) ∧ c.isStalled = false ∨
      c.aborted = true) →
    s.events.closed = false → s.events.hasRoom = true →
    emittedBy k past = [.disconnected client (putBy k past).length]

theorem Handles.length_putBy (handles : Handles k client past s h c requests) :
    (putBy k past).length = h.forwarded := by
  rw [handles.put, ticketsOf, List.length_mapIdx, handles.reads.counted]

/-- The one cause there can be. -/
theorem Handles.causes_eq (handles : Handles k client past s h c requests) {cause : Cause}
    (hcause : cause ∈ causesOf k past) :
    causesOf k past = [cause] ∧ h.phase.IsPast cause.ending ∧
      ∃ rest, Over s.inbound.closed h c cause rest := by
  obtain ⟨read, rest, -, -, hstands⟩ := handles.reads.stands
  generalize causesOf k past = causes at hstands hcause
  cases hstands with
  | past hpast hover =>
      cases List.mem_singleton.mp hcause
      exact ⟨rfl, hpast, rest, hover⟩
  | _ => contradiction

theorem Handles.tells (handles : Handles k client past s h c requests) {cause : Cause}
    (hh : s.handlers[k]? = some h) (hc : s.connections[k]? = some c)
    (hcause : cause ∈ causesOf k past) (hending : cause.ending = .disconnected)
    (handler : ∀ budget, s.handlerStep? budget k = none)
    (writer : ∀ budget, s.writerStep? budget k = none)
    (served : (∀ i < (putBy k past).length, c.isAnswered i = true) ∧ c.isStalled = false ∨
      c.aborted = true)
    (heard : s.events.closed = false) (room : s.events.hasRoom = true) :
    emittedBy k past = [.disconnected client (putBy k past).length] := by
  obtain ⟨hcauses, hpast, -⟩ := handles.causes_eq hcause
  have hwaits := handler_waits hh hc (handler 0)
  have hwriter : c.writerStep? 0 = none := writer_stuck hc (writer 0)
  have hended : h.phase = .ended := by
    cases hphase : h.phase with
    | ended => rfl
    | joining why =>
        rw [hphase] at hwaits
        rcases served with ⟨hall, hroom⟩ | habort
        · -- A writer that waits owes a response, the next one.
          obtain ⟨-, -, hempty, hmore⟩ :=
            Connection.writer_waits_with_room hwaits hroom hwriter
          have howes := handles.owes ⟨why, hphase⟩
          simp only [Connection.isFinished, hempty, howes, List.isEmpty_nil, Option.any_some,
            Bool.true_and, decide_eq_false_iff_not, Nat.not_le] at hmore
          have hnext := hall c.next (by rw [handles.length_putBy]; exact hmore)
          rw [handles.orderly.next_unanswered] at hnext
          contradiction
        · obtain ⟨hlive, -⟩ := Connection.writer_waits hwaits hwriter
          rw [hlive] at habort
          contradiction
    | reporting =>
        rw [hphase, heard, room] at hwaits
        exact absurd hwaits.2.symm Bool.false_ne_true
    | finishing why => rw [hphase] at hwaits; exact hwaits.elim
    | _ => rw [hphase] at hpast; exact hpast.elim
  have htold := handles.told
  rw [hcauses] at htold
  rw [handles.length_putBy]
  generalize emittedBy k past = events at htold
  cases htold with
  | notYet hphase => exact absurd hended hphase
  | silent _ hcause' hstopped =>
      cases hcause'
      rw [hending] at hstopped
      contradiction
  | lost _ hclosed =>
      rw [heard] at hclosed
      contradiction
  | reported => rfl

theorem Handles.account (handles : Handles k client past s h c requests)
    (hh : s.handlers[k]? = some h) (hc : s.connections[k]? = some c) :
    Account k client past s h c := by
  obtain ⟨rest, hstands, hall⟩ := handles.reads.readAll
  have hending {cause : Cause} (hstop : cause ≠ .stopped) (haway : cause ≠ .turnedAway) :
      cause.ending = .disconnected := by
    cases cause <;> simp_all [Cause.ending]
  refine ⟨?_, handles.length_putBy, ?_, ?_, ?_, ?_, ?_, ?_, ?_, ?_⟩
  · rw [handles.put, hall]
    exact ticketsOf_prefix (List.prefix_append _ _)
  · generalize causesOf k past = causes at hstands
    cases hstands with
    | past => exact Nat.le_refl _
    | _ => exact Nat.zero_le _
  · intro hcause
    obtain ⟨-, -, _, hover⟩ := handles.causes_eq hcause
    cases hover with
    | stopped hstop => exact hstop
  · intro hcause
    obtain ⟨-, -, _, hover⟩ := handles.causes_eq hcause
    cases hover with
    | turnedAway hclosed => exact hclosed
  · intro cause hcause hstop haway
    have hreads := handles.reads
    rw [(handles.causes_eq hcause).1] at hreads
    have hexplains := hreads.explains
    have hrequests : (Request.readAll (streamOf k past)).1 = requests := by
      cases cause with
      | stopped => contradiction
      | turnedAway => contradiction
      | _ => exact hexplains.1
    rw [hrequests]
    exact ⟨handles.put, hexplains⟩
  · intro hnone hbusy hstuck
    have hwaits := handler_waits hh hc (hstuck 0)
    rw [hnone] at hstands
    cases hstands with
    | idle hidle => exact absurd hidle hbusy
    | reading hphase =>
        rw [hphase] at hwaits
        obtain ⟨-, hdry, hopen⟩ := hwaits
        refine Or.inl ⟨hopen, hdry, ?_⟩
        rw [handles.put, handles.reads.waiting hphase hdry]
    | forwarding hphase =>
        rw [hphase] at hwaits
        exact Or.inr hwaits
  · have htold := handles.told
    rw [handles.length_putBy]
    generalize emittedBy k past = events at htold
    cases htold with
    | reported => exact Or.inr rfl
    | _ => exact Or.inl rfl
  · intro hquiet
    have htold := handles.told
    generalize emittedBy k past = events at htold
    cases htold with
    | reported _ hcauses hdisconnected =>
        rw [hcauses] at hquiet
        rcases hquiet with h | h | h
        · contradiction
        · rw [← List.mem_singleton.mp h] at hdisconnected
          contradiction
        · rw [← List.mem_singleton.mp h] at hdisconnected
          contradiction
    | _ => rfl
  · intro cause hcause hstop haway
    exact handles.tells hh hc hcause (hending hstop haway)

/-- **A handler forwards exactly the good beginning of its stream.** Whatever else happens in
the service, the tickets that the handler of a fresh connection puts on the inbound channel
are those of the requests of the longest good beginning of the stream that arrives, with its
client's number and the sequences 0, 1, 2, ...; it falls short of that only where the handler
was stopped or the channel closed. If its reading ends in any other way, it reports the end
once, with the number of its tickets, as soon as every one of them is answered and its client
has taken the answers, or the connection is aborted; a bad frame aborts it. -/
theorem handler_forwards_good_beginning {s₀ : Service} {capacity : Option Nat}
    (run : Run (act? process) s₀ past s) (hh : s₀.handlers[k]? = some {})
    (hc : s₀.connections[k]? = some { client, capacity }) :
    ∃ h c, s.handlers[k]? = some h ∧ s.connections[k]? = some c ∧
      Account k client past s h c := by
  obtain ⟨h, c, requests, hh, hc, handles⟩ := handles_run run hh hc
  exact ⟨h, c, hh, hc, handles.account hh hc⟩

/-- A client asks for one thing, then announces a frame of length zero, and its handler cuts
it off. -/
theorem handler_forwards_good_beginning_bad_length :
    ∃ past s, Run (act? fun t => (.answer (.ok t.request.id), []))
        { inbound := { capacity := 1 }, connections := [{ client := 7 }], handlers := [{}] }
        past s ∧
      putBy 0 past = [{ client := 7, request := ⟨3, .create⟩, connection := some 0 }] ∧
      causesOf 0 past = [.badLength] ∧ emittedBy 0 past = [.disconnected 7 1] ∧
      ∃ h c, s.handlers[0]? = some h ∧ s.connections[0]? = some c ∧ Account 0 7 past s h c := by
  have hrun : (perform? (act? fun t => (.answer (.ok t.request.id), []))
      { inbound := { capacity := 1 }, connections := [{ client := 7 }], handlers := [{}] }
      [.start 0,
        .clientWrites 0 (Frame.encode (Message.ofRequest ⟨3, .create⟩).encode ++ .replicate 9 0),
        .step (.handler 0 100), .step (.handler 0 0), .withdraw, .step (.handler 0 100),
        .step (.handler 0 0), .step (.writer 0 0), .step (.handler 0 0),
        .step (.handler 0 0)]).map
      (fun p => (putBy 0 p.1, causesOf 0 p.1, emittedBy 0 p.1)) =
      some ([{ client := 7, request := ⟨3, .create⟩, connection := some 0 }], [.badLength],
        [.disconnected 7 1]) := by decide +kernel
  obtain ⟨⟨past, s⟩, hperform, hshows⟩ := Option.map_eq_some_iff.mp hrun
  obtain ⟨hput, hcauses, hemitted⟩ := by simpa using hshows
  have run := Run.of_perform? hperform
  exact ⟨past, s, run, hput, hcauses, hemitted, handler_forwards_good_beginning run rfl rfl⟩

end Service

end SearchDaemon
