import SearchDaemon.Channel.Exchange
import SearchDaemon.Proofs.ChannelGroups

/-!
# Exchanges are groups of channels

An exchange lets one call after the other be made on channels that go by names, and at most one
of them wait. That is a group of channels with two callers, one whose call may wait and one whose
calls return at once, and every step of an exchange is a few steps of the group: whatever lets
the waiting call return also wakes it. So the channels of an exchange are the bounded queues that
the channels of every group are.
-/

namespace SearchDaemon.Channel

/-- Who calls in an exchange. -/
inductive Caller where
  /-- The one whose call may wait. -/
  | patient
  /-- Those whose calls return at once, one after the other. -/
  | passing
deriving DecidableEq

namespace Call

/-- The call as it is made on the channels of a group. -/
def inGroup : Call → Group.Call fun _ : Bytes => Bytes
  | .send name item => .send name item
  | .receive name => .receive name
  | .select first second => .select first second

/-- The items that a channel has accepted by what a call has returned. -/
def accepted (name : Bytes) : Call → Outcome → List Bytes
  | .send channel item, .sent true => if channel = name then [item] else []
  | _, _ => []

/-- The items that have been received from a channel by what a call has returned. -/
def received (name : Bytes) : Call → Outcome → List Bytes
  | .receive channel, .received (some item) => if channel = name then [item] else []
  | .select first _, .chosen (.first (some item)) => if first = name then [item] else []
  | .select _ second, .chosen (.second (some item)) => if second = name then [item] else []
  | _, _ => []

/-- The calls that a group's outcome can be returned to, and as what. -/
inductive Told : Call → Outcome → Group.Outcome (fun _ : Bytes => Bytes) → Prop
  | sent {name item : Bytes} {accepted : Bool} :
      Told (.send name item) (.sent accepted) (.sent name item accepted)
  | received {name : Bytes} {item : Option Bytes} :
      Told (.receive name) (.received item) (.received name item)
  | first {a b : Bytes} {item : Option Bytes} :
      Told (.select a b) (.chosen (.first item)) (.received a item)
  | second {a b : Bytes} {item : Option Bytes} :
      Told (.select a b) (.chosen (.second item)) (.received b item)

theorem Told.same {call : Call} {outcome : Outcome}
    {told : Group.Outcome fun _ : Bytes => Bytes} (h : Told call outcome told) (name : Bytes) :
    told.accepted name = call.accepted name outcome ∧
      told.taken name = call.received name outcome := by
  cases h with
  | @sent channel item taken =>
      cases taken with
      | false => exact ⟨rfl, rfl⟩
      | true =>
          refine ⟨?_, rfl⟩
          by_cases hname : channel = name
          · subst hname
            simp [Group.Outcome.accepted, Call.accepted]
          · simp [Group.Outcome.accepted, Call.accepted, hname]
  | @received channel item | @first channel b item | @second a channel item =>
      cases item with
      | none => exact ⟨rfl, rfl⟩
      | some item =>
          refine ⟨rfl, ?_⟩
          by_cases hname : channel = name
          · subst hname
            simp [Group.Outcome.taken, Call.received]
          · simp [Group.Outcome.taken, Call.received, hname]

end Call

/-- Calls and what they have returned, in this order. -/
abbrev Returns := List (Call × Outcome)

def Returns.accepted (name : Bytes) (returns : Returns) : List Bytes :=
  returns.flatMap fun (call, outcome) => call.accepted name outcome

def Returns.received (name : Bytes) (returns : Returns) : List Bytes :=
  returns.flatMap fun (call, outcome) => call.received name outcome

namespace Exchange

/-- Two callers on channels that go by names. -/
abbrev NamedGroup := Group Caller fun _ : Bytes => Bytes

/-- The channel of a name. A name without one stands for a channel that nobody uses. -/
def channels (e : Exchange) (name : Bytes) : Channel Bytes :=
  ((e.find? name).map (·.channel)).getD {}

/-- The exchange as a group, its waiting call awake or not. -/
def toGroup (e : Exchange) (awake : Bool) : NamedGroup where
  channels := e.channels
  pending := fun
    | .patient => e.waiting.map fun call => { call := call.inGroup, awake }
    | .passing => none

/-- The channels of a call are there. -/
def Knows (e : Exchange) : Call → Prop
  | .send name _ | .receive name => (e.find? name).isSome
  | .select first second => (e.find? first).isSome ∧ (e.find? second).isSome

variable {e e' : Exchange} {call : Call} {outcome : Outcome} {name : Bytes} {g g' g'' : NamedGroup}
  {returns returns' : Returns} {channel : Channel Bytes}

/-! ## Channels by their names -/

theorem find?_update (known : (e.find? name).isSome) (other : Bytes) :
    (e.update name channel).find? other =
      if other = name then (e.find? name).map fun member => { member with channel }
      else e.find? other := by
  obtain ⟨member, hmember⟩ := Option.isSome_iff_exists.mp known
  have hput : (e.update name channel).find? other =
      ((name, { member with channel }) :: e.members.filter (·.1 ≠ name)).lookup other := by
    rw [update, hmember]
    rfl
  have hrest := FileTree.lookup_filter_ne name other e.members
  rw [hput, List.lookup_cons]
  by_cases hname : other = name
  · subst hname
    rw [beq_self_eq_true, if_pos rfl, hmember]
    rfl
  · rw [if_neg hname] at hrest ⊢
    rw [beq_eq_false_iff_ne.mpr hname]
    simp only [ne_eq, decide_not]
    exact hrest

theorem channels_update (known : (e.find? name).isSome) :
    (e.update name channel).channels = Function.update e.channels name channel := by
  obtain ⟨member, hmember⟩ := Option.isSome_iff_exists.mp known
  funext other
  rw [channels, find?_update known]
  by_cases hname : other = name
  · subst hname
    rw [if_pos rfl, hmember, Function.update_self]
    rfl
  · rw [if_neg hname, Function.update_of_ne hname]
    rfl

theorem channels_of_find? {member : Member} (h : e.find? name = some member) :
    e.channels name = member.channel := by
  rw [channels, h]
  rfl

/-- What changes a channel leaves the names and the waiting call. -/
structure Frame (e e' : Exchange) : Prop where
  waiting : e'.waiting = e.waiting
  names : ∀ name, (e'.find? name).isSome = (e.find? name).isSome

theorem Frame.refl (e : Exchange) : Frame e e := ⟨rfl, fun _ => rfl⟩

theorem frame_update (known : (e.find? name).isSome) (channel : Channel Bytes) :
    Frame e (e.update name channel) where
  waiting := by
    unfold update
    split <;> rfl
  names := by
    intro other
    rw [find?_update known]
    split
    · rename_i hname
      rw [hname, Option.isSome_map]
    · rfl

theorem Frame.knows (frame : Frame e e') (known : e.Knows call) : e'.Knows call := by
  cases call with
  | send name | receive name => exact (frame.names name).trans known
  | select first second =>
      exact ⟨(frame.names first).trans known.1, (frame.names second).trans known.2⟩

theorem knows_of_objection (free : e.objection call = none) : e.Knows call := by
  cases call with
  | send name | receive name =>
      simp only [objection] at free
      split_ifs at free with hknown
      exact hknown
  | select first second =>
      simp only [objection] at free
      split_ifs at free with hunknown
      rwa [Bool.not_eq_true, Bool.not_eq_false', Bool.and_eq_true] at hunknown

/-- **A call returns here what it returns in the group**, and waits if it waits there. -/
theorem attempt_cases (known : e.Knows call) :
    (e.attempt call = none ∧ Group.attempt e.channels call.inGroup = none) ∨
      ∃ outcome told e', e.attempt call = some (outcome, e') ∧ call.Told outcome told ∧
        Group.attempt e.channels call.inGroup = some (told, e'.channels) ∧ Frame e e' := by
  cases call with
  | send name item =>
      obtain ⟨member, hmember⟩ := Option.isSome_iff_exists.mp known
      simp only [attempt, Call.inGroup, Group.attempt, hmember, channels_of_find? hmember]
      cases hsend : member.channel.send? item with
      | none => exact Or.inl ⟨by simp [hsend], rfl⟩
      | some sent =>
          obtain ⟨taken, channel⟩ := sent
          refine Or.inr ⟨.sent taken, _, e.update name channel, by simp [hsend], .sent, ?_,
            frame_update known _⟩
          rw [channels_update known]
          rfl
  | receive name =>
      obtain ⟨member, hmember⟩ := Option.isSome_iff_exists.mp known
      simp only [attempt, Call.inGroup, Group.attempt, hmember, channels_of_find? hmember]
      cases hreceive : member.channel.receive? with
      | none => exact Or.inl ⟨by simp [hreceive], rfl⟩
      | some received =>
          obtain ⟨item, channel⟩ := received
          refine Or.inr ⟨.received item, _, e.update name channel, by simp [hreceive], .received,
            ?_, frame_update known _⟩
          rw [channels_update known]
          rfl
  | select first second =>
      obtain ⟨a, ha⟩ := Option.isSome_iff_exists.mp known.1
      obtain ⟨b, hb⟩ := Option.isSome_iff_exists.mp known.2
      simp only [attempt, Call.inGroup, Group.attempt, ha, hb, channels_of_find? ha,
        channels_of_find? hb]
      cases hselect : a.channel.select? b.channel with
      | none => exact Or.inl ⟨by simp [hselect], rfl⟩
      | some selected =>
          obtain ⟨choice, a', b'⟩ := selected
          cases choice with
          | first item =>
              refine Or.inr ⟨.chosen (.first item), _, e.update first a', by simp [hselect],
                .first, ?_, frame_update known.1 _⟩
              rw [channels_update known.1]
              rfl
          | second item =>
              refine Or.inr ⟨.chosen (.second item), _, e.update second b', by simp [hselect],
                .second, ?_, frame_update known.2 _⟩
              rw [channels_update known.2]
              rfl

/-! ## Runs of the group -/

/-- The group can go on in such a way that what is returned puts the same items into the
channels and takes the same out of them. -/
def Shows (g : NamedGroup) (returns : Returns) (g' : NamedGroup) : Prop :=
  ∃ past, Run Group.act? g past g' ∧ ∀ name,
    Group.accepted name past = returns.accepted name ∧
      Group.received name past = returns.received name

theorem Shows.refl (g : NamedGroup) : Shows g [] g := ⟨[], .start, fun _ => ⟨rfl, rfl⟩⟩

theorem Shows.trans (first : Shows g returns g') (second : Shows g' returns' g'') :
    Shows g (returns ++ returns') g'' := by
  obtain ⟨past, hrun, hreturns⟩ := first
  obtain ⟨later, hrun', hreturns'⟩ := second
  refine ⟨past ++ later, hrun.append hrun', fun name => ⟨?_, ?_⟩⟩
  · simp only [Group.accepted, Returns.accepted, List.flatMap_append] at hreturns hreturns' ⊢
    rw [(hreturns name).1, (hreturns' name).1]
  · simp only [Group.received, Returns.received, List.flatMap_append] at hreturns hreturns' ⊢
    rw [(hreturns name).2, (hreturns' name).2]

theorem shows_act (act : Group.Act Caller fun _ : Bytes => Bytes) (step : g.act? act = some g')
    (told : ∀ name, (Group.outcomeIn ⟨g, act, g'⟩).toList.flatMap (·.accepted name) =
        returns.accepted name ∧
      (Group.outcomeIn ⟨g, act, g'⟩).toList.flatMap (·.taken name) = returns.received name) :
    Shows g returns g' := by
  refine ⟨[] ++ [⟨g, act, g'⟩], Run.start.snoc step, fun name => ?_⟩
  rw [Group.accepted_snoc, Group.received_snoc]
  exact told name

theorem shows_quiet (act : Group.Act Caller fun _ : Bytes => Bytes) (step : g.act? act = some g')
    (silent : Group.outcomeIn ⟨g, act, g'⟩ = none) : Shows g [] g' :=
  shows_act act step fun name => by rw [silent]; exact ⟨rfl, rfl⟩

/-- A call that need not wait returns. -/
theorem shows_leave (caller : Caller) {told : Group.Outcome fun _ : Bytes => Bytes}
    (h : g.returns? caller = some (told, g')) (same : call.Told outcome told) :
    Shows g [(call, outcome)] g' := by
  refine shows_act (.leave caller) (by rw [Group.act?, h]; rfl) fun name => ?_
  have hout : Group.outcomeIn ⟨g, .leave caller, g'⟩ = some told := by
    rw [Group.outcomeIn]
    dsimp only
    rw [h]
    rfl
  obtain ⟨haccepted, hreceived⟩ := same.same name
  rw [hout]
  simp [Returns.accepted, Returns.received, haccepted, hreceived]

/-- The waiting call may wake up whenever it likes. -/
theorem shows_wake (channels : g.channels = e.channels) (passing : g.pending .passing = none)
    (patient : (g.pending .patient).map (·.call) = e.waiting.map Call.inGroup) :
    Shows g [] (e.toGroup true) := by
  refine shows_quiet (.wake .patient) ?_ rfl
  rw [Group.act?, Option.some.injEq]
  obtain ⟨_, pending⟩ := g
  cases channels
  rw [toGroup, Group.mk.injEq]
  refine ⟨rfl, funext fun caller => ?_⟩
  cases caller with
  | passing => exact passing
  | patient =>
      rw [Function.update_self]
      have hcalls := congrArg (Option.map fun call => ({ call } : Group.Pending _)) patient
      rw [Option.map_map, Option.map_map] at hcalls
      exact hcalls

/-! ## Steps of an exchange -/

/-- The waiting call waits for channels that are there. -/
def Sound (e : Exchange) : Prop := ∀ call ∈ e.waiting, e.Knows call

theorem Sound.frame (sound : e.Sound) (frame : Frame e e') : e'.Sound := by
  intro call hcall
  rw [frame.waiting] at hcall
  exact frame.knows (sound call hcall)

/-- What is returned to the waiting call when it is released. -/
def released (e : Exchange) : Returns :=
  (e.waiting.bind fun call => e.release.1.map fun outcome => (call, outcome)).toList

/-- The waiting call, once it is awake, returns or goes to sleep again. -/
theorem release_shows (sound : e.Sound) :
    e.release.2.Sound ∧ Shows (e.toGroup true) e.released (e.release.2.toGroup false) := by
  cases hwaiting : e.waiting with
  | none =>
      have hrelease : e.release = (none, e) := by
        rw [release, hwaiting]
        rfl
      have hgroup : e.toGroup true = e.toGroup false := by
        simp only [toGroup, hwaiting]
        rfl
      rw [released, hwaiting, hrelease, hgroup]
      exact ⟨sound, .refl _⟩
  | some call =>
      have hpending : (e.toGroup true).pending .patient = some { call := call.inGroup } := by
        rw [toGroup, hwaiting]
        rfl
      rcases attempt_cases (sound call hwaiting) with
        ⟨hnone, hsleeps⟩ | ⟨outcome, told, e', hattempt, htold, hreturns, frame⟩
      · have hrelease : e.release = (none, e) := by
          rw [release, hwaiting, Option.bind_some, hnone]
        rw [released, hwaiting, hrelease]
        refine ⟨sound, shows_quiet (.sleep .patient) ?_ rfl⟩
        rw [Group.act?, hpending]
        dsimp only
        rw [if_pos (by exact Option.isNone_iff_eq_none.mpr hsleeps), Option.some.injEq, toGroup,
          toGroup, Group.mk.injEq]
        refine ⟨rfl, funext fun caller => ?_⟩
        cases caller with
        | passing => rfl
        | patient => rw [Function.update_self, hwaiting]; rfl
      · have hrelease : e.release = (some outcome, { e' with waiting := none }) := by
          rw [release, hwaiting, Option.bind_some, hattempt]
        rw [released, hwaiting, hrelease]
        refine ⟨fun _ h => absurd h (by simp), shows_leave .patient ?_ htold⟩
        rw [Group.returns?, hpending]
        dsimp only
        rw [show (e.toGroup true).channels = e.channels from rfl, hreturns, Option.map_some]
        refine congrArg some (Prod.ext rfl ?_)
        rw [toGroup, Group.mk.injEq]
        refine ⟨rfl, funext fun caller => ?_⟩
        cases caller with
        | patient => exact Function.update_self _ _ _
        | passing =>
            have hother : Caller.passing ≠ .patient := by decide
            refine (Function.update_of_ne hother _ _).trans ?_
            split <;> rfl

/-- Nobody is there to be woken. -/
theorem toGroup_idle (idle : e.waiting = none) (awake awake' : Bool) :
    e.toGroup awake = e.toGroup awake' := by
  simp only [toGroup, idle, Option.map_none]

theorem wakes (e : Exchange) : Shows (e.toGroup false) [] (e.toGroup true) :=
  shows_wake rfl rfl (by cases h : e.waiting <;> simp [toGroup, h])

/-- A passing caller comes with a call that need not wait, and leaves with what it returns. -/
theorem passes_shows {told : Group.Outcome fun _ : Bytes => Bytes}
    (returns : Group.attempt e.channels call.inGroup = some (told, e'.channels))
    (same : call.Told outcome told) (frame : Frame e e') :
    Shows (e.toGroup false) [(call, outcome)] (e'.toGroup true) := by
  let entered : NamedGroup :=
    { e.toGroup false with
      pending :=
        Function.update (e.toGroup false).pending .passing (some { call := call.inGroup }) }
  have henter : Shows (e.toGroup false) [] entered :=
    shows_quiet (.enter .passing call.inGroup) rfl rfl
  have hpending : entered.pending .passing = some { call := call.inGroup } := by
    simp only [entered, Function.update_self]
  have hother : Caller.patient ≠ .passing := nofun
  obtain ⟨left, hleft, hchannels, hgone, hpatient⟩ : ∃ left,
      entered.returns? .passing = some (told, left) ∧ left.channels = e'.channels ∧
        left.pending .passing = none ∧
        (left.pending .patient).map (·.call) = e'.waiting.map Call.inGroup := by
    rw [Group.returns?, hpending]
    dsimp only
    rw [show entered.channels = e.channels from rfl, returns, Option.map_some]
    have hbefore : entered.pending .patient = (e.toGroup false).pending .patient := by
      simp only [entered, Function.update_of_ne hother]
    refine ⟨_, rfl, rfl, by simp only [Function.update_self], ?_⟩
    dsimp only
    rw [Function.update_of_ne hother, frame.waiting]
    split
    · rw [Group.roused, hbefore]
      cases h : e.waiting <;> simp [toGroup, h]
    · rw [hbefore]
      cases h : e.waiting <;> simp [toGroup, h]
  have hleave : Shows entered [(call, outcome)] left := shows_leave _ hleft same
  exact (henter.trans hleave).trans (shows_wake hchannels hgone hpatient)

/-- A patient caller comes with a call that has to wait, and goes to sleep. -/
theorem waits_shows (idle : e.waiting = none)
    (waits : Group.attempt e.channels call.inGroup = none) :
    Shows (e.toGroup false) [] ({ e with waiting := some call }.toGroup false) := by
  let entered : NamedGroup :=
    { e.toGroup false with
      pending :=
        Function.update (e.toGroup false).pending .patient (some { call := call.inGroup }) }
  have hnobody : (e.toGroup false).pending .patient = none := by
    rw [toGroup, idle]
    rfl
  have henter : Shows (e.toGroup false) [] entered := by
    refine shows_quiet (.enter .patient call.inGroup) ?_ rfl
    rw [Group.act?, hnobody]
  have hpending : entered.pending .patient = some { call := call.inGroup } := by
    simp only [entered, Function.update_self]
  refine henter.trans (shows_quiet (.sleep .patient) ?_ rfl)
  rw [Group.act?, hpending]
  dsimp only
  rw [if_pos (by exact Option.isNone_iff_eq_none.mpr waits), Option.some.injEq, toGroup,
    Group.mk.injEq]
  refine ⟨rfl, funext fun caller => ?_⟩
  have hother : Caller.passing ≠ .patient := by decide
  cases caller with
  | patient =>
      rw [Function.update_self]
      rfl
  | passing =>
      rw [Function.update_of_ne hother]
      simp only [entered, Function.update_of_ne hother]
      rfl

/-- What one of the passing callers is told. -/
def answered (call : Call) : Answer → Returns
  | .returned outcome => [(call, outcome)]
  | _ => []

/-- What a passing caller has done, before the waiting call may return: that call is awake, or
it is the one that has been made. -/
structure Begun (e : Exchange) (returns : Returns) (e' : Exchange) : Prop where
  sound : e'.Sound
  shows_ : e'.waiting = e.waiting ∧ Shows (e.toGroup false) returns (e'.toGroup true) ∨
    e.waiting = none ∧ Shows (e.toGroup false) returns (e'.toGroup false)

theorem Begun.idle (sound : e.Sound) : Begun e [] e := ⟨sound, Or.inl ⟨rfl, e.wakes⟩⟩

theorem begun_make (sound : e.Sound) (call : Call) :
    Begun e (answered call (e.make call).1) (e.make call).2 := by
  unfold make
  split
  · rename_i answer hobjection
    have hsilent : answered call answer = [] := by
      cases call <;> simp only [objection] at hobjection <;> split_ifs at hobjection <;>
        cases hobjection <;> rfl
    rw [hsilent]
    exact .idle sound
  · rename_i hfree
    have hknown := knows_of_objection hfree
    rcases attempt_cases hknown with
      ⟨hnone, hwaits⟩ | ⟨outcome, told, e', hattempt, htold, hreturns, frame⟩
    · rw [hnone]
      dsimp only
      split
      · exact .idle sound
      · rename_i hsome
        have hidle : e.waiting = none := Option.not_isSome_iff_eq_none.mp hsome
        refine ⟨?_, Or.inr ⟨hidle, waits_shows hidle hwaits⟩⟩
        rintro _ ⟨⟩
        cases call <;> exact hknown
    · rw [hattempt]
      exact ⟨sound.frame frame, Or.inl ⟨frame.waiting, passes_shows hreturns htold frame⟩⟩

theorem begun_tryReceive (sound : e.Sound) (name : Bytes) :
    Begun e [(.receive name, .received (e.tryReceive name).1)] (e.tryReceive name).2 := by
  unfold tryReceive
  cases hfind : e.find? name with
  | none =>
      obtain ⟨-, ⟨hsame, past, hrun, hnone⟩ | ⟨hidle, past, hrun, hnone⟩⟩ := Begun.idle sound
      · exact ⟨sound, Or.inl ⟨hsame, past, hrun, hnone⟩⟩
      · exact ⟨sound, Or.inr ⟨hidle, past, hrun, hnone⟩⟩
  | some member =>
      have hknown : (e.find? name).isSome := by
        rw [hfind]
        rfl
      have frame := frame_update hknown member.channel.take.2
      refine ⟨sound.frame frame, Or.inl ⟨frame.waiting, ?_⟩⟩
      have hchannel := channels_of_find? hfind
      let taken : NamedGroup :=
        { channels := Function.update e.channels name (e.channels name).take.2
          pending := if (e.channels name).take.1.isSome then
            Group.roused (e.toGroup false).pending else (e.toGroup false).pending }
      have htake : Shows (e.toGroup false) [(.receive name, .received member.channel.take.1)]
          taken := by
        refine shows_act (.tryReceive name) rfl fun spot => ?_
        have htold : Call.Told (.receive name) (.received member.channel.take.1)
          (.received name member.channel.take.1) := .received
        obtain ⟨haccepted, hreceived⟩ := htold.same spot
        rw [← hchannel] at haccepted hreceived ⊢
        simpa [Group.outcomeIn, Returns.accepted, Returns.received, toGroup] using
          ⟨haccepted, hreceived⟩
      refine htake.trans (shows_wake ?_ ?_ ?_)
      · rw [channels_update hknown, ← hchannel]
      · simp only [taken]
        split <;> rfl
      · rw [frame.waiting]
        simp only [taken]
        split <;> cases h : e.waiting <;> simp [toGroup, Group.roused, h]

theorem begun_close (sound : e.Sound) (name : Bytes) : Begun e [] (e.close name) := by
  unfold close
  cases hfind : e.find? name with
  | none => exact .idle sound
  | some member =>
      have hknown : (e.find? name).isSome := by
        rw [hfind]
        rfl
      have frame := frame_update hknown member.channel.close
      refine ⟨sound.frame frame, Or.inl ⟨frame.waiting, ?_⟩⟩
      refine (shows_quiet (.close name) rfl rfl).trans (shows_wake ?_ rfl ?_)
      · rw [channels_update hknown, ← channels_of_find? hfind]
        rfl
      · rw [frame.waiting]
        cases h : e.waiting <;> simp [toGroup, Group.roused, h]

/-- A step of an exchange, with what has been returned in it: first what a passing caller does,
and then, if a call was waiting before, what that one is released with. -/
inductive Step (e : Exchange) : Returns → Exchange → Prop
  | make (call : Call) :
      Step e (answered call (e.make call).1 ++
          if e.waiting.isSome then (e.make call).2.released else [])
        (e.andRelease (·.make call)).2.2
  | tryReceive (name : Bytes) :
      Step e ((.receive name, .received (e.tryReceive name).1) ::
          if e.waiting.isSome then (e.tryReceive name).2.released else [])
        (e.andRelease (·.tryReceive name)).2.2
  | close (name : Bytes) :
      Step e (if e.waiting.isSome then (e.close name).released else [])
        (e.andRelease fun e => ((), e.close name)).2.2

/-- What a passing caller has begun, the waiting call goes on with, if it waited before. -/
theorem shows_andRelease {α : Type} (step : Exchange → α × Exchange)
    (begun : Begun e returns (step e).2) :
    (e.andRelease step).2.2.Sound ∧
      Shows (e.toGroup false) (returns ++ if e.waiting.isSome then (step e).2.released else [])
        ((e.andRelease step).2.2.toGroup false) := by
  have hafter : (e.andRelease step).2.2 =
      if e.waiting.isSome then (step e).2.release.2 else (step e).2 :=
    apply_ite Prod.snd _ _ _
  rw [hafter]
  obtain ⟨sound, ⟨hsame, hshows⟩ | ⟨hidle, hshows⟩⟩ := begun
  · split
    · obtain ⟨hsound, hreleased⟩ := release_shows sound
      exact ⟨hsound, hshows.trans hreleased⟩
    · rename_i hsome
      have hidle : (step e).2.waiting = none :=
        hsame.trans (Option.not_isSome_iff_eq_none.mp hsome)
      rw [List.append_nil, toGroup_idle hidle false true]
      exact ⟨sound, hshows⟩
  · rw [hidle]
    simpa using ⟨sound, hshows⟩

/-- **A step of an exchange is some steps of the group.** -/
theorem Step.shows (step : Step e returns e') (sound : e.Sound) :
    e'.Sound ∧ Shows (e.toGroup false) returns (e'.toGroup false) := by
  cases step with
  | make call => exact shows_andRelease (·.make call) (begun_make sound call)
  | tryReceive name => exact shows_andRelease (·.tryReceive name) (begun_tryReceive sound name)
  | close name => exact shows_andRelease (fun e => ((), e.close name)) (begun_close sound name)

/-- Steps one after the other, with all that has been returned. -/
inductive Steps (e : Exchange) : Returns → Exchange → Prop
  | start : Steps e [] e
  | snoc {returns more : Returns} {now next : Exchange} :
      Steps e returns now → Step now more next → Steps e (returns ++ more) next

/-- Channels that nobody has used yet. -/
structure Fresh (e : Exchange) : Prop where
  idle : e.waiting = none
  unused : ∀ m ∈ e.members, m.2.channel.items = [] ∧ m.2.channel.closed = false

theorem Fresh.toGroup (fresh : Fresh e) :
    e.toGroup false = Group.fresh fun name => (e.channels name).capacity := by
  rw [Exchange.toGroup, Group.fresh, Group.mk.injEq]
  constructor
  · funext name
    cases hfind : e.find? name with
    | none =>
        rw [channels, hfind]
        rfl
    | some member =>
        obtain ⟨before, after, heq, -⟩ := List.lookup_eq_some_iff.mp hfind
        obtain ⟨hitems, hopen⟩ := fresh.unused (name, member) (by rw [heq]; simp)
        rw [channels_of_find? hfind]
        obtain ⟨_, capacity, items, closed⟩ := member
        cases hitems
        cases hopen
        rfl
  · funext caller
    rw [fresh.idle]
    cases caller <;> rfl

/-- **The channels of an exchange are bounded queues.** After any steps, what the calls say has
been accepted by a channel is what they say has been received from it and, behind that, what is
in it; a bounded channel holds no more than it may; and a call waits only while it has to. -/
theorem steps_keep_queues (fresh : Fresh e) (steps : Steps e returns e') :
    (∀ name, returns.accepted name = returns.received name ++ (e'.channels name).items) ∧
      (∀ name, 0 < (e.channels name).capacity →
        (e'.channels name).items.length ≤ (e.channels name).capacity) ∧
      ∀ call ∈ e'.waiting, e'.attempt call = none := by
  have hsteps : e'.Sound ∧ Shows (e.toGroup false) returns (e'.toGroup false) := by
    induction steps with
    | start => exact ⟨by rw [Sound, fresh.idle]; exact nofun, .refl _⟩
    | snoc _ step ih =>
        obtain ⟨hsound, hshows⟩ := ih
        obtain ⟨hsound', hstep⟩ := step.shows hsound
        exact ⟨hsound', hshows.trans hstep⟩
  obtain ⟨hsound, past, hrun, hreturns⟩ := hsteps
  rw [fresh.toGroup] at hrun
  have kept := Group.kept_run hrun
  refine ⟨fun name => ?_, kept.bounded, fun call hcall => ?_⟩
  · rw [← (hreturns name).1, ← (hreturns name).2]
    exact kept.fifo name
  · have hasleep := kept.alert .patient call.inGroup (by rw [Exchange.toGroup, hcall]; rfl)
    rcases attempt_cases (hsound call hcall) with ⟨hnone, -⟩ | ⟨_, _, _, -, -, hreturns, -⟩
    · exact hnone
    · rw [show (e'.toGroup false).channels = e'.channels from rfl, hreturns] at hasleep
      contradiction

end Exchange

end SearchDaemon.Channel
