import Mathlib.Logic.Function.Basic
import SearchDaemon.Proofs.Run
import SearchDaemon.Proofs.Steps

/-!
# Channels of one group

Any number of callers use the channels of one group at once. A call that cannot return goes
to sleep, and whoever changes a channel of the group wakes all who sleep. Along every run
each channel is a bounded queue that can be closed: what has been accepted is what has been
received, and behind it what is still queued; and nobody sleeps whose call could return.
-/

namespace SearchDaemon.Channel

variable {ι κ : Type} {Item : ι → Type}

namespace Group

/-- A call that may have to wait. -/
inductive Call (Item : ι → Type) where
  | send (i : ι) (item : Item i)
  | receive (i : ι)
  | select (first second : ι)

/-- What a call returns: whether the item was taken, or which channel was ready and what was
received from it. -/
inductive Outcome (Item : ι → Type) where
  | sent (i : ι) (item : Item i) (accepted : Bool)
  | received (i : ι) (item : Option (Item i))

/-- A call that has not returned. -/
structure Pending (Item : ι → Type) where
  call : Call Item
  awake : Bool := true

inductive Act (κ : Type) (Item : ι → Type) where
  | enter (caller : κ) (call : Call Item)
  | leave (caller : κ)
  /-- A call that cannot return goes to sleep. -/
  | sleep (caller : κ)
  /-- A sleeping call wakes up for no reason. -/
  | wake (caller : κ)
  | tryReceive (i : ι)
  | close (i : ι)

end Group

open SearchDaemon.Channel.Group

/-- Channels that are waited on together, and the calls that have not returned. -/
structure Group (κ : Type) (Item : ι → Type) where
  channels : ∀ i, Channel (Item i)
  pending : κ → Option (Pending Item)

namespace Group

variable [DecidableEq ι] [DecidableEq κ]

/-- What a call returns now, and what it makes of the channels, unless it has to wait. -/
def attempt (channels : ∀ i, Channel (Item i)) :
    Call Item → Option (Outcome Item × ∀ i, Channel (Item i))
  | .send i item =>
      ((channels i).send? item).map fun (accepted, channel) =>
        (.sent i item accepted, Function.update channels i channel)
  | .receive i =>
      (channels i).receive?.map fun (item, channel) =>
        (.received i item, Function.update channels i channel)
  | .select a b =>
      ((channels a).select? (channels b)).map fun
        | (.first item, channel, _) => (.received a item, Function.update channels a channel)
        | (.second item, _, channel) => (.received b item, Function.update channels b channel)

/-- An item has been put into a channel or taken out of one. -/
def Outcome.moves : Outcome Item → Bool
  | .sent _ _ accepted => accepted
  | .received _ item => item.isSome

/-- All who sleep are awake. -/
def roused (pending : κ → Option (Pending Item)) : κ → Option (Pending Item) :=
  fun caller => (pending caller).map fun p => { p with awake := true }

/-- What the call of a caller returns now, if it is awake and need not wait, and the group
after that. -/
def returns? (g : Group κ Item) (caller : κ) : Option (Outcome Item × Group κ Item) :=
  match g.pending caller with
  | some ⟨call, true⟩ =>
      (attempt g.channels call).map fun (outcome, channels) =>
        let pending := if outcome.moves then roused g.pending else g.pending
        (outcome, { channels, pending := Function.update pending caller none })
  | _ => none

def act? (g : Group κ Item) : Act κ Item → Option (Group κ Item)
  | .enter caller call =>
      match g.pending caller with
      | none => some { g with pending := Function.update g.pending caller (some { call }) }
      | some _ => none
  | .leave caller => (g.returns? caller).map Prod.snd
  | .sleep caller =>
      match g.pending caller with
      | some ⟨call, true⟩ =>
          if (attempt g.channels call).isNone then
            some { g with
              pending := Function.update g.pending caller (some { call, awake := false }) }
          else none
      | _ => none
  | .wake caller =>
      some { g with
        pending := Function.update g.pending caller
          ((g.pending caller).map fun p => { p with awake := true }) }
  | .tryReceive i =>
      some
        { channels := Function.update g.channels i (g.channels i).take.2
          pending := if (g.channels i).take.1.isSome then roused g.pending else g.pending }
  | .close i =>
      some
        { channels := Function.update g.channels i (g.channels i).close
          pending := roused g.pending }

/-- Open and empty channels that nobody uses yet. -/
def fresh (capacity : ι → Nat) : Group κ Item where
  channels := fun i => { capacity := capacity i }
  pending := fun _ => none

/-! ## Observations -/

/-- The item that was accepted by a channel. -/
def Outcome.accepted (i : ι) : Outcome Item → List (Item i)
  | .sent j item true => if h : j = i then [h ▸ item] else []
  | _ => []

/-- The item that was received from a channel. -/
def Outcome.taken (i : ι) : Outcome Item → List (Item i)
  | .received j (some item) => if h : j = i then [h ▸ item] else []
  | _ => []

/-- What is returned to a caller. -/
def outcomeIn (m : Moment (Group κ Item) (Act κ Item)) : Option (Outcome Item) :=
  match m.act with
  | .leave caller => (m.before.returns? caller).map Prod.fst
  | .tryReceive i => some (.received i (m.before.channels i).take.1)
  | _ => none

/-- The items whose sending has returned true. -/
def accepted (i : ι) (past : List (Moment (Group κ Item) (Act κ Item))) : List (Item i) :=
  past.flatMap fun m => (outcomeIn m).toList.flatMap (·.accepted i)

def received (i : ι) (past : List (Moment (Group κ Item) (Act κ Item))) : List (Item i) :=
  past.flatMap fun m => (outcomeIn m).toList.flatMap (·.taken i)

variable {g g' : Group κ Item} {act : Act κ Item} {caller : κ} {i j : ι} {call : Call Item}
  {outcome : Outcome Item} {channels channels' : ∀ i, Channel (Item i)}
  {past : List (Moment (Group κ Item) (Act κ Item))} {m : Moment (Group κ Item) (Act κ Item)}

theorem accepted_snoc :
    accepted i (past ++ [m]) = accepted i past ++ (outcomeIn m).toList.flatMap (·.accepted i) := by
  simp [accepted]

theorem received_snoc :
    received i (past ++ [m]) = received i past ++ (outcomeIn m).toList.flatMap (·.taken i) := by
  simp [received]

/-! ## One call -/

/-- What a call can return, and what it does to the channels by that. -/
inductive Returns (channels : ∀ i, Channel (Item i)) :
    Call Item → Outcome Item → (∀ i, Channel (Item i)) → Prop
  | accepted {i : ι} {item : Item i} : (channels i).closed = false →
      (channels i).hasRoom = true →
      Returns channels (.send i item) (.sent i item true)
        (Function.update channels i
          { channels i with items := (channels i).items ++ [item] })
  | refused {i : ι} {item : Item i} : (channels i).closed = true →
      Returns channels (.send i item) (.sent i item false) channels
  | receives {i : ι} {item : Item i} {rest : List (Item i)} :
      (channels i).items = item :: rest →
      Returns channels (.receive i) (.received i (some item))
        (Function.update channels i { channels i with items := rest })
  | drained {i : ι} : (channels i).items = [] → (channels i).closed = true →
      Returns channels (.receive i) (.received i none) channels
  | selectsFirst {a b : ι} {item : Item a} {rest : List (Item a)} :
      (channels a).items = item :: rest →
      Returns channels (.select a b) (.received a (some item))
        (Function.update channels a { channels a with items := rest })
  | firstDrained {a b : ι} : (channels a).items = [] → (channels a).closed = true →
      Returns channels (.select a b) (.received a none) channels
  /-- The first channel is open and empty. -/
  | selectsSecond {a b : ι} {item : Item b} {rest : List (Item b)} :
      (channels a).items = [] → (channels a).closed = false →
      (channels b).items = item :: rest →
      Returns channels (.select a b) (.received b (some item))
        (Function.update channels b { channels b with items := rest })
  | secondDrained {a b : ι} : (channels a).items = [] → (channels a).closed = false →
      (channels b).items = [] → (channels b).closed = true →
      Returns channels (.select a b) (.received b none) channels

theorem ready_cases {α : Type} {ch : Channel α} (ready : ch.isReady = true) :
    (∃ item rest, ch.items = item :: rest ∧ ch.take = (some item, { ch with items := rest })) ∨
      ch.items = [] ∧ ch.closed = true ∧ ch.take = (none, ch) := by
  rcases Service.take_cases ch with ⟨hnil, htake⟩ | hsome
  · exact Or.inr ⟨hnil, by simpa [isReady, hnil] using ready, htake⟩
  · exact Or.inl hsome

theorem not_ready {α : Type} {ch : Channel α} (waits : ch.isReady = false) :
    ch.items = [] ∧ ch.closed = false := by
  simpa [isReady] using waits

theorem returns_of_attempt (h : attempt channels call = some (outcome, channels')) :
    Returns channels call outcome channels' := by
  cases call with
  | send i item =>
      obtain ⟨⟨taken, ch⟩, hsend, hafter⟩ := Option.map_eq_some_iff.mp h
      cases hafter
      rcases Service.send?_cases hsend with ⟨rfl, hclosed, rfl⟩ | ⟨rfl, hopen, hroom, rfl⟩
      · rw [Function.update_eq_self]
        exact .refused hclosed
      · exact .accepted hopen hroom
  | receive i =>
      obtain ⟨⟨item, ch⟩, hreceive, hafter⟩ := Option.map_eq_some_iff.mp h
      cases hafter
      rcases Service.receive?_cases hreceive with
        ⟨rfl, hnil, hclosed, rfl⟩ | ⟨first, rest, rfl, hitems, rfl⟩
      · rw [Function.update_eq_self]
        exact .drained hnil hclosed
      · exact .receives hitems
  | select a b =>
      obtain ⟨⟨choice, ch, ch'⟩, hselect, hafter⟩ := Option.map_eq_some_iff.mp h
      unfold select? at hselect
      split at hselect
      · rename_i hready
        rcases ready_cases hready with ⟨item, rest, hitems, htake⟩ | ⟨hnil, hclosed, htake⟩
        · rw [htake] at hselect
          cases hselect
          cases hafter
          exact .selectsFirst hitems
        · rw [htake] at hselect
          cases hselect
          cases hafter
          rw [Function.update_eq_self]
          exact .firstDrained hnil hclosed
      · rename_i hwaits
        obtain ⟨hnil, hopen⟩ := not_ready (Bool.eq_false_iff.mpr hwaits)
        split at hselect
        · rename_i hready
          rcases ready_cases hready with ⟨item, rest, hitems, htake⟩ | ⟨hnil', hclosed, htake⟩
          · rw [htake] at hselect
            cases hselect
            cases hafter
            exact .selectsSecond hnil hopen hitems
          · rw [htake] at hselect
            cases hselect
            cases hafter
            rw [Function.update_eq_self]
            exact .secondDrained hnil hopen hnil' hclosed
        · contradiction

/-- What is accepted goes in behind, and what is received comes out in front. -/
structure Passes {α : Type} (before after : Channel α) (accepted taken : List α) : Prop where
  items : taken ++ after.items = before.items ++ accepted
  capacity : after.capacity = before.capacity
  room : accepted = [] ∨
    accepted.length = 1 ∧ before.closed = false ∧ before.hasRoom = true

theorem Passes.idle {α : Type} (ch : Channel α) : Passes ch ch [] [] :=
  ⟨(List.append_nil _).symm, rfl, Or.inl rfl⟩

theorem Passes.takes {α : Type} {ch : Channel α} {item : α} {rest : List α}
    (items : ch.items = item :: rest) : Passes ch { ch with items := rest } [] [item] :=
  ⟨by rw [items, List.append_nil]; rfl, rfl, Or.inl rfl⟩

/-- Where one channel is changed, the others stay as they are. -/
theorem Passes.update {channel : Channel (Item j)}
    (here : Passes (channels j) channel (outcome.accepted j) (outcome.taken j))
    (elsewhere : ∀ i, j ≠ i → outcome.accepted i = [] ∧ outcome.taken i = []) (i : ι) :
    Passes (channels i) (Function.update channels j channel i) (outcome.accepted i)
      (outcome.taken i) := by
  by_cases hji : j = i
  · subst hji
    rw [Function.update_self]
    exact here
  · obtain ⟨hnone, hnothing⟩ := elsewhere i hji
    rw [Function.update_of_ne (Ne.symm hji), hnone, hnothing]
    exact .idle _

theorem Outcome.accepted_sent {item : Item j} :
    (Outcome.sent j item true).accepted j = [item] := by
  simp [Outcome.accepted]

theorem Outcome.taken_received {item : Item j} :
    (Outcome.received j (some item)).taken j = [item] := by
  simp [Outcome.taken]

/-- A call moves at most one item, and that through one channel. -/
theorem Returns.passes (returns : Returns channels call outcome channels') (i : ι) :
    Passes (channels i) (channels' i) (outcome.accepted i) (outcome.taken i) ∧
      (channels' i).closed = (channels i).closed := by
  have hclosed {j : ι} {channel : Channel (Item j)} (h : channel.closed = (channels j).closed) :
      (Function.update channels j channel i).closed = (channels i).closed := by
    by_cases hji : j = i
    · subst hji
      rw [Function.update_self, h]
    · rw [Function.update_of_ne (Ne.symm hji)]
  have htakes {j : ι} {item : Item j} {rest : List (Item j)}
      (hitems : (channels j).items = item :: rest) :
      Passes (channels i)
        (Function.update channels j { channels j with items := rest } i)
        ((Outcome.received j (some item)).accepted i)
        ((Outcome.received j (some item)).taken i) := by
    refine Passes.update ?_ (fun i hji => ⟨rfl, by simp [Outcome.taken, hji]⟩) i
    rw [Outcome.taken_received]
    exact .takes hitems
  cases returns with
  | accepted hopen hroom =>
      refine ⟨Passes.update ?_ (fun i hji => ⟨by simp [Outcome.accepted, hji], rfl⟩) i, hclosed rfl⟩
      rw [Outcome.accepted_sent]
      exact ⟨rfl, rfl, Or.inr ⟨rfl, hopen, hroom⟩⟩
  | receives hitems => exact ⟨htakes hitems, hclosed rfl⟩
  | selectsFirst hitems => exact ⟨htakes hitems, hclosed rfl⟩
  | selectsSecond _ _ hitems => exact ⟨htakes hitems, hclosed rfl⟩
  | refused | drained | firstDrained | secondDrained => exact ⟨.idle _, rfl⟩

/-- A call that moves nothing changes nothing. -/
theorem Returns.unmoved (returns : Returns channels call outcome channels')
    (still : outcome.moves = false) : channels' = channels := by
  cases returns with
  | accepted | receives | selectsFirst | selectsSecond => contradiction
  | _ => rfl

/-! ## One act -/

theorem returns?_eq_some (h : g.returns? caller = some (outcome, g')) :
    ∃ call, g.pending caller = some ⟨call, true⟩ ∧
      Returns g.channels call outcome g'.channels ∧
      g'.pending = Function.update (if outcome.moves then roused g.pending else g.pending)
        caller none := by
  unfold returns? at h
  split at h
  · rename_i call hpending
    obtain ⟨⟨found, channels⟩, hattempt, hafter⟩ := Option.map_eq_some_iff.mp h
    cases hafter
    exact ⟨call, hpending, returns_of_attempt hattempt, rfl⟩
  · contradiction

/-- What an act does to one of the channels. -/
theorem passes_of_act? (step : g.act? act = some g') (i : ι) :
    Passes (g.channels i) (g'.channels i)
        ((outcomeIn ⟨g, act, g'⟩).toList.flatMap (·.accepted i))
        ((outcomeIn ⟨g, act, g'⟩).toList.flatMap (·.taken i)) ∧
      ((g'.channels i).closed = true ↔ (g.channels i).closed = true ∨ act = .close i) := by
  -- Most acts only concern who is waiting.
  have hwaiting (hchannels : g'.channels = g.channels) (hclose : act ≠ .close i)
      (hnone : outcomeIn ⟨g, act, g'⟩ = none) :
      Passes (g.channels i) (g'.channels i)
          ((outcomeIn ⟨g, act, g'⟩).toList.flatMap (·.accepted i))
          ((outcomeIn ⟨g, act, g'⟩).toList.flatMap (·.taken i)) ∧
        ((g'.channels i).closed = true ↔ (g.channels i).closed = true ∨ act = .close i) := by
    rw [hnone, hchannels]
    exact ⟨.idle _, (or_iff_left hclose).symm⟩
  cases act with
  | enter caller call =>
      simp only [act?] at step
      split at step
      · cases step
        exact hwaiting rfl nofun rfl
      · contradiction
  | leave caller =>
      obtain ⟨⟨outcome, after⟩, hreturns, hafter⟩ := Option.map_eq_some_iff.mp step
      cases hafter
      obtain ⟨call, -, returns, -⟩ := returns?_eq_some hreturns
      obtain ⟨hpasses, hclosed⟩ := returns.passes i
      simp only [outcomeIn, hreturns, Option.map_some, Option.toList_some,
        List.flatMap_singleton, hclosed, reduceCtorEq, or_false, and_true]
      exact hpasses
  | sleep caller =>
      simp only [act?] at step
      split at step
      · obtain ⟨-, hafter⟩ := Option.ite_none_right_eq_some.mp step
        cases hafter
        exact hwaiting rfl nofun rfl
      · contradiction
  | wake caller =>
      cases step
      exact hwaiting rfl nofun rfl
  | tryReceive j =>
      cases step
      simp only [outcomeIn, Option.toList_some, List.flatMap_singleton, reduceCtorEq, or_false]
      rcases Service.take_cases (g.channels j) with ⟨-, htake⟩ | ⟨item, rest, hitems, htake⟩
      · rw [htake, Function.update_eq_self]
        exact ⟨.idle _, Iff.rfl⟩
      · rw [htake]
        have returns := Returns.receives hitems
        exact ⟨(returns.passes i).1, by rw [(returns.passes i).2]⟩
  | close j =>
      cases step
      simp only [outcomeIn, Option.toList_none, List.flatMap_nil, Act.close.injEq]
      by_cases hji : j = i
      · subst hji
        rw [Function.update_self]
        exact ⟨⟨(List.append_nil _).symm, rfl, Or.inl rfl⟩, by simp [Channel.close]⟩
      · rw [Function.update_of_ne (Ne.symm hji)]
        exact ⟨.idle _, (or_iff_left hji).symm⟩

/-- Nobody sleeps whose call could return. -/
def Alert (g : Group κ Item) : Prop :=
  ∀ caller call, g.pending caller = some ⟨call, false⟩ → attempt g.channels call = none

theorem Alert.step (alert : g.Alert) (step : g.act? act = some g') : g'.Alert := by
  -- Where the channels stay as they are, only those who have just gone to sleep are new.
  have hkept {caller : κ} {p : Option (Pending Item)} (hchannels : g'.channels = g.channels)
      (hpending : g'.pending = Function.update g.pending caller p)
      (hp : ∀ call, p = some ⟨call, false⟩ → attempt g.channels call = none) : g'.Alert := by
    intro other call hother
    rw [hpending] at hother
    rw [hchannels]
    by_cases hcaller : other = caller
    · subst hcaller
      rw [Function.update_self] at hother
      exact hp call hother
    · rw [Function.update_of_ne hcaller] at hother
      exact alert other call hother
  have hroused {pending : κ → Option (Pending Item)} {caller : κ} {call : Call Item}
      (h : roused pending caller = some ⟨call, false⟩) : False := by
    obtain ⟨p, -, hp⟩ := Option.map_eq_some_iff.mp h
    cases hp
  cases act with
  | enter caller call =>
      simp only [act?] at step
      split at step
      · cases step
        exact hkept rfl rfl nofun
      · contradiction
  | leave caller =>
      obtain ⟨⟨outcome, after⟩, hreturns, hafter⟩ := Option.map_eq_some_iff.mp step
      cases hafter
      obtain ⟨call, -, returns, hpending⟩ := returns?_eq_some hreturns
      cases hmoves : outcome.moves with
      | true =>
          rw [if_pos hmoves] at hpending
          intro other call hother
          rw [hpending] at hother
          by_cases hcaller : other = caller
          · subst hcaller
            rw [Function.update_self] at hother
            contradiction
          · rw [Function.update_of_ne hcaller] at hother
            exact (hroused hother).elim
      | false =>
          rw [hmoves, if_neg Bool.false_ne_true] at hpending
          exact hkept (returns.unmoved hmoves) hpending nofun
  | sleep caller =>
      simp only [act?] at step
      split at step
      · obtain ⟨hwaits, hafter⟩ := Option.ite_none_right_eq_some.mp step
        cases hafter
        refine hkept rfl rfl ?_
        intro call hcall
        cases hcall
        exact Option.isNone_iff_eq_none.mp hwaits
      · contradiction
  | wake caller =>
      cases step
      refine hkept rfl rfl ?_
      intro call hcall
      obtain ⟨p, -, hp⟩ := Option.map_eq_some_iff.mp hcall
      cases hp
  | tryReceive j =>
      cases step
      rcases Service.take_cases (g.channels j) with ⟨-, htake⟩ | ⟨item, rest, hitems, htake⟩
      · intro other call hother
        simp only [htake, Function.update_eq_self] at hother ⊢
        exact alert other call hother
      · intro other call hother
        simp only [htake] at hother
        exact (hroused hother).elim
  | close j =>
      cases step
      intro other call hother
      exact (hroused hother).elim

/-! ## Runs -/

/-- What holds along every run. -/
structure Kept (capacity : ι → Nat) (past : List (Moment (Group κ Item) (Act κ Item)))
    (g : Group κ Item) : Prop where
  fifo : ∀ i, accepted i past = received i past ++ (g.channels i).items
  sized : ∀ i, (g.channels i).capacity = capacity i
  bounded : ∀ i, 0 < capacity i → (g.channels i).items.length ≤ capacity i
  closed : ∀ i, (g.channels i).closed = true ↔ ∃ m ∈ past, m.act = .close i
  alert : g.Alert

theorem kept_fresh (capacity : ι → Nat) :
    Kept capacity [] (fresh capacity : Group κ Item) where
  fifo := fun _ => rfl
  sized := fun _ => rfl
  bounded := fun _ _ => Nat.zero_le _
  closed := fun i => by simp [fresh]
  alert := nofun

theorem Kept.step {capacity : ι → Nat} (kept : Kept capacity past g)
    (step : g.act? act = some g') : Kept capacity (past ++ [⟨g, act, g'⟩]) g' where
  fifo := by
    intro i
    rw [accepted_snoc, received_snoc, kept.fifo, List.append_assoc, List.append_assoc,
      (passes_of_act? step i).1.items]
  sized := fun i => (passes_of_act? step i).1.capacity.trans (kept.sized i)
  bounded := by
    intro i hpositive
    have hbefore := kept.bounded i hpositive
    obtain ⟨hitems, -, hroom⟩ := (passes_of_act? step i).1
    have hlength := congrArg List.length hitems
    rw [List.length_append, List.length_append] at hlength
    rcases hroom with hnone | ⟨hone, -, hroom⟩
    · rw [hnone, List.length_nil] at hlength
      omega
    · rw [hasRoom, kept.sized, Bool.or_eq_true, decide_eq_true_iff, decide_eq_true_iff] at hroom
      omega
  closed := by
    intro i
    rw [(passes_of_act? step i).2, kept.closed]
    simp [or_and_right, exists_or]
  alert := kept.alert.step step

theorem kept_run {capacity : ι → Nat} (run : Run act? (fresh capacity) past g) :
    Kept capacity past g := by
  induction run with
  | start => exact kept_fresh capacity
  | snoc _ step ih => exact ih.step step

/-- What is received from a channel that is closed and drained is everything that was
accepted. -/
theorem Kept.drained {capacity : ι → Nat} (kept : Kept capacity past g)
    (empty : (g.channels i).items = []) : accepted i past = received i past := by
  rw [kept.fifo, empty, List.append_nil]

/-- A call that need not wait returns. -/
theorem Kept.returns {capacity : ι → Nat} (kept : Kept capacity past g) {awake : Bool}
    (waiting : g.pending caller = some ⟨call, awake⟩)
    (ready : attempt g.channels call = some (outcome, channels')) :
    ∃ g', g.returns? caller = some (outcome, g') ∧ g'.channels = channels' := by
  cases awake with
  | false =>
      rw [kept.alert caller call waiting] at ready
      contradiction
  | true =>
      rw [returns?, waiting]
      dsimp only
      rw [ready]
      exact ⟨_, rfl, rfl⟩

/-- **A channel is a bounded queue that can be closed.** Whatever calls are made on the
channels of a group, in whatever order they wait and return, the items accepted by a channel
are those received from it and, behind them, those in it. A bounded channel never holds more
than it may. A channel is closed once somebody has closed it, for ever; then every sender,
late or still waiting, is refused and every receiver gets the oldest item there is. Only from
a closed channel from which everything has been received does anybody get the news of its end.
Waiting on two channels takes at most one item, from the second one only while the first is
open and empty. -/
theorem channels_are_closable_bounded_queues {capacity : ι → Nat}
    (run : Run act? (fresh capacity : Group κ Item) past g) :
    (∀ i, accepted i past = received i past ++ (g.channels i).items) ∧
    (∀ i, 0 < capacity i → (g.channels i).items.length ≤ capacity i) ∧
    (∀ i, (g.channels i).closed = true ↔ ∃ m ∈ past, m.act = .close i) ∧
    (∀ i caller item awake, (g.channels i).closed = true →
      g.pending caller = some ⟨.send i item, awake⟩ →
      ∃ g', g.returns? caller = some (.sent i item false, g') ∧ g'.channels = g.channels) ∧
    (∀ i caller awake, (g.channels i).closed = true →
      g.pending caller = some ⟨.receive i, awake⟩ →
      ∃ g', g.returns? caller = some (.received i (g.channels i).items.head?, g')) ∧
    (∀ i caller g', g.returns? caller = some (.received i none, g') →
      (g.channels i).closed = true ∧ (g.channels i).items = [] ∧
        accepted i past = received i past ∧ g'.channels = g.channels) ∧
    (∀ a b caller outcome g', g.pending caller = some ⟨.select a b, true⟩ →
      g.returns? caller = some (outcome, g') →
      ∃ i item, outcome = .received i item ∧
        (i = a ∨ i = b ∧ (g.channels a).closed = false ∧ (g.channels a).items = []) ∧
        (g.channels i).items = item.toList ++ (g'.channels i).items ∧
        ∀ j, j ≠ i → g'.channels j = g.channels j) := by
  have kept := kept_run run
  refine ⟨kept.fifo, kept.bounded, kept.closed, ?_, ?_, ?_, ?_⟩
  · intro i caller item awake hclosed hwaiting
    apply kept.returns hwaiting
    rw [attempt, send?, if_pos hclosed, Option.map_some]
    show some (_, Function.update g.channels i (g.channels i)) = _
    rw [Function.update_eq_self]
  · intro i caller awake hclosed hwaiting
    have hready : (g.channels i).isReady = true := by
      rw [isReady, hclosed, Bool.or_true]
    have hattempt : attempt g.channels (.receive i) =
        some (.received i (g.channels i).take.1,
          Function.update g.channels i (g.channels i).take.2) := by
      rw [attempt, receive?, if_pos hready, Option.map_some]
    obtain ⟨g', hreturns, -⟩ := kept.returns hwaiting hattempt
    have holdest : (g.channels i).take.1 = (g.channels i).items.head? := by
      unfold Channel.take
      cases (g.channels i).items <;> rfl
    rw [holdest] at hreturns
    exact ⟨g', hreturns⟩
  · intro i caller g' hreturns
    obtain ⟨call, -, returns, -⟩ := returns?_eq_some hreturns
    have hunmoved := returns.unmoved rfl
    generalize g'.channels = channels' at returns hunmoved ⊢
    cases returns with
    | drained hnil hclosed => exact ⟨hclosed, hnil, kept.drained hnil, hunmoved⟩
    | firstDrained hnil hclosed => exact ⟨hclosed, hnil, kept.drained hnil, hunmoved⟩
    | secondDrained _ _ hnil hclosed => exact ⟨hclosed, hnil, kept.drained hnil, hunmoved⟩
  · intro a b caller outcome g' hwaiting hreturns
    obtain ⟨call, hcall, returns, -⟩ := returns?_eq_some hreturns
    cases hwaiting.symm.trans hcall
    generalize g'.channels = channels' at returns ⊢
    cases returns with
    | selectsFirst hitems =>
        refine ⟨a, _, rfl, Or.inl rfl, ?_, fun j hj => Function.update_of_ne hj _ _⟩
        rw [Function.update_self, hitems]
        rfl
    | firstDrained => exact ⟨a, none, rfl, Or.inl rfl, rfl, fun _ _ => rfl⟩
    | selectsSecond hnil hopen hitems =>
        refine ⟨b, _, rfl, Or.inr ⟨rfl, hopen, hnil⟩, ?_, fun j hj => Function.update_of_ne hj _ _⟩
        rw [Function.update_self, hitems]
        rfl
    | secondDrained hnil hopen =>
        exact ⟨b, none, rfl, Or.inr ⟨rfl, hopen, hnil⟩, rfl, fun _ _ => rfl⟩

/-- Two senders and a channel with room for one item. The second one sleeps until the channel
is closed and is refused then; what is queued is still received, by waiting on both channels,
and then the end. -/
theorem channels_are_closable_bounded_queues_sender_refused :
    ∃ (past : List (Moment (Group Nat fun _ : Bool => Nat) (Act Nat fun _ : Bool => Nat)))
      (g g' g'' : Group Nat fun _ : Bool => Nat),
      Run act? (fresh fun _ => 1) past g ∧ (∃ m ∈ past, m.act = .sleep 2) ∧
      accepted true past = [5] ∧ received true past = [] ∧
      g.pending 2 = some ⟨.send true 6, true⟩ ∧
      g.returns? 2 = some (.sent true 6 false, g') ∧ g'.channels = g.channels ∧
      g.returns? 3 = some (.received true (some 5), g'') ∧ (g''.channels true).items = [] := by
  let acts : List (Act Nat fun _ : Bool => Nat) :=
    [.enter 1 (.send true 5), .leave 1, .enter 2 (.send true 6), .sleep 2,
      .enter 3 (.select false true), .close true]
  obtain ⟨past, g, g'', hperform, hacts, hsender, hselector, hreturns, haccepted, hreceived⟩ :
      ∃ past g g'', perform? act? (fresh fun _ => 1) acts = some (past, g) ∧
        past.map (·.act) = acts ∧ g.pending 2 = some ⟨.send true 6, true⟩ ∧
        g.pending 3 = some ⟨.select false true, true⟩ ∧
        g.returns? 3 = some (.received true (some 5), g'') ∧ accepted true past = [5] ∧
        received true past = [] := ⟨_, _, _, rfl, rfl, rfl, rfl, rfl, rfl, rfl⟩
  have run := Run.of_perform? hperform
  have hmember (act : Act Nat fun _ : Bool => Nat) (h : act ∈ acts) : ∃ m ∈ past, m.act = act := by
    rwa [← hacts, List.mem_map] at h
  obtain ⟨hfifo, -, hclosed, hsend, -, -, hselect⟩ := channels_are_closable_bounded_queues run
  have hshut := (hclosed true).mpr (hmember _ (by simp [acts]))
  obtain ⟨g', hrefused, hsame⟩ := hsend true 2 6 true hshut hsender
  obtain ⟨i, item, houtcome, -, hitems, -⟩ := hselect false true 3 _ g'' hselector hreturns
  cases houtcome
  have hqueued := hfifo true
  rw [haccepted, hreceived, List.nil_append, hitems] at hqueued
  exact ⟨past, g, g', g'', run, hmember _ (by simp [acts]), haccepted, hreceived, hsender,
    hrefused, hsame, hreturns, (List.cons.inj hqueued).2.symm⟩

end Group

end SearchDaemon.Channel
