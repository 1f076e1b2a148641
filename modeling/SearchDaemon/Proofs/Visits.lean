import SearchDaemon.Proofs.Handling
import SearchDaemon.Proofs.Settling
import SearchDaemon.Service.Visit

/-!
# Visits

A visit goes by a script: change the service, let the threads settle, change it again. Each
change is one act or a few, so the whole script is a run of a service with one fresh handler,
and what holds of that handler along every run holds of the visit. As long as only the
handler is at work, the inbound channel shows what it has forwarded.
-/

namespace SearchDaemon

namespace Service

/-- Nobody but the one handler and its writer can be at work. -/
structure Lone (s : Service) : Prop where
  handlers : s.handlers.length = 1
  workers : s.workers = []
  scheduler : s.scheduler.phase = .idle

/-- What can happen as long as the requests of the one client are collected. -/
def Act.isOfReading : Act → Bool
  | .step _ | .start _ | .clientWrites .. | .clientFinishes _ | .clientCloses _ => true
  | .stopHandler _ | .abort _ | .closeInbound => true
  | _ => false

variable {process : Processing} {s s' : Service} {act : Act} {past : List (Moment Service Act)}

theorem Lone.startHandler (lone : s.Lone) (k : Nat) : (s.startHandler k).1.Lone := by
  unfold Service.startHandler
  split
  · refine ⟨?_, lone.workers, lone.scheduler⟩
    simpa [setHandler, setConnection] using lone.handlers
  · exact lone

theorem Lone.stopHandler (lone : s.Lone) (k : Nat) : (s.stopHandler k).Lone := by
  unfold Service.stopHandler
  split
  · refine ⟨?_, lone.workers, lone.scheduler⟩
    simpa [setHandler] using lone.handlers
  · exact lone

/-- A lone handler stays alone, and what is put on the inbound channel comes from it. -/
theorem Lone.collects (lone : s.Lone) (reading : act.isOfReading = true)
    (step : s.act? process act = some s') :
    s'.Lone ∧ s'.inbound.items = s.inbound.items ++ putIn 0 ⟨s, act, s'⟩ := by
  have hquiet (others : act.isOfHandler 0 = false) (lone' : s'.Lone)
      (same : s'.inbound.items = s.inbound.items) :
      s'.Lone ∧ s'.inbound.items = s.inbound.items ++ putIn 0 ⟨s, act, s'⟩ :=
    ⟨lone', by rw [same, putIn_of_other others, List.append_nil]⟩
  cases act with
  | step thread =>
      cases stepped_of_act? step with
      | monitor => exact hquiet rfl ⟨lone.handlers, lone.workers, lone.scheduler⟩ rfl
      | writer => exact hquiet rfl ⟨lone.handlers, lone.workers, lone.scheduler⟩ rfl
      | worker hw =>
          rw [lone.workers] at hw
          contradiction
      | scheduler hdealt =>
          have hidle := lone.scheduler
          cases hdealt <;> simp_all
      | @handler i budget h h' c c' tickets told hh hc hhandled =>
          have hfirst : i = 0 := by
            have hlt := (List.getElem?_eq_some_iff.mp hh).1
            have hsize := lone.handlers
            omega
          subst hfirst
          refine ⟨⟨?_, lone.workers, lone.scheduler⟩, ?_⟩
          · simpa [afterHandler] using lone.handlers
          · rw [putIn_afterHandler]
            rfl
  | start k =>
      obtain ⟨-, hafter⟩ := Option.ite_none_right_eq_some.mp step
      cases hafter
      obtain ⟨hinbound, -⟩ := s.startHandler_same k
      exact hquiet rfl (lone.startHandler k) (congrArg Channel.items hinbound)
  | stopHandler k =>
      cases step
      refine hquiet rfl (lone.stopHandler k) ?_
      unfold Service.stopHandler
      split <;> rfl
  | clientWrites | clientFinishes | clientCloses | abort | closeInbound =>
      cases step
      exact hquiet rfl ⟨lone.handlers, lone.workers, lone.scheduler⟩ rfl
  | _ => contradiction

/-- What a lone handler has put on the inbound channel is still there. -/
theorem collects_run {s₀ : Service} (run : Run (act? process) s₀ past s) (lone : s₀.Lone)
    (reading : ∀ m ∈ past, m.act.isOfReading = true) :
    s.Lone ∧ s.inbound.items = s₀.inbound.items ++ putBy 0 past := by
  induction run with
  | start => exact ⟨lone, (List.append_nil _).symm⟩
  | @snoc past now next act _ step ih =>
      obtain ⟨hlone, hitems⟩ := ih fun m hm => reading m (List.mem_append_left _ hm)
      have hact := reading _ (List.mem_append_right _ (List.mem_singleton_self _))
      obtain ⟨hlone', hitems'⟩ := hlone.collects hact step
      exact ⟨hlone', by rw [hitems', hitems, putBy_snoc, List.append_assoc]⟩

/-- Taking everything off the inbound channel is taking its items one by one. -/
theorem withdraws_run (process : Processing) (s : Service) :
    ∃ past, Run (act? process) s past { s with inbound := { s.inbound with items := [] } } ∧
      ∀ m ∈ past, m.act = .withdraw := by
  generalize hitems : s.inbound.items = items
  induction items generalizing s with
  | nil =>
      have hsame : { s with inbound := { s.inbound with items := [] } } = s := by rw [← hitems]
      rw [hsame]
      exact ⟨[], .start, fun _ hm => absurd hm List.not_mem_nil⟩
  | cons t rest ih =>
      let next : Service := { s with inbound := { s.inbound with items := rest } }
      have hstep : s.act? process .withdraw = some next := by
        simp [act?, Channel.receive?, Channel.isReady, Channel.take, hitems, next]
      obtain ⟨past, hrun, hacts⟩ := ih next rfl
      refine ⟨⟨s, .withdraw, next⟩ :: past, (Run.start.snoc hstep).append hrun, ?_⟩
      intro m hm
      rcases List.mem_cons.mp hm with rfl | hm
      · rfl
      · exact hacts m hm

end Service

namespace Visit

open Service (Act act? streamOf putBy Account)

/-- The service of a visit, before anything has happened. -/
def opened (v : Visit) : Service :=
  { inbound := v.inbound, events := v.events, connections := [{ client := v.client }]
    handlers := [{}] }

/-- How far a visit has come: what has happened is a run, and all its bytes have arrived. -/
structure Hosts (v : Visit) (past : List (Moment Service Act)) (s : Service) : Prop where
  run : Run (act? unprocessed) v.opened past s
  stream : streamOf 0 past = v.bytes

variable {v : Visit} {past acts : List (Moment Service Act)} {s s' : Service} {w : Work}

/-- A visit goes on by anything but bytes. -/
theorem Hosts.goesOn (hosts : Hosts v past s) (run : Run (act? unprocessed) s acts s')
    (silent : streamOf 0 acts = []) : Hosts v (past ++ acts) s' where
  run := hosts.run.append run
  stream := by
    have hall : streamOf 0 (past ++ acts) = streamOf 0 past ++ streamOf 0 acts := by
      simp [streamOf]
    rw [hall, silent, List.append_nil, hosts.stream]

/-- Acts by which no bytes arrive. -/
theorem streamOf_silent (silent : ∀ m ∈ acts, ∀ i bs, m.act ≠ .clientWrites i bs) :
    streamOf 0 acts = [] := by
  rw [streamOf, List.flatMap_eq_nil_iff]
  intro m hm
  unfold Service.arrivedIn
  split
  · rename_i i bs hact
    exact absurd hact (silent m hm i bs)
  · rfl

/-- The threads settle after a change that acts bring about. -/
theorem Hosts.after (hosts : Hosts v past w.1) (change : Service → Work)
    (run : Run (act? unprocessed) w.1 acts (change w.1).1)
    (silent : ∀ m ∈ acts, ∀ i bs, m.act ≠ .clientWrites i bs) :
    ∃ steps, Hosts v (past ++ acts ++ steps) (w.after change).1 ∧
      (w.after change).1.Settled unprocessed ∧ ∀ m ∈ steps, m.act.isStep = true := by
  obtain ⟨steps, hsettle, hsteps, hsettled⟩ := Service.settle_run unprocessed (change w.1).1
  have hgoes := hosts.goesOn run (streamOf_silent silent)
  refine ⟨steps, hgoes.goesOn hsettle (streamOf_silent ?_), hsettled, hsteps⟩
  intro m hm i bs hact
  have hstep := hsteps m hm
  rw [hact] at hstep
  contradiction

/-- One act, and then the threads settle. -/
theorem Hosts.afterAct (hosts : Hosts v past w.1) (change : Service → Work) (act : Act)
    (step : w.1.act? unprocessed act = some (change w.1).1)
    (silent : ∀ i bs, act ≠ .clientWrites i bs) :
    ∃ steps, Hosts v (past ++ [⟨w.1, act, (change w.1).1⟩] ++ steps) (w.after change).1 ∧
      (w.after change).1.Settled unprocessed ∧ ∀ m ∈ steps, m.act.isStep = true := by
  apply hosts.after change (Run.start.snoc step)
  intro m hm i bs
  rw [List.nil_append, List.mem_singleton] at hm
  subst hm
  exact silent i bs

/-- The connection of a visit is where its run has it. -/
theorem Hosts.found (hosts : Hosts v past s) :
    ∃ h c requests, s.handlers[0]? = some h ∧ s.connections[0]? = some c ∧
      handler s = h ∧ connection s = c ∧ Service.Handles 0 v.client past s h c requests := by
  have hc₀ : v.opened.connections[0]? = some { client := v.client, capacity := none } := rfl
  obtain ⟨h, c, requests, hh, hc, handles⟩ := Service.handles_run hosts.run rfl hc₀
  refine ⟨h, c, requests, hh, hc, ?_, ?_, handles⟩
  · rw [handler, List.headD_eq_head?_getD, List.head?_eq_getElem?, hh]
    rfl
  · rw [connection, List.headD_eq_head?_getD, List.head?_eq_getElem?, hc]
    rfl

/-! ## The parts of the script -/

/-- The service once all bytes of the visit have arrived. -/
def written (v : Visit) : Service :=
  { v.opened with connections := [({ client := v.client } : Connection).clientWrites v.bytes] }

/-- How far a visit has come that collects the requests of its client. -/
structure Collects (v : Visit) (past : List (Moment Service Act)) (s : Service) : Prop
    extends Hosts v past s where
  reading : ∀ m ∈ past, m.act.isOfReading = true

theorem Collects.afterAct (collects : Collects v past w.1) (change : Service → Work) (act : Act)
    (step : w.1.act? unprocessed act = some (change w.1).1) (reading : act.isOfReading = true)
    (silent : ∀ i bs, act ≠ .clientWrites i bs) :
    ∃ later, Collects v later (w.after change).1 ∧ (w.after change).1.Settled unprocessed := by
  obtain ⟨steps, hhosts, hsettled, hsteps⟩ := collects.toHosts.afterAct change act step silent
  refine ⟨_, ⟨hhosts, ?_⟩, hsettled⟩
  intro m hm
  rcases List.mem_append.mp hm with hm | hm
  · rcases List.mem_append.mp hm with hm | hm
    · exact collects.reading m hm
    · rwa [List.mem_singleton.mp hm]
  · have hstep := hsteps m hm
    unfold Act.isStep at hstep
    split at hstep
    · rename_i hact
      rw [hact]
      rfl
    · contradiction

theorem collects_written (v : Visit) :
    Collects v [⟨v.opened, .clientWrites 0 v.bytes, v.written⟩] v.written where
  run := Run.start.snoc rfl
  stream := by
    simp [streamOf, Service.arrivedIn, opened, Connection.isReceiving]
  reading := by
    intro m hm
    rw [List.mem_singleton.mp hm]
    rfl

/-- A visit is arranged by acts, and its handler is still to be started. -/
theorem collects_arrange (v : Visit) :
    ∃ past, Collects v past v.arrange.1 ∧
      (v.arrange.1.handlers[0]?).any (·.phase = .idle) = true := by
  have hwritten := collects_written v
  have hthen (act : Act) {s : Service} (step : v.written.act? unprocessed act = some s)
      (reading : act.isOfReading = true) (silent : ∀ i bs, act ≠ .clientWrites i bs) :
      ∃ past, Collects v past s := by
    refine ⟨_, hwritten.goesOn (Run.start.snoc step) (streamOf_silent ?_), ?_⟩
    · intro m hm
      rw [List.mem_singleton.mp hm]
      exact silent
    · intro m hm
      rcases List.mem_append.mp hm with hm | hm
      · exact hwritten.reading m hm
      · rwa [List.mem_singleton.mp hm]
  rw [arrange]
  cases v.parting with
  | clientFinishes =>
      obtain ⟨past, hcollects⟩ := hthen (.clientFinishes 0) rfl rfl nofun
      exact ⟨past, hcollects, rfl⟩
  | clientCloses =>
      obtain ⟨past, hcollects⟩ := hthen (.clientCloses 0) rfl rfl nofun
      exact ⟨past, hcollects, rfl⟩
  | stoppedFirst =>
      obtain ⟨past, hcollects⟩ := hthen (.stopHandler 0) rfl rfl nofun
      exact ⟨past, hcollects, rfl⟩
  | abortedFirst =>
      obtain ⟨past, hcollects⟩ := hthen (.abort 0) rfl rfl nofun
      exact ⟨past, hcollects, rfl⟩
  | stopped | inboundClosed => exact ⟨_, hwritten, rfl⟩

/-- A visit is read by acts too. -/
theorem collects_read (v : Visit) :
    ∃ past, Collects v past v.read.1 ∧ v.read.1.Settled unprocessed := by
  obtain ⟨opening, hopening, hidle⟩ := collects_arrange v
  obtain ⟨started, hstarted, hsettled⟩ :=
    hopening.afterAct (·.startHandler 0) (.start 0) (if_pos hidle) rfl nofun
  rw [read]
  cases v.parting with
  | stopped =>
      exact hstarted.afterAct (fun s => (s.stopHandler 0, [])) (.stopHandler 0) rfl rfl nofun
  | inboundClosed =>
      exact hstarted.afterAct (fun s => ({ s with inbound := s.inbound.close }, []))
        .closeInbound rfl rfl nofun
  | _ => exact ⟨started, hstarted, hsettled⟩

/-- A response is delivered to the connection of the visit. -/
theorem Hosts.deliver (hosts : Hosts v past w.1) (sequence : Nat) (r : Response) :
    ∃ later, Hosts v (past ++ later) (deliver w sequence r).2.1 ∧
      (deliver w sequence r).2.1.Settled unprocessed := by
  obtain ⟨h, c, -, -, hc, -, hfound, -⟩ := hosts.found
  have hstep : w.1.act? unprocessed (.deliver 0 sequence r) =
      some (w.1.setConnection 0 ((connection w.1).deliver sequence r).2.1) := by
    rw [act?, Service.onConnection, Service.setConnection, hfound,
      Service.set_eq_modify (fun c => (c.deliver sequence r).2.1) hc]
  obtain ⟨steps, hhosts, hsettled, -⟩ := hosts.afterAct
    (fun s => (s.setConnection 0 ((connection w.1).deliver sequence r).2.1,
      ((connection w.1).deliver sequence r).2.2)) _ hstep (by simp)
  rw [List.append_assoc] at hhosts
  exact ⟨_, hhosts, hsettled⟩

theorem Hosts.deliverAll (hosts : Hosts v past w.1) (settled : w.1.Settled unprocessed)
    (deliveries : List (Nat × Response)) :
    ∃ later, Hosts v (past ++ later) (deliverAll w deliveries).2.1 ∧
      (deliverAll w deliveries).2.1.Settled unprocessed := by
  induction deliveries generalizing past w with
  | nil => exact ⟨[], by rwa [List.append_nil], settled⟩
  | cons d rest ih =>
      obtain ⟨sequence, r⟩ := d
      obtain ⟨later, hhosts, hsettled⟩ := hosts.deliver sequence r
      obtain ⟨later', hhosts', hsettled'⟩ := ih hhosts hsettled
      rw [List.append_assoc] at hhosts'
      exact ⟨_, hhosts', hsettled'⟩

/-- Everything is taken off the inbound channel. -/
theorem Hosts.emptied (hosts : Hosts v past w.1) :
    ∃ later, Hosts v (past ++ later) w.emptied.1 ∧ w.emptied.1.Settled unprocessed := by
  obtain ⟨taking, htaking, hwithdraws⟩ := Service.withdraws_run unprocessed w.1
  obtain ⟨steps, hhosts, hsettled, -⟩ := hosts.after
    (fun s => ({ s with inbound := { s.inbound with items := [] } }, [])) htaking (by
      intro m hm i bs hact
      rw [hwithdraws m hm] at hact
      contradiction)
  rw [List.append_assoc] at hhosts
  exact ⟨_, hhosts, hsettled⟩

/-- The client is cut off if something is owed to it. -/
theorem Hosts.finished (hosts : Hosts v past w.1) (settled : w.1.Settled unprocessed) :
    ∃ later, Hosts v (past ++ later) w.finished.1 ∧ w.finished.1.Settled unprocessed := by
  rw [Work.finished]
  split
  · have hstep : w.1.act? unprocessed (.abort 0) = some (w.1.abortConnection (some 0)).1 := by
      rw [Service.abortConnection_eq]
      rfl
    obtain ⟨steps, hhosts, hsettled, -⟩ :=
      hosts.afterAct (·.abortConnection (some 0)) _ hstep nofun
    rw [List.append_assoc] at hhosts
    exact ⟨_, hhosts, hsettled⟩
  · exact ⟨[], by rwa [List.append_nil], settled⟩

/-- **A visit is a run** of a service with one fresh handler, in which just its bytes arrive
and after which all threads wait: what the visit reports is what this run has come to. So the
handler's account holds of it, and what the visit collects are the first tickets that the
handler has put on the inbound channel. -/
theorem visit_is_run (v : Visit) :
    ∃ past s h, Run (act? unprocessed) v.opened past s ∧ s.Settled unprocessed ∧
      streamOf 0 past = v.bytes ∧
      v.run.forwarded <+: v.inbound.items ++ putBy 0 past ∧
      v.run.events = s.events.items ∧ v.run.count = h.forwarded ∧
      s.handlers[0]? = some h ∧ s.connections[0]? = some v.run.connection ∧
      Account 0 v.client past s h v.run.connection := by
  obtain ⟨reading, hread, -⟩ := collects_read v
  have hlone : v.opened.Lone := ⟨rfl, rfl, rfl⟩
  obtain ⟨-, hitems⟩ := Service.collects_run hread.run hlone hread.reading
  obtain ⟨taking, htaken, hsettled⟩ := hread.emptied
  obtain ⟨mail, hdelivered, hsettled⟩ := htaken.deliverAll hsettled v.deliveries
  obtain ⟨rest, hfinished, hsettled⟩ := hdelivered.finished hsettled
  rw [List.append_assoc, List.append_assoc] at hfinished
  have hforwarded : v.run.forwarded = v.inbound.items ++ putBy 0 reading := hitems
  obtain ⟨h, c, requests, hh, hc, hhandler, hconnection, handles⟩ := hfinished.found
  subst hhandler hconnection
  refine ⟨_, _, _, hfinished.run, hsettled, hfinished.stream, ?_, rfl, rfl, hh, hc,
    handles.account hh hc⟩
  rw [hforwarded, putBy, putBy, List.flatMap_append, ← List.append_assoc]
  exact List.prefix_append _ _

/-- A visit collects nothing but the requests of the good beginning of its bytes, in order. -/
theorem forwarded_prefix (v : Visit) :
    v.run.forwarded <+:
      v.inbound.items ++ Service.ticketsOf v.client 0 (Request.readAll v.bytes).1 := by
  obtain ⟨past, s, h, -, -, hstream, hforwarded, -, -, -, -, account⟩ := visit_is_run v
  have horder := account.in_order
  rw [hstream] at horder
  exact hforwarded.trans ((List.prefix_append_right_inj _).mpr horder)

end Visit

end SearchDaemon
