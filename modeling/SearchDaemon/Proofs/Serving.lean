import SearchDaemon.Daemon.Session
import SearchDaemon.Proofs.Settling

/-!
# Serving guests

Each thing a guest of a session does is over when the daemon's threads wait again. These
lemmas say that it is a run of ordinary acts of the daemon's service: what the guest does,
and steps of the threads. So whatever holds along runs of ordinary acts holds of a session
through which any number of guests come and go.
-/

namespace SearchDaemon

namespace Service

variable {s : Service} {i : Nat} {c : Connection}

theorem setConnection_eq (hc : s.connections[i]? = some c) (change : Connection → Connection) :
    s.setConnection i (change c) = s.onConnection i change := by
  rw [setConnection, onConnection, set_eq_modify change hc]

end Service

namespace Daemon

open Service (Act act?)

/-- The daemon has gone on by ordinary acts of its service, and by nothing else. -/
structure GoesOn (tree : FileTree) (d d' : Daemon) : Prop where
  runs : ∃ past, Run (act? (d.processor tree).processing) d.service past d'.service ∧
    ∀ m ∈ past, m.act.isOrdinary = true
  same : d' = { d with service := d'.service }
  settled : d.service.Settled (d.processor tree).processing →
    d'.service.Settled (d.processor tree).processing

variable {tree : FileTree} {d d' d'' : Daemon} {act : Act} {s : Service}

theorem GoesOn.refl (tree : FileTree) (d : Daemon) : GoesOn tree d d where
  runs := ⟨[], .start, fun _ hm => absurd hm List.not_mem_nil⟩
  same := rfl
  settled := id

theorem GoesOn.trans (first : GoesOn tree d d') (second : GoesOn tree d' d'') :
    GoesOn tree d d'' := by
  have hprocessor : d'.processor = d.processor := by rw [first.same]
  obtain ⟨past, hrun, hpast⟩ := first.runs
  obtain ⟨later, hrun', hlater⟩ := second.runs
  have hsettled := second.settled
  rw [hprocessor] at hrun' hsettled
  refine ⟨⟨past ++ later, hrun.append hrun', ?_⟩, ?_, hsettled ∘ first.settled⟩
  · intro m hm
    exact (List.mem_append.mp hm).elim (hpast m) (hlater m)
  · rw [second.same, first.same]

/-- An ordinary act, and then the threads settle. -/
theorem goesOn_act (act : Act) (step : d.service.act? (d.processor tree).processing act = some s)
    (ordinary : act.isOrdinary = true) :
    GoesOn tree d ({ d with service := s }.settle tree).1 := by
  obtain ⟨steps, hrun, hsteps, hsettled⟩ :=
    Service.settle_run (d.processor tree).processing s
  refine ⟨⟨_, (Run.start.snoc step).append hrun, ?_⟩, rfl, fun _ => hsettled⟩
  intro m hm
  rcases List.mem_append.mp hm with hm | hm
  · rwa [List.mem_singleton.mp hm]
  · have hstep := hsteps m hm
    unfold Act.isStep at hstep
    split at hstep
    · rename_i hact
      rw [hact]
      rfl
    · contradiction

/-- What a client's end does to its connection is an act. -/
theorem goesOn_onConnection {i : Nat} {change : Connection → Connection} (act : Act)
    (step : d.service.act? (d.processor tree).processing act =
      some (d.service.onConnection i change)) (ordinary : act.isOrdinary = true) :
    GoesOn tree d (d.onConnection tree i change).1 := by
  unfold Daemon.onConnection
  split
  · rename_i c hc
    rw [← Service.setConnection_eq hc] at step
    exact goesOn_act act step ordinary
  · exact .refl tree d

/-! ## The acts of a client -/

variable (tree)

theorem goesOn_accept (d : Daemon) : GoesOn tree d (d.accept tree).2.1 :=
  goesOn_act (.accept (some Connection.usualCapacity)) rfl rfl

theorem goesOn_clientCloses (i : Nat) (d : Daemon) :
    GoesOn tree d (d.onConnection tree i Connection.clientCloses).1 :=
  goesOn_onConnection (.clientCloses i) rfl rfl

theorem goesOn_clientFinishes (i : Nat) (d : Daemon) :
    GoesOn tree d (d.onConnection tree i Connection.clientFinishes).1 :=
  goesOn_onConnection (.clientFinishes i) rfl rfl

theorem goesOn_acceptVisit (d : Daemon) : GoesOn tree d (d.acceptVisit tree).1 :=
  (goesOn_accept tree d).trans (goesOn_clientCloses tree _ _)

theorem goesOn_clientSends (i : Nat) (bs : Bytes) (d : Daemon) :
    GoesOn tree d (d.clientSends tree i bs).2.1 := by
  unfold clientSends
  split
  · exact goesOn_onConnection (.clientWrites i bs) rfl rfl
  · exact .refl tree d

/-- A client that has read on to the rest of its bytes has taken those in front. -/
theorem goesOn_reading {i : Nat} {c : Connection} {rest : Bytes}
    (hc : d.service.connections[i]? = some c) (suffix : rest <:+ c.unseen) :
    GoesOn tree d (d.onConnection tree i ({ · with unseen := rest })).1 := by
  obtain ⟨front, hfront⟩ := suffix
  have htakes : d.onConnection tree i ({ · with unseen := rest }) =
      d.onConnection tree i (·.clientTakes front.length |>.2) := by
    unfold Daemon.onConnection
    rw [hc]
    simp only [Connection.clientTakes, ← hfront, List.drop_left]
  rw [htakes]
  exact goesOn_onConnection (.clientReads i front.length) rfl rfl

/-- A frame is read by taking what is there, again and again. -/
theorem goesOn_readFrame (i reads : Nat) (reader : Frame.Reader) (d : Daemon) :
    GoesOn tree d (readFrame tree i reads reader d).2.1 := by
  induction reads generalizing reader d with
  | zero => exact .refl tree d
  | succ reads ih =>
      rw [readFrame]
      split
      · exact .refl tree d
      · rename_i c hc
        split
        · exact .refl tree d
        · split
          · rename_i htake
            exact goesOn_reading tree hc (Frame.take_frame_suffix htake)
          · rename_i htake
            exact goesOn_reading tree hc (Frame.take_invalid_suffix htake)
          · rename_i reader _
            have hreads : GoesOn tree d (d.onConnection tree i fun c => c.clientReads.2).1 :=
              goesOn_reading tree hc List.nil_suffix
            exact hreads.trans (ih reader _)

theorem goesOn_clientReceives (i : Nat) (d : Daemon) :
    GoesOn tree d (d.clientReceives tree i).2.1 := by
  have hreads := goesOn_readFrame tree i (Frame.lengthSize + Frame.limit) Frame.Reader.start d
  unfold clientReceives
  generalize readFrame tree i _ _ d = read at hreads ⊢
  exact hreads

theorem goesOn_clientCalls (i : Nat) (r : Request) (d : Daemon) :
    GoesOn tree d (d.clientCalls tree i r).2.1 := by
  have hsends := goesOn_clientSends tree i (Frame.encode (Message.ofRequest r).encode) d
  unfold clientCalls
  generalize d.clientSends tree i _ = sends at hsends ⊢
  obtain ⟨sent, d', journal⟩ := sends
  cases sent with
  | false => exact hsends
  | true => exact hsends.trans (goesOn_clientReceives tree i d')

theorem goesOn_clientCollects (i n : Nat) (d : Daemon) :
    GoesOn tree d (clientCollects tree i n d).2.1 := by
  induction n generalizing d with
  | zero => exact .refl tree d
  | succ n ih =>
      have hreceives := goesOn_clientReceives tree i d
      rw [clientCollects]
      generalize d.clientReceives tree i = receives at hreceives ⊢
      obtain ⟨response, d', journal⟩ := receives
      cases response with
      | none => exact hreceives
      | some r => exact hreceives.trans (ih d')

end Daemon

namespace Session

open Daemon (GoesOn)

/-- The session has gone on by what clients do to its daemon. -/
structure Hosts (s s' : Session) : Prop where
  tree : s'.tree = s.tree
  goesOn : GoesOn s.tree s.daemon s'.daemon

variable {s s' s'' : Session}

theorem Hosts.refl (s : Session) : Hosts s s := ⟨rfl, .refl s.tree s.daemon⟩

theorem Hosts.trans (first : Hosts s s') (second : Hosts s' s'') : Hosts s s'' where
  tree := second.tree.trans first.tree
  goesOn := by
    have hgoes := second.goesOn
    rw [first.tree] at hgoes
    exact first.goesOn.trans hgoes

theorem hosts_depart (s : Session) (position : Nat) : Hosts s (s.depart position) :=
  ⟨rfl, Daemon.goesOn_clientCloses s.tree position s.daemon⟩

theorem hosts_dismiss (s : Session) (name : Bytes) : Hosts s (s.dismiss name) := by
  unfold dismiss
  split
  · split
    · exact hosts_depart s _
    · exact .refl s
  · exact .refl s

theorem hosts_connect (s : Session) (name : Bytes) : Hosts s (s.connect name).2 := by
  have hsent := hosts_dismiss s name
  unfold connect
  generalize s.dismiss name = s' at hsent ⊢
  dsimp only
  split
  · split
    · exact hsent.trans ⟨rfl, Daemon.goesOn_accept s'.tree s'.daemon⟩
    · exact hsent.trans ⟨rfl, .refl _ _⟩
  · exact hsent.trans ⟨rfl, .refl _ _⟩

theorem hosts_send (s : Session) (g : Guest) (bs : Bytes) (last : Bool) :
    Hosts s (s.send g bs last).2 := by
  have hsends := Daemon.goesOn_clientSends s.tree g.position bs s.daemon
  unfold send
  cases g.present <;> cases last
  · exact .refl s
  · exact ⟨rfl, Daemon.goesOn_clientFinishes s.tree g.position s.daemon⟩
  · exact ⟨rfl, hsends⟩
  · exact ⟨rfl, hsends.trans (Daemon.goesOn_clientFinishes s.tree g.position _)⟩

theorem hosts_call (s : Session) (g : Guest) (r : Request) : Hosts s (s.call g r).2 := by
  unfold call
  split
  · exact ⟨rfl, Daemon.goesOn_clientCalls s.tree g.position r s.daemon⟩
  · exact .refl s

theorem hosts_pipeline (s : Session) (g : Guest) (requests : List Request) :
    Hosts s (s.pipeline g requests).2 := by
  have hsends := hosts_send s g
    (requests.map fun r => Frame.encode (Message.ofRequest r).encode).flatten false
  unfold pipeline
  dsimp only
  split
  · exact hsends.trans ⟨rfl, Daemon.goesOn_clientCollects _ g.position requests.length _⟩
  · exact hsends.trans ⟨rfl, .refl _ _⟩

theorem hosts_leave (s : Session) (g : Guest) : Hosts s (s.leave g) :=
  ⟨rfl, (hosts_depart s g.position).goesOn⟩

theorem hosts_welcomeVisitors (s : Session) : Hosts s s.welcomeVisitors := by
  have hvisits (numbers : List Nat) (d : Daemon) : GoesOn s.tree d (numbers.foldl
      (fun d number => if d.listensOn number then (d.acceptVisit s.tree).1 else d) d) := by
    induction numbers generalizing d with
    | nil => exact .refl s.tree d
    | cons number numbers ih =>
        rw [List.foldl_cons]
        split
        · exact (Daemon.goesOn_acceptVisit s.tree d).trans (ih _)
        · exact ih d
  exact ⟨rfl, hvisits s.site.probed s.daemon⟩

/-- What guests and visitors do, one after the other. -/
inductive Attended (s : Session) : Session → Prop
  | opens : Attended s s
  | connects {s' : Session} (name : Bytes) : Attended s s' → Attended s (s'.connect name).2
  | sends {s' : Session} (g : Guest) (bs : Bytes) (last : Bool) :
      Attended s s' → Attended s (s'.send g bs last).2
  | calls {s' : Session} (g : Guest) (r : Request) : Attended s s' → Attended s (s'.call g r).2
  | asks {s' : Session} (g : Guest) (requests : List Request) :
      Attended s s' → Attended s (s'.pipeline g requests).2
  | leaves {s' : Session} (g : Guest) : Attended s s' → Attended s (s'.leave g)
  | visited {s' : Session} : Attended s s' → Attended s s'.welcomeVisitors

/-- **Guests do nothing out of the ordinary.** Whatever guests and visitors do to a session one
after the other, its daemon goes on by ordinary acts of its service only, and it is at rest
after them if it was before. -/
theorem attended_hosts (attended : Attended s s') : Hosts s s' := by
  induction attended with
  | opens => exact .refl s
  | connects name _ ih => exact ih.trans (hosts_connect _ name)
  | sends g bs last _ ih => exact ih.trans (hosts_send _ g bs last)
  | calls g r _ ih => exact ih.trans (hosts_call _ g r)
  | asks g requests _ ih => exact ih.trans (hosts_pipeline _ g requests)
  | leaves g _ ih => exact ih.trans (hosts_leave _ g)
  | visited _ ih => exact ih.trans (hosts_welcomeVisitors _)

end Session

end SearchDaemon
