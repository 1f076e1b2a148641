import SearchDaemon.Proofs.Premises
import SearchDaemon.Proofs.Answering

/-!
# Orderly stops

A daemon that has come up can be stopped whenever all its threads wait and its clients read.
Its stop ends them all, in whatever order they act, and cuts no reply short. Of what the start
put into the file tree only directories stay, and of what was there before, only what stood at
the paths of the socket and of the pid file is gone.
-/

namespace SearchDaemon

open FileTree (Furnished Placed Less)

/-- What is left of a daemon on the site where it was started: nobody listens who did not
before, its two paths lead to free places, and everywhere else the same files stand. -/
structure Vacated (config : Config) (site site' : Site) (socket pid : Place) : Prop where
  listening : site'.host.listening = site.host.listening
  socketPath : site'.host.tree.Names site.process.vantage.cwd config.socketPath socket ∧
    site'.host.tree.get? socket = none
  pidFile : site'.host.tree.Names site.process.vantage.cwd config.pidFile pid ∧
    site'.host.tree.get? pid = none
  others : ∀ (place : Place) (entry : Entry), entry.isDirectory = false →
    (site'.host.tree.get? place = some entry ↔
      site.host.tree.get? place = some entry ∧ place ≠ socket ∧ place ≠ pid)
  directories : ∀ place, site.host.tree.isDirectory place = true →
    site'.host.tree.isDirectory place = true

/-- The replies to some tickets are whole frames. -/
theorem replies_frames (process : Processing) (ts : List Ticket) :
    ∃ rs : List Response, replies process ts = rs.flatMap (·.frame) := by
  induction ts with
  | nil => exact ⟨[], rfl⟩
  | cons t ts ih =>
      obtain ⟨rs, hrs⟩ := ih
      rw [replies]
      cases responseTo process t with
      | none => exact ⟨[], rfl⟩
      | some r => exact ⟨r :: rs, by rw [hrs, List.flatMap_cons]⟩

namespace Daemon

variable {d : Daemon} {site : Site} {tree written : FileTree} {place other : Place}

theorem parent_of_climbs {path : Bytes} (climbs : PathText.Climbs (parentDirectory path)) :
    PathText.Above (parentDirectory path) path := by
  have hnot {short : Bytes} (h : parentDirectory path = short) :
      PathText.dotDot ∈ (PathText.parse short).names := h ▸ climbs
  exact PathText.above_parentDirectory (fun h => absurd (hnot h) (by decide))
    fun h => absurd (hnot h) (by decide)

section

variable (rooted : tree.Rooted) (start : tree.isDirectory site.process.vantage.cwd = true)
include rooted start

/-- A file in the way of the directories is where the socket or the pid file comes to be. -/
theorem inTheWay_cases (socket : tree.Names site.process.vantage.cwd d.config.socketPath place)
    (pid : tree.Names site.process.vantage.cwd d.config.pidFile other)
    (plain : ∀ spot entry, spot = place ∨ spot = other → tree.get? spot = some entry →
      entry.isPlain = true) {spot : Place} (h : d.InTheWay site tree spot) :
    spot = place ∨ spot = other := by
  obtain ⟨path, rfl | rfl, hclimbs, hblocked⟩ := h
  · exact Or.inl (hblocked.names (parent_of_climbs hclimbs) rooted start socket
      fun entry => plain place entry (Or.inl rfl))
  · exact Or.inr (hblocked.names (parent_of_climbs hclimbs) rooted start pid
      fun entry => plain other entry (Or.inr rfl))

end

/-- Between the making of directories and the removal of the two files nothing else changes. -/
theorem others_of_less {touched : Place → Prop} {before after : FileTree}
    (furnished : Furnished 0o700 touched before tree)
    (own : ∀ spot, touched spot → spot = place ∨ spot = other)
    (less : Less (fun spot => spot = place ∨ spot = other) tree after)
    {spot : Place} {entry : Entry} (file : entry.isDirectory = false) :
    after.get? spot = some entry ↔
      before.get? spot = some entry ∧ spot ≠ place ∧ spot ≠ other := by
  -- Elsewhere only the bits of directories have changed.
  have hsame (elsewhere : ¬(spot = place ∨ spot = other)) {old : Entry}
      (hplain : old.isPlain = true → touched spot) (hfile : old.isDirectory = false) :
      old.withMode 0o700 = old := by
    cases old with
    | link => rfl
    | directory => contradiction
    | _ => exact absurd (own spot (hplain rfl)) elsewhere
  constructor
  · intro hentry
    have helsewhere : ¬(spot = place ∨ spot = other) := by
      intro hgone
      rw [less.free spot hgone] at hentry
      contradiction
    rw [less.same spot helsewhere] at hentry
    refine ⟨?_, not_or.mp helsewhere⟩
    obtain ⟨old, hold, rfl | ⟨rfl, hplain⟩⟩ := furnished.plain_before hentry file
    · exact hold
    · rw [FileTree.isDirectory_withMode] at file
      rw [hsame helsewhere hplain file]
      exact hold
  · rintro ⟨hentry, helsewhere⟩
    have helsewhere := not_or.mpr helsewhere
    rw [less.same spot helsewhere]
    rcases furnished.kept hentry with hkept | ⟨hset, hplain⟩
    · exact hkept
    · rw [hset, hsame helsewhere hplain file]

section

variable {config : Config} {processor : FileTree → Processor} {site' found after : Site}
  {d' : Daemon} {s : Service} {past : List (Moment Service Service.Act)}
  {lines journal : Log.Journal}

/-- A daemon that is up: its socket and its pid file stand at places of their own. -/
structure Risen (config : Config) (processor : FileTree → Processor) (site : Site) (d : Daemon)
    (site' : Site) (tree : FileTree) (socket pid : Place) : Prop where
  furnished : Furnished 0o700 ((opening config processor site).InTheWay site tree)
    site.host.tree tree
  workers : 0 < config.workers
  resolved : d.config = config.resolve site.process.home
  unstopped : d.stopped = false
  service : d.service = .launch config.workers config.inboundCapacity config.queueCapacity
  listener : d.listener =
    some
      { path := (config.resolve site.process.home).socketPath
        socket := some site.host.nextSocket
        createdFile := true }
  pidFileWritten : d.pidFileWritten = true
  vantage : site'.process.vantage = site.process.vantage
  listening : site'.host.listening = site.host.nextSocket :: site.host.listening
  placed : ∃ between,
    Placed site.process.vantage (config.resolve site.process.home).socketPath socket tree between ∧
    Placed site.process.vantage (config.resolve site.process.home).pidFile pid between
      site'.host.tree
  distinct : socket ≠ pid
  names : tree.Names site.process.vantage.cwd (config.resolve site.process.home).pidFile pid
  covers : ∀ entry, tree.get? pid = some entry → entry.isPlain = true

theorem risen_of_start (sound : site.Sound)
    (ordinary : ∀ tree, Housed (opening config processor site) site tree →
      ¬tree.NamesLinkOrPipe site.process.vantage.cwd (config.resolve site.process.home).pidFile)
    (started : (new config processor).start site = (true, d, site', lines)) :
    ∃ tree socket pid, Risen config processor site d site' tree socket pid := by
  obtain ⟨hworkers, -⟩ := service_of_start started
  rcases start_new started with ⟨-, hno, -⟩ | ⟨-, reached, found, hbrought, rfl, rfl⟩
  · contradiction
  cases hbrought with
  | @bound tree _ _ _ housed hok entered =>
      obtain ⟨hfurnished, hrooted, hstart⟩ := housed.ground sound.tree.rooted sound.workplace
      obtain ⟨socket, hlodged⟩ := lodged_of_binding hrooted hstart hok
      cases entered with
      | up hwrites htaken =>
          obtain ⟨pid, bits, hplaced, hdistinct, hnames, -, hfile⟩ :=
            hlodged.placed_pidFile hrooted hstart (ordinary tree housed) hwrites
          refine ⟨tree, socket, pid,
            { furnished := hfurnished
              workers := hworkers
              resolved := rfl
              unstopped := rfl
              service := rfl
              listener := hlodged.listener
              pidFileWritten := rfl
              vantage := rfl
              listening := hlodged.listening
              placed := ⟨_, hlodged.placed, hplaced⟩
              distinct := hdistinct
              names := hnames
              covers := ?_ }⟩
          intro entry hentry
          obtain ⟨old, rfl⟩ := hfile entry hentry
          rfl

/-- **What a stop leaves of the site**, whatever the clients have done in between. -/
theorem Risen.vacated {socket pid : Place} (sound : site.Sound)
    (risen : Risen config processor site d site' tree socket pid)
    (host : found.host = site'.host) (vantage : found.process.vantage = site'.process.vantage)
    (stopped : Stopped { d with service := s } found d' after) :
    Vacated (config.resolve site.process.home) site after socket pid := by
  have hrooted := risen.furnished.rooted sound.tree.rooted
  have hstart := risen.furnished.passes.isDirectory sound.workplace
  obtain ⟨between, hsocket, hpid⟩ := risen.placed
  have hless := hsocket.less_both hrooted hstart hpid risen.distinct
  have htree : after.host.tree =
      ((site'.host.tree.removeFile site.process.vantage
        (config.resolve site.process.home).socketPath).2.1.removeFile site.process.vantage
          (config.resolve site.process.home).pidFile).2.1 := by
    have htidied := stopped.tree.trans (tidied_both risen.listener risen.pidFileWritten)
    rwa [host, vantage, risen.vantage, risen.resolved] at htidied
  rw [← htree] at hless
  have hplain : ∀ spot entry, spot = socket ∨ spot = pid → tree.get? spot = some entry →
      entry.isPlain = true := by
    rintro _ entry (rfl | rfl) hentry
    · exact hsocket.covers entry hentry
    · exact risen.covers entry hentry
  -- The bits that the start has set were those of the two files at most.
  have hown {spot : Place} := @inTheWay_cases (opening config processor site) site tree socket pid
    hrooted hstart hsocket.names risen.names hplain spot
  refine ⟨?_, ⟨?_, ?_⟩, ⟨?_, ?_⟩, ?_, ?_⟩
  · rw [stopped.listening, host, risen.listening]
    exact hungUp_own (by rw [risen.listener]; rfl) sound.numbered
  · exact hless.names hrooted hstart hplain (Or.inl rfl) hsocket.names
  · exact hless.free socket (Or.inl rfl)
  · exact hless.names hrooted hstart hplain (Or.inr rfl) risen.names
  · exact hless.free pid (Or.inr rfl)
  · exact fun place entry hfile => others_of_less risen.furnished (fun _ => hown) hless hfile
  · intro place hdirectory
    exact (hless.passes hplain).isDirectory (risen.furnished.passes.isDirectory hdirectory)

/-- A daemon that has come up is ready to be wound down whenever all threads wait and every
client reads. -/
theorem Risen.windingDown {process : Processing} {socket pid : Place}
    (risen : Risen config processor site d site' tree socket pid)
    (run : Run (Service.act? process) d.service past s)
    (served : ∀ m ∈ past, m.act.isOrdinary = true) (settled : s.Settled process)
    (reads : ∀ c ∈ s.connections, c.isStalled = false) :
    Service.WindingDown s.monitor.registered s.monitor.registered (s.connections.map (·.written))
      s := by
  rw [risen.service] at run
  exact Service.windingDown_of_settled risen.workers run served settled reads

/-- **A stop of a daemon that has come up is orderly.** When all threads wait and every client
reads, however the clients and the workers have fared, a stop comes to its end in whatever
order the threads act; what `stop` does is one of those orders. In each of them every thread
and every stream ends, with all the queues closed and empty. The streams are the replies to
the requests, in full unless the connection was aborted before. The socket and the pid file
are gone, and no other file has been touched. Stopping again does nothing. -/
theorem stop_is_orderly (sound : site.Sound)
    (ordinary : ∀ tree, Housed (opening config processor site) site tree →
      ¬tree.NamesLinkOrPipe site.process.vantage.cwd (config.resolve site.process.home).pidFile)
    (started : (new config processor).start site = (true, d, site', lines))
    (run : Run (Service.act? (processor site'.host.tree).processing) d.service past s)
    (served : ∀ m ∈ past, m.act.isOrdinary = true)
    (settled : s.Settled (processor site'.host.tree).processing)
    (reads : ∀ c ∈ s.connections, c.isStalled = false)
    (host : found.host = site'.host) (vantage : found.process.vantage = site'.process.vantage) :
    (∀ (process : Processing) (during : List (Moment Teardown Teardown.Actor)) (t : Teardown),
      Run (Teardown.act? process) { service := s } during t →
        during.length ≤ Teardown.price { service := s } ∧
        (t.stopper = .done ∨ ∃ actor t', t.act? process actor = some t')) ∧
    (∀ d' after journal, ({ d with service := s } : Daemon).stop found = (d', after, journal) →
      Stops { d with service := s } found d' after) ∧
    ∀ d' after, Stops { d with service := s } found d' after →
      (d'.running = false ∧ d'.shutdownRequested = true ∧ d'.activeClients = 0) ∧
      Teardown.WoundDown (s.connections.map (·.written)) d'.service ∧
      (∀ k b, s.connections[k]? = some b → ∃ c, d'.service.connections[k]? = some c ∧
        d'.service.isClosed k = true ∧
        c.written <+: replies (processor site'.host.tree).processing (Service.askedBy k past) ∧
        (b.aborted = false →
          c.written = replies (processor site'.host.tree).processing (Service.askedBy k past) ∧
          ∃ rs : List Response, c.written = rs.flatMap (·.frame))) ∧
      (∃ socket pid, Vacated (config.resolve site.process.home) site after socket pid) ∧
      ∀ other, d'.stop other = (d', other, []) := by
  obtain ⟨tree, socket, pid, hrisen⟩ := risen_of_start sound ordinary started
  have hdown := hrisen.windingDown run served settled reads
  refine ⟨?_, ?_, ?_⟩
  · intro process during t hrun
    obtain ⟨hwinds, hprice⟩ := (Teardown.Winds.of_windingDown hdown).run hrun
    exact ⟨Nat.le_of_add_right_le hprice, hwinds.goes_on process⟩
  · intro d' after journal hstop
    exact stops_of_stop (by exact hrisen.unstopped) hdown hstop
  · intro d' after stops
    have hstopped := stopped_of_stops stops
    obtain ⟨hwound, hasked⟩ := hstopped.wound_down hdown
    rw [hrisen.service] at run
    refine ⟨⟨hstopped.flags.1, hasked, ?_⟩, hwound, ?_,
      ⟨socket, pid, hrisen.vacated sound host vantage hstopped⟩, hstopped.stop_again⟩
    · rw [activeClients, hwound.registered]
      rfl
    · intro k b hb
      obtain ⟨hbegun, hwhole⟩ := Service.every_request_answered hrisen.workers run served hb
      have hstream : (d'.service.connections[k]?).map (·.written) = some b.written := by
        rw [← List.getElem?_map, hwound.streams, List.getElem?_map, hb]
        rfl
      obtain ⟨c, hc, hwritten⟩ := Option.map_eq_some_iff.mp hstream
      refine ⟨c, hc, ?_, ?_, ?_⟩
      · simp [Service.isClosed, hwound.registered]
      · rw [hwritten]
        exact hbegun
      · intro hlive
        rcases hwhole (settled.stuck _) (reads b (List.mem_of_getElem? hb)) with
          habort | ⟨hreplies, -⟩
        · rw [hlive] at habort
          contradiction
        · rw [hwritten, hreplies]
          exact ⟨rfl, replies_frames _ _⟩

end

/-- Ordinary acts after which every thread waits and every client reads, and what can be seen
of them. -/
theorem rests_of_perform {β : Type} {process : Processing} {start : Service}
    {acts : List Service.Act} {view : List (Moment Service Service.Act) × Service → β} {seen : β}
    (h : (perform? (Service.act? process) start acts).map (fun p =>
      (p.1.all (·.act.isOrdinary), p.2.threads.all fun thread => (p.2.step? process thread).isNone,
        p.2.connections.all fun c => !c.isStalled, view p)) = some (true, true, true, seen)) :
    ∃ past s, Run (Service.act? process) start past s ∧ (∀ m ∈ past, m.act.isOrdinary = true) ∧
      s.Settled process ∧ (∀ c ∈ s.connections, c.isStalled = false) ∧ view (past, s) = seen := by
  obtain ⟨⟨past, s⟩, hperform, hshows⟩ := Option.map_eq_some_iff.mp h
  obtain ⟨hordinary, hstuck, hreads, hseen⟩ := by simpa only [Prod.mk.injEq] using hshows
  rw [List.all_eq_true] at hordinary hstuck hreads
  refine ⟨past, s, .of_perform? hperform, hordinary, ?_, fun c hc => ?_, hseen⟩
  · exact Service.settled_of_threads fun thread hthread =>
      Option.isNone_iff_eq_none.mp (hstuck thread hthread)
  · exact Bool.not_eq_true' _ ▸ hreads c hc

/-- A request with a number, as it travels. -/
def asks (id : UInt64) : Bytes := Frame.encode (Message.ofRequest ⟨id, .create⟩).encode

/-- A daemon comes up among leftovers. -/
theorem starts_leftBehind : ∃ d site' lines,
    (new (atTheRoot false) fun _ => failsOnSeven).start leftBehind = (true, d, site', lines) := by
  have hok : ((new (atTheRoot false) fun _ => failsOnSeven).start leftBehind).1 = true := by cbv
  exact ⟨_, _, _, Prod.ext hok rfl⟩

/-- One client is answered, the request of another kills the only worker, and the daemon is
stopped. -/
theorem stop_is_orderly_worker_dead :
    ∃ (d d' : Daemon) (site' after : Site) (past : List (Moment Service Service.Act)) (s : Service)
      (lines journal : Log.Journal) (b c : Connection),
      (new (atTheRoot false) fun _ => failsOnSeven).start leftBehind = (true, d, site', lines) ∧
      Run (Service.act? failsOnSeven.processing) d.service past s ∧
      (∀ m ∈ past, m.act.isOrdinary = true) ∧ s.Settled failsOnSeven.processing ∧
      (∀ c ∈ s.connections, c.isStalled = false) ∧
      (Service.askedBy 0 past).map (·.request.id) = [5] ∧
      s.connections[0]? = some b ∧ b.aborted = false ∧
      ({ d with service := s } : Daemon).stop site' = (d', after, journal) ∧
      Stops { d with service := s } site' d' after ∧
      d'.running = false ∧ d'.service.connections[0]? = some c ∧
      c.written = replies failsOnSeven.processing (Service.askedBy 0 past) ∧
      ∃ socket pid, Vacated (atTheRoot false) leftBehind after socket pid := by
  let reads (i : Nat) : List Service.Act := [.step (.handler i 100), .step (.handler i 100)]
  let deals : List Service.Act := [.step .scheduler, .step .scheduler]
  let works : List Service.Act := [.step (.worker 0), .step (.worker 0), .step (.worker 0)]
  let writes : List Service.Act := [.step (.writer 0 100), .step (.writer 0 100)]
  obtain ⟨past, s, hrun, hserved, hsettled, hreads, hseen⟩ := @rests_of_perform _
    failsOnSeven.processing (.launch 1 1024 0)
    ([.accept, .accept, .clientWrites 0 (asks 5), .clientWrites 1 (asks 7)] ++ reads 0 ++ deals ++
      works ++ writes ++ reads 1 ++ deals ++ works ++ works ++ [.step (.writer 1 0)] ++ reads 1 ++
      reads 1 ++ [.step .monitor, .step .monitor, .step .monitor])
    (fun p => ((Service.askedBy 0 p.1).map (·.request.id), p.2.connections.map (·.aborted)))
    ([5], [false, true]) (by decide +kernel)
  obtain ⟨hasked, haborted⟩ := Prod.mk.inj hseen
  obtain ⟨b, cs, hcs, hlive, -⟩ := List.map_eq_cons_iff.mp haborted
  have hb : s.connections[0]? = some b := by
    rw [show s.connections = b :: cs from hcs]
    rfl
  obtain ⟨d, site', lines, hstart⟩ := starts_leftBehind
  have hservice := (service_of_start hstart).2
  rw [← show d.service = .launch 1 1024 0 from hservice] at hrun
  obtain ⟨d', after, journal, hstop⟩ : ∃ d' after journal,
      ({ d with service := s } : Daemon).stop site' = (d', after, journal) := ⟨_, _, _, rfl⟩
  obtain ⟨-, hstops, horderly⟩ := stop_is_orderly sound_leftBehind
    (fun _ => ordinary_leftBehind) hstart hrun hserved hsettled hreads rfl rfl
  have hfirst := hstops d' after journal hstop
  obtain ⟨⟨hrunning, -, -⟩, -, hstreams, hvacated, -⟩ := horderly d' after hfirst
  obtain ⟨c, hc, -, -, hwhole⟩ := hstreams 0 b hb
  exact ⟨d, d', site', after, past, s, lines, journal, b, c, hstart, hrun, hserved, hsettled,
    hreads, hasked, hb, hlive, hstop, hfirst, hrunning, hc, (hwhole hlive).1, hvacated⟩

/-! ## What a stop does not undo -/

/-- A link `l` to `t`, where nothing is. -/
def withLink : Site where
  host := { tree := ⟨[([[108]], .link [116])]⟩ }
  process := { pid := 5, vantage := { cwd := [] } }

/-- The pid file is to be `m/../l`. -/
def throughLink : Config where
  socketPath := [47, 115]
  pidFile := [109, 47, 46, 46, 47, 108]
  workers := 1

/-- What the daemon started at `withLink` leaves behind. -/
def linkFollowed : Site :=
  let (_, d, site, _) := (new throughLink fun _ => failsOnSeven).start withLink
  (d.stop site).2.1

/-- Two ways in which a stop is not orderly. The path of the pid file leads nowhere before the
start and through a link once the directory `m` is made, so the file that the start writes is
not the one that the stop removes. And a worker that dies between two pieces of a frame cuts
off the frame. -/
theorem stop_leaves_file_or_torn_frame :
    (((new throughLink fun _ => failsOnSeven).start withLink).1 = true ∧
      withLink.host.tree.stat [] throughLink.pidFile false = .error .noEntry ∧
      withLink.host.tree.get? [[116]] = none ∧
      linkFollowed.host.tree.get? [[116]] = some (.file 0o600 [53, 10])) ∧
    ∃ (d d' : Daemon) (site' after : Site) (past : List (Moment Service Service.Act)) (s : Service)
      (lines journal : Log.Journal) (c : Connection),
      (new (atTheRoot false) fun _ => failsOnSeven).start leftBehind = (true, d, site', lines) ∧
      Run (Service.act? failsOnSeven.processing) d.service past s ∧
      (∀ m ∈ past, m.act.isOrdinary = true) ∧ s.Settled failsOnSeven.processing ∧
      (∀ c ∈ s.connections, c.isStalled = false) ∧
      ({ d with service := s } : Daemon).stop site' = (d', after, journal) ∧
      d'.service.connections[0]? = some c ∧
      ¬∃ rs : List Response, c.written = rs.flatMap (·.frame) := by
  refine ⟨⟨?_, ?_, ?_, ?_⟩, ?_⟩
  · cbv
  · cbv
  · cbv
  · cbv
  · let reads : List Service.Act := [.step (.handler 0 100), .step (.handler 0 100)]
    let deals : List Service.Act := [.step .scheduler, .step .scheduler]
    let works : List Service.Act := [.step (.worker 0), .step (.worker 0), .step (.worker 0)]
    obtain ⟨past, s, hrun, hserved, hsettled, hreads, hseen⟩ := @rests_of_perform _
      failsOnSeven.processing (.launch 1 1024 0)
      ([.accept, .clientWrites 0 (asks 5 ++ asks 7)] ++ reads ++ reads ++ deals ++ works ++ deals ++
        [.step (.writer 0 3), .step (.writer 0 3), .clientReads 0 4] ++ works ++ works ++
        [.step (.writer 0 0)] ++ reads ++ reads ++ [.step .monitor, .step .monitor, .step .monitor])
      (fun p => p.2.connections.map (·.written)) [[0, 0, 0, 0]] (by decide +kernel)
    obtain ⟨d, site', lines, hstart⟩ := starts_leftBehind
    obtain ⟨tree, socket, pid, hrisen⟩ := risen_of_start sound_leftBehind
      (fun _ => ordinary_leftBehind) hstart
    rw [← show d.service = .launch 1 1024 0 from hrisen.service] at hrun
    obtain ⟨d', after, journal, hstop⟩ : ∃ d' after journal,
        ({ d with service := s } : Daemon).stop site' = (d', after, journal) := ⟨_, _, _, rfl⟩
    have hdown := hrisen.windingDown hrun hserved hsettled hreads
    have hstopped := stopped_of_stops (stops_of_stop (by exact hrisen.unstopped) hdown hstop)
    have hwound := (hstopped.wound_down hdown).1
    obtain ⟨c, cs, hcs, hwritten, -⟩ := List.map_eq_cons_iff.mp (hwound.streams.trans hseen)
    have hc : d'.service.connections[0]? = some c := by
      rw [hcs]
      rfl
    refine ⟨d, d', site', after, past, s, lines, journal, c, hstart, hrun, hserved, hsettled,
      hreads, hstop, hc, ?_⟩
    -- The four bytes are half of a length.
    rintro ⟨rs, hframes⟩
    rw [hwritten] at hframes
    cases rs with
    | nil => contradiction
    | cons r rs =>
        have hlength := congrArg List.length hframes
        simp [Response.frame, Frame.encode, Frame.lengthSize] at hlength
        omega

end Daemon

end SearchDaemon
