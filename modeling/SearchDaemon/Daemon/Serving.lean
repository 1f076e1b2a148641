import SearchDaemon.Daemon

/-!
# A daemon and its clients

What the clients of a running daemon do and see. After each of their acts the
daemon's threads work until all of them wait, and while a client reads they go on
whenever it has left them room.
-/

namespace SearchDaemon.Daemon

variable (d : Daemon) (tree : FileTree)

/-- The daemon accepts connections on the socket with a number. -/
def listensOn (number : Nat) : Bool :=
  d.running && d.listener.any fun l => l.socket = some number && !l.broken

/-- A client connects. Answers the position of its connection. -/
def accept : Nat × Daemon × Log.Journal :=
  let (s, journal) := d.service.accept (some Connection.usualCapacity)
  let (d', lines) := { d with service := s }.settle tree
  (d.service.connections.length, d', journal ++ lines)

/-- Changes the connection at a position, as its client's end can. -/
def onConnection (i : Nat) (change : Connection → Connection) : Daemon × Log.Journal :=
  match d.service.connections[i]? with
  | some c => { d with service := d.service.setConnection i (change c) }.settle tree
  | none => (d, [])

/-- A client connects and leaves at once. -/
def acceptVisit : Daemon × Log.Journal :=
  let (i, d, journal) := d.accept tree
  let (d, lines) := d.onConnection tree i Connection.clientCloses
  (d, journal ++ lines)

/-- Bytes sent by the client at a position can still arrive. -/
def takesBytes (i : Nat) : Bool :=
  !d.service.isClosed i && (d.service.connections[i]?).any fun c => !c.inlet.ended

/-- The client at a position sends bytes. -/
def clientSends (i : Nat) (bs : Bytes) : Bool × Daemon × Log.Journal :=
  if d.takesBytes i then
    let (d, journal) := d.onConnection tree i (·.clientWrites bs)
    (true, d, journal)
  else (false, d, [])

/-- The client at a position reads on until it has a whole frame, finds a length that no
frame may announce, or has read everything that comes. Every read but the last takes what is
there, so that the daemon can send more. -/
def readFrame (i : Nat) : (reads : Nat) → Frame.Reader → Daemon →
    Option Bytes × Daemon × Log.Journal
  | 0, _, d => (none, d, [])
  | reads + 1, reader, d =>
      match d.service.connections[i]? with
      | none => (none, d, [])
      | some c =>
          if c.unseen.isEmpty then (none, d, [])
          else
            match reader.take c.unseen with
            | .frame body rest =>
                let (d, journal) := d.onConnection tree i ({ · with unseen := rest })
                (some body, d, journal)
            | .invalid _ rest =>
                let (d, journal) := d.onConnection tree i ({ · with unseen := rest })
                (none, d, journal)
            | .waiting reader =>
                let (d, journal) := d.onConnection tree i fun c => c.clientReads.2
                let (body, d, more) := readFrame i reads reader d
                (body, d, journal ++ more)

/-- The client at a position reads one response, as far as it comes. -/
def clientReceives (i : Nat) : Option Response × Daemon × Log.Journal :=
  let (body, d, journal) :=
    readFrame tree i (Frame.lengthSize + Frame.limit) Frame.Reader.start d
  (body.bind fun body => (Response.decode body).toOption, d, journal)

/-- The client at a position sends a request and reads one response. -/
def clientCalls (i : Nat) (r : Request) : Option Response × Daemon × Log.Journal :=
  let (sent, d, journal) := d.clientSends tree i (Frame.encode (Message.ofRequest r).encode)
  if sent then
    let (response, d, more) := d.clientReceives tree i
    (response, d, journal ++ more)
  else (none, d, journal)

/-- The client at a position reads responses until there are so many or one is
missing. -/
def clientCollects (i : Nat) : Nat → Daemon → List (Option Response) × Daemon × Log.Journal
  | 0, d => ([], d, [])
  | n + 1, d =>
      match d.clientReceives tree i with
      | (none, d, journal) => ([none], d, journal)
      | (some r, d, journal) =>
          let (later, d, more) := clientCollects i n d
          (some r :: later, d, journal ++ more)

/-- The client at a position has read everything and sees the connection closed. -/
def seesClose (i : Nat) : Bool :=
  d.service.isClosed i && (d.service.connections[i]?).all (·.unseen.isEmpty)

/-- A signal reaches the process, and the daemon if it handles signals. -/
def signaled (site : Site) (signal : Signal) : Fate × Daemon × Site × Log.Journal :=
  let (fate, signals, journal) := site.process.signals.deliver none signal
  let site' := { site with process := { site.process with signals } }
  let called (t : SignalTable) : Nat :=
    ((d.signalHandler.bind fun i => t.handlers[i]?).map (·.calls.length)).getD 0
  let d' := if called site.process.signals < called signals then d.requestShutdown else d
  (fate, d', site', journal)

/-- The socket that a running daemon listens on is shut down, and the daemon asks for its
own shutdown. -/
def breakListener (site : Site) : Daemon × Site × Log.Journal :=
  match d.listener.filter fun l => d.running && !l.broken with
  | none => (d, site, [])
  | some l =>
      let (l, host) := l.shutDown site.host
      let (l, _, fatal, lines) := l.run 0
      let d := { d with listener := some l }
      match fatal with
      | none => (d, { site with host }, lines)
      | some reason =>
          (d.requestShutdown, { site with host }, lines ++
            [Log.error (text "Accept loop failed (" ++ reason ++ text "), shutting down")])

end SearchDaemon.Daemon
