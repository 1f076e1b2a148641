import SearchDaemon.Daemon.Serving
import SearchDaemon.Daemon.Starting

/-!
# A daemon in use

A session is a daemon on its site with clients that go by names. Each act of a
session is over, down to the last thread, before the next one begins. Acts answer
what the one who acts can see; the log lines of an act come with it where somebody
may ask for them.
-/

namespace SearchDaemon

/-- A client of a session. -/
structure Guest where
  name : Bytes
  /-- The position of its connection. -/
  position : Nat
  /-- It has not left. -/
  present : Bool := true
deriving DecidableEq, Repr

structure Session where
  daemon : Daemon
  site : Site
  guests : List Guest := []

namespace Session

variable (s : Session)

/-- The files that are there. -/
def tree : FileTree := s.site.host.tree

def guest? (name : Bytes) : Option Guest := s.guests.find? (·.name = name)

/-- Lets the daemon take on the visitors who only looked whether it accepts. -/
def welcomeVisitors : Session :=
  let daemon := s.site.probed.foldl
    (fun d number => if d.listensOn number then (d.acceptVisit s.tree).1 else d) s.daemon
  { s with daemon, site := { s.site with probed := [] } }

def start : Bool × Session × Log.Journal :=
  let (ok, daemon, site, journal) := s.daemon.start s.site
  (ok, { s with daemon, site }.welcomeVisitors, journal)

def stop : Session :=
  let (daemon, site, _) := s.daemon.stop s.site
  { s with daemon, site }

/-- Which guests that have not left see their connections closed, by name. -/
def farewells : List (Bytes × Bool) :=
  ((s.guests.filter (·.present)).mergeSort fun a b => a.name.before b.name).map
    fun g => (g.name, s.daemon.seesClose g.position)

/-! ## Guests -/

/-- Changes the daemon and leaves everything else. -/
def withDaemon (daemon : Daemon) : Session := { s with daemon }

/-- The client at a position closes its end. -/
def depart (position : Nat) : Session :=
  s.withDaemon (s.daemon.onConnection s.tree position Connection.clientCloses).1

/-- A guest leaves. -/
def leave (g : Guest) : Session :=
  { s.depart g.position with
    guests := s.guests.map fun h => if h.name = g.name then { h with present := false } else h }

/-- The guest of a name leaves, if there is one. -/
def dismiss (name : Bytes) : Session :=
  match s.guest? name with
  | some g => if g.present then s.depart g.position else s
  | none => s

/-- A guest connects; one of the same name that was there before leaves. -/
def connect (name : Bytes) : Bool × Session :=
  let s := s.dismiss name
  let others := s.guests.filter (·.name ≠ name)
  let path := s.daemon.config.socketPath
  match s.site.host.connect s.site.process.vantage path with
  | .ok number =>
      if !Host.isBadSocketPath path && s.daemon.listensOn number then
        let (position, daemon, _) := s.daemon.accept s.tree
        (true, { s with daemon, guests := { name, position } :: others })
      else (false, { s with guests := others })
  | .error _ => (false, { s with guests := others })

/-- A guest sends bytes, and perhaps says that no more will follow. -/
def send (g : Guest) (bs : Bytes) (last : Bool) : Bool × Session :=
  let (sent, daemon, _) := if g.present then s.daemon.clientSends s.tree g.position bs
    else (false, s.daemon, [])
  let daemon := if last then (daemon.onConnection s.tree g.position Connection.clientFinishes).1
    else daemon
  (sent, s.withDaemon daemon)

/-- A guest sends requests one after the other and then reads their responses. -/
def pipeline (g : Guest) (requests : List Request) : List (Option Response) × Session :=
  let bodies := requests.map fun r => Frame.encode (Message.ofRequest r).encode
  let (_, s) := s.send g bodies.flatten false
  let (responses, daemon, _) :=
    if g.present then Daemon.clientCollects s.tree g.position requests.length s.daemon
    else (requests.head?.toList.map fun _ => none, s.daemon, [])
  (responses, s.withDaemon daemon)

/-- A guest sends a request and reads its response. -/
def call (g : Guest) (r : Request) : Option Response × Session :=
  if g.present then
    let (response, daemon, _) := s.daemon.clientCalls s.tree g.position r
    (response, s.withDaemon daemon)
  else (none, s)

/-- A thread of the daemon waits until a guest reads. -/
def isHeldUp : Bool := s.daemon.service.connections.any (·.isStalled)

/-- A guest that has left, or has read everything and sees its connection closed. -/
def seesClose (g : Guest) : Bool := !g.present || s.daemon.seesClose g.position

/-! ## The daemon -/

def signaled (signal : Signal) : Session :=
  let (_, daemon, site, _) := s.daemon.signaled s.site signal
  { s with daemon, site }

def breakListener : Session × Log.Journal :=
  let (daemon, site, journal) := s.daemon.breakListener s.site
  ({ s with daemon, site }, journal)

/-- What is seen of a second daemon while it is there. -/
structure Glimpse where
  ok : Bool
  pid : Option Int
  accepts : Bool
  tree : FileTree

/-- Starts another daemon in the same process and stops it again. -/
def second (config : Config) : Glimpse × Session :=
  let (ok, other, site, _) := (Daemon.new config s.daemon.processor).start s.site
  let s := { s with site }.welcomeVisitors
  let v := s.site.process.vantage
  let host := s.site.host
  let seen : Glimpse :=
    { ok
      pid := (PidFile.read host.tree v other.config.pidFile).1
      accepts := host.accepts v other.config.socketPath
      tree := host.tree }
  let (_, site, _) := other.stop s.site
  (seen, { s with site })

end Session

end SearchDaemon
