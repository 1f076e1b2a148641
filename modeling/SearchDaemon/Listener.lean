import SearchDaemon.Host

/-!
# Listeners

A listener binds a socket at a path and accepts clients there. Binding clears
away a socket file that nobody listens on and refuses a path that is taken by
anything else. The file outlives the socket until its listener is asked to remove
it.
-/

namespace SearchDaemon

structure Listener where
  path : Bytes
  /-- The number of the socket, while it is bound. -/
  socket : Option Nat := none
  /-- The socket has been shut down; accepting fails. -/
  broken : Bool := false
  /-- The file at the path was made by this listener. -/
  createdFile : Bool := false
  accepted : Nat := 0
  /-- The accept loop has been told to stop. -/
  stopNotified : Bool := false
deriving DecidableEq, Repr

namespace Listener

variable (l : Listener)

def isBound : Bool := l.socket.isSome

/-! ## Binding -/

/-- What an attempt to bind comes to. -/
structure Binding where
  ok : Bool
  listener : Listener
  host : Host
  /-- The socket of another process that was reached at the path. -/
  probed : Option Nat := none
  journal : Log.Journal := []

/-- What stands in the way at a path before binding. -/
inductive Obstacle where
  | nothing
  /-- A socket file that refuses connections. -/
  | stale
  /-- A socket that accepts connections. -/
  | live (number : Nat)
  | notSocket
  /-- The path leads to no place where a socket could be. -/
  | unreachable
deriving DecidableEq, Repr

/-- Looks at a path; a link there is not followed. -/
def obstacle (host : Host) (v : Vantage) (path : Bytes) : Obstacle :=
  match host.tree.stat v.cwd path false with
  | .error .noEntry => .nothing
  | .error _ => .unreachable
  | .ok (_, .socket ..) =>
      match host.connect v path with
      | .ok number => .live number
      | .error _ => .stale
  | .ok _ => .notSocket

/-- Binds a socket at a path that is clear. -/
def bindClear (host : Host) (v : Vantage) : Binding :=
  match host.bindSocket v l.path with
  | .error e =>
      { ok := false, listener := l, host
        journal := [Log.error (text "Failed to bind " ++ l.path ++ text ": " ++ e.message)] }
  | .ok (number, host) =>
      let (host, warned) : Host × Log.Journal := match host.tree.setMode v l.path 0o600 with
        | .ok tree => ({ host with tree }, [])
        | .error e => (host, [Log.warning (text "Failed to set mode on " ++ l.path ++
            text ": " ++ e.message)])
      { ok := true, host := host.listen number
        listener := { l with socket := some number, broken := false, createdFile := true }
        journal := warned ++ [Log.info (text "Listening on " ++ l.path)] }

/-- Binds the socket and starts to accept connections. -/
def bind (host : Host) (v : Vantage) : Binding :=
  let refuse (journal : Log.Journal) (probed : Option Nat) : Binding :=
    { ok := false, listener := l, host, probed, journal }
  if l.isBound then { ok := true, listener := l, host }
  else if Host.isBadSocketPath l.path then
    refuse [Log.error (text "Socket path is empty or too long: " ++ l.path)] none
  else
    match obstacle host v l.path with
    | .nothing => l.bindClear host v
    | .unreachable => refuse [] none
    | .notSocket => refuse [Log.error (l.path ++ text " exists and is not a socket")] none
    | .live number =>
        refuse [Log.error (text "Another daemon is listening on " ++ l.path)] (some number)
    | .stale =>
        let removing := Log.info (text "Removing stale socket file " ++ l.path)
        match host.tree.removeFile v l.path with
        | (true, tree, journal) =>
            let b := l.bindClear { host with tree } v
            { b with journal := removing :: journal ++ b.journal }
        | (false, _, journal) => refuse (removing :: journal) none

/-- Closes the socket; its file stays. -/
def close (host : Host) : Listener × Host :=
  match l.socket with
  | some number => ({ l with socket := none, broken := false }, host.closeSocket number)
  | none => (l, host)

/-- Removes the socket's file, if this listener made it. -/
def removeSocketFile (host : Host) (v : Vantage) : Listener × Host × Log.Journal :=
  if l.createdFile then
    let (host, journal) := host.removeFile v l.path
    ({ l with createdFile := false }, host, journal)
  else (l, host, [])

/-! ## Accepting -/

/-- Tells the accept loop to stop. -/
def stop : Listener := { l with stopNotified := true }

/-- Shuts the socket down: nobody can connect and accepting fails. -/
def shutDown (host : Host) : Listener × Host :=
  match l.socket with
  | some number => ({ l with broken := true }, host.closeSocket number)
  | none => (l, host)

/-- Errors of a single attempt to accept, by number, after which accepting goes on. -/
def isTransientError (errno : Int) : Bool :=
  errno ∈ [1, 4, 11, 12, 23, 24, 71, 103, 105]

/-- Why the accept loop of a listener without a socket ends. -/
def notBound : Bytes := text "accept loop started without a bound socket"

/-- Why the accept loop of a socket that is shut down ends. -/
def acceptFailed : Bytes := text "accept() failed: Invalid argument"

/-- How many of some clients can connect to the path, and how many of them reach this
listener. -/
def reachedBy (host : Host) (v : Vantage) (clients : Nat) : Nat × Nat :=
  if host.accepts v l.path then
    (clients, if (host.connect v l.path).toOption = l.socket then clients else 0)
  else (0, 0)

/-- A run of the accept loop, on so many clients that have connected to it. Answers how
many it accepted and why it failed, if it did. -/
def run (waiting : Nat) : Listener × Nat × Option Bytes × Log.Journal :=
  let started := Log.debug (text "Accept loop started")
  let stopped := Log.debug (text "Accept loop stopped")
  if !l.isBound then (l, 0, some notBound, [])
  else if l.stopNotified then (l, 0, none, [started, stopped])
  else if l.broken then (l, 0, some acceptFailed, [started, Log.error acceptFailed])
  else ({ l with accepted := l.accepted + waiting }, waiting, none, [started, stopped])

end Listener

end SearchDaemon
