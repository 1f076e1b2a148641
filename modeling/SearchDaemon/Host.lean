import SearchDaemon.FileTree.Ensuring

/-!
# The host of the daemon

What processes on one machine share: the file tree and the sockets that accept
connections. Every socket that is bound gets a number of its own; a socket file
whose number is not among the listening ones refuses connections.
-/

namespace SearchDaemon

structure Host where
  tree : FileTree := {}
  /-- The numbers of the sockets that accept connections. -/
  listening : List Nat := []
  /-- The number for the next socket to be bound. -/
  nextSocket : Nat := 1
  /-- How much the file system takes of what is written to a pid file, if not all. -/
  shortWrite : Option ShortWrite := none
deriving Repr

namespace Host

variable (host : Host) (v : Vantage)

/-- The longest path a socket can be bound to or reached by. -/
def socketPathLimit : Nat := 107

/-- A path that no socket can have. -/
def isBadSocketPath (path : Bytes) : Bool := path.isEmpty || socketPathLimit < path.length

/-- Connects to the socket at a path. Answers the number of the socket. -/
def connect (path : Bytes) : Except FileError Nat := do
  let number ← host.tree.socketAt v path
  if number ∈ host.listening then .ok number else .error .connectionRefused

/-- Some process accepts connections at a path. -/
def accepts (path : Bytes) : Bool :=
  !isBadSocketPath path && (host.connect v path).toBool

/-- Binds a new socket that nobody can connect to yet. -/
def bindSocket (path : Bytes) : Except FileError (Nat × Host) := do
  let tree ← host.tree.bindSocket v path host.nextSocket
  .ok (host.nextSocket, { host with tree, nextSocket := host.nextSocket + 1 })

/-- Lets a socket accept connections. -/
def listen (number : Nat) : Host := { host with listening := number :: host.listening }

/-- A socket accepts no more connections; its file stays. -/
def closeSocket (number : Nat) : Host :=
  { host with listening := host.listening.filter (· ≠ number) }

/-- Removes the file at a path, if there is one. -/
def removeFile (path : Bytes) : Host × Log.Journal :=
  let (_, tree, journal) := host.tree.removeFile v path
  ({ host with tree }, journal)

end Host

end SearchDaemon
