import SearchDaemon.FileTree.Resolve

/-!
# Operations on a tree

The calls through which the daemon looks at and changes files. Each either
refuses with the system's reason and leaves the tree alone, or succeeds with
the changed tree.
-/

namespace SearchDaemon

/-- Who works on the tree: where relative paths start and which permission bits
new entries lose. -/
structure Vantage where
  cwd : Place
  umask : Nat := 0o022
deriving DecidableEq, Repr

namespace Vantage

/-- The permission bits a new entry gets. -/
def newMode (v : Vantage) (mode : Nat) : Nat :=
  mode &&& (0o7777 ^^^ (v.umask &&& 0o7777))

end Vantage

/-- The system takes so many of the bytes that are written to a file, and says why not
more. -/
structure ShortWrite where
  taken : Nat
  reason : Bytes
deriving DecidableEq, Repr

/-- The bytes that come to be in the file. -/
def ShortWrite.kept (short : Option ShortWrite) (data : Bytes) : Bytes :=
  match short with
  | none => data
  | some short => data.take short.taken

/-- Why not all of the bytes do, if so. -/
def ShortWrite.objection (short : Option ShortWrite) (data : Bytes) : Option Bytes :=
  (short.filter fun short => short.taken < data.length).map (·.reason)

/-- Without an objection all bytes are there. -/
theorem ShortWrite.kept_of_objection {short : Option ShortWrite} {data : Bytes}
    (unopposed : ShortWrite.objection short data = none) : ShortWrite.kept short data = data := by
  cases short with
  | none => rfl
  | some short =>
      have hall : data.length ≤ short.taken := by simpa [objection] using unopposed
      exact List.take_of_length_le hall

namespace FileTree

variable (tree : FileTree) (v : Vantage)

/-- Makes a directory under a name that is still free. -/
def makeDirectory (path : Bytes) (mode : Nat) : Except FileError FileTree := do
  match ← tree.locateName v.cwd path with
  | .found .. | .unnamed => .error .exists
  | .free dir name _ =>
      .ok (tree.put (dir ++ [name]) (.directory (v.newMode (mode &&& 0o1777))))

/-- Sets the permission bits of what a path leads to. -/
def setMode (path : Bytes) (mode : Nat) : Except FileError FileTree := do
  let (place, entry) ← tree.stat v.cwd path
  .ok (if place.isEmpty then tree else tree.put place (entry.withMode (mode &&& 0o7777)))

/-- Removes a name, unless it is a directory's. -/
def unlink (path : Bytes) : Except FileError FileTree := do
  match ← tree.locateName v.cwd path with
  | .unnamed => .error .isDirectory
  | .free .. => .error .noEntry
  | .found place entry slash =>
      if entry.isDirectory then .error .isDirectory
      else if slash then .error .notDirectory
      else .ok (tree.erase place)

/-- Opens a file for writing, creating it if its name is free. Answers the place
of the file, whose old content stays. -/
def openForWriting (path : Bytes) (mode : Nat) : Except FileError (FileTree × Place) := do
  let text := PathText.parse path
  match ← tree.locate v.cwd true path with
  | .free dir name slash =>
      if slash then .error .isDirectory
      else .ok (tree.put (dir ++ [name]) (.file (v.newMode mode) []), dir ++ [name])
  | .found place entry =>
      if text.trailingSlash then .error .isDirectory
      else
        match entry with
        | .directory _ => .error .isDirectory
        | .socket .. => .error .noSuchDevice
        | _ => .ok (tree, place)

/-- The content of the file at a place; what is no file has none. -/
def content (place : Place) : Bytes :=
  match tree.get? place with
  | some (.file _ data) => data
  | _ => []

/-- Replaces the content of the file at a place; what is no file stays as it is. -/
def setContent (place : Place) (data : Bytes) : FileTree :=
  match tree.get? place with
  | some (.file mode _) => tree.put place (.file mode data)
  | _ => tree

/-- Writes a file from its beginning, dropping what it held. -/
def writeAt (path : Bytes) (mode : Nat) (data : Bytes) : Except FileError FileTree := do
  let (tree, place) ← tree.openForWriting v path mode
  .ok (tree.setContent place data)

/-- What reading a path gives: the bytes of a file, or nothing from an entry
that opens but has no bytes. -/
def contentAt (path : Bytes) : Except FileError Bytes := do
  let (place, entry) ← tree.stat v.cwd path
  match entry with
  | .socket .. => .error .noSuchDevice
  | _ => .ok (tree.content place)

/-- Puts a socket file under a name that is still free. -/
def bindSocket (path : Bytes) (number : Nat) : Except FileError FileTree := do
  match ← tree.locateName v.cwd path with
  | .found .. | .unnamed => .error .addressInUse
  | .free dir name slash =>
      if slash then .error .noEntry
      else .ok (tree.put (dir ++ [name]) (.socket (v.newMode 0o777) number))

/-- The number of the socket whose file a path leads to. -/
def socketAt (path : Bytes) : Except FileError Nat := do
  match ← tree.stat v.cwd path with
  | (_, .socket _ number) => .ok number
  | _ => .error .connectionRefused

end FileTree

end SearchDaemon
