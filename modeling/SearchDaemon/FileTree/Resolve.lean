import SearchDaemon.FileTree

/-!
# From path texts to places

A path is read name by name from the root or from the working directory. Dots
stay or go up, links are replaced by their targets (at most forty on one path),
and every name but the last must be a directory. What a path leads to is a
`Target`: an entry, or a free name in a directory that exists.

`locate` treats the last name as part of the walk; `locateName` stops in front
of it, as the calls that create or remove a name do.
-/

namespace SearchDaemon

/-- A path cut at its slashes. -/
structure PathText where
  absolute : Bool
  names : List Bytes
  /-- The path ends in a slash, so it asks for a directory. -/
  trailingSlash : Bool
deriving DecidableEq, Repr

namespace PathText

/-- The longest name a directory can hold. -/
def nameLimit : Nat := 255

/-- A path this long or longer is refused. -/
def pathLimit : Nat := 4096

/-- The most links followed on the way along one path. -/
def linkLimit : Nat := 40

def dot : Bytes := [46]

def dotDot : Bytes := [46, 46]

/-- The pieces between slashes, without the empty ones. -/
def splitNames (path : Bytes) : List Bytes :=
  (path.splitOnP (· = 47)).filter (fun name => !name.isEmpty)

/-- A path as the system reads it: up to the first zero byte. -/
def parse (path : Bytes) : PathText :=
  let path := path.untilZero
  { absolute := path.head? = some 47
    names := splitNames path
    trailingSlash := path.getLast? = some 47 }

/-- The path's text is neither empty nor too long. -/
def check (path : Bytes) : Except FileError Unit :=
  let length := path.untilZero.length
  if length = 0 then .error .noEntry
  else if pathLimit ≤ length then .error .nameTooLong
  else .ok ()

end PathText

/-- What a path leads to. -/
inductive Target where
  | found (place : Place) (entry : Entry)
  /-- No entry has this name yet in the directory at `dir`. -/
  | free (dir : Place) (name : Bytes) (trailingSlash : Bool)
deriving DecidableEq, Repr

namespace FileTree

/-- Walks along `names` from the directory at `dir`, with `links` more links
allowed. `follow` says whether a link under the last name is followed, and
`slash` whether the path ends in a slash. -/
def walk (tree : FileTree) (follow : Bool) :
    (links : Nat) → (dir : Place) → (names : List Bytes) → (slash : Bool) →
      Except FileError Target
  | _, dir, [], _ =>
      match tree.get? dir with
      | some entry => .ok (.found dir entry)
      | none => .error .noEntry
  | links, dir, name :: rest, slash =>
      if name = PathText.dot then walk tree follow links dir rest slash
      else if name = PathText.dotDot then walk tree follow links dir.dropLast rest slash
      else if PathText.nameLimit < name.length then .error .nameTooLong
      else
        match tree.get? (dir ++ [name]) with
        | none => if rest.isEmpty then .ok (.free dir name slash) else .error .noEntry
        | some (.directory _) => walk tree follow links (dir ++ [name]) rest slash
        | some (.link target) =>
            if rest.isEmpty && !follow && !slash then
              .ok (.found (dir ++ [name]) (.link target))
            else
              match links with
              | 0 => .error .tooManyLinks
              | links + 1 =>
                  let path := PathText.parse target
                  walk tree follow links (if path.absolute then [] else dir)
                    (path.names ++ rest)
                    (if rest.isEmpty then slash || path.trailingSlash else slash)
        | some entry =>
            if rest.isEmpty && !slash then .ok (.found (dir ++ [name]) entry)
            else .error .notDirectory
termination_by links _ names _ => (links, names.length)

/-- What the whole path leads to. -/
def locate (tree : FileTree) (cwd : Place) (follow : Bool) (path : Bytes) :
    Except FileError Target := do
  PathText.check path
  let text := PathText.parse path
  tree.walk follow PathText.linkLimit (if text.absolute then [] else cwd)
    text.names text.trailingSlash

/-- The entry a path leads to. -/
def stat (tree : FileTree) (cwd : Place) (path : Bytes) (follow : Bool := true) :
    Except FileError (Place × Entry) := do
  match ← tree.locate cwd follow path with
  | .found place entry => .ok (place, entry)
  | .free .. => .error .noEntry

/-- What a call that makes or removes a name works on. -/
inductive NameSlot where
  | found (place : Place) (entry : Entry) (trailingSlash : Bool)
  | free (dir : Place) (name : Bytes) (trailingSlash : Bool)
  /-- The path ends in a dot, two dots, or at the root, and so in no name. -/
  | unnamed
deriving DecidableEq, Repr

/-- The last name of a path, looked up in the directory before it; a link there
is not followed. -/
def locateName (tree : FileTree) (cwd : Place) (path : Bytes) :
    Except FileError NameSlot := do
  PathText.check path
  let text := PathText.parse path
  let start := if text.absolute then [] else cwd
  match text.names.getLast? with
  | none => .ok .unnamed
  | some last =>
      if last = PathText.dot ∨ last = PathText.dotDot then
        match ← tree.walk true PathText.linkLimit start text.names.dropLast true with
        | .found .. => .ok .unnamed
        | .free .. => .error .noEntry
      else
        match ← tree.walk false PathText.linkLimit start text.names false with
        | .found place entry => .ok (.found place entry text.trailingSlash)
        | .free dir name _ => .ok (.free dir name text.trailingSlash)

end FileTree

end SearchDaemon
