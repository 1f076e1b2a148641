import SearchDaemon.FileTree.Edit
import SearchDaemon.Pattern.Search

/-!
# Finding files

`find` walks down from a directory through real directories and reports every
entry whose name the pattern matches, unless it is a directory or a link to one.
A link whose target cannot be determined is passed over. Paths are written as
the directory was given, and come out in bytewise order.
-/

namespace SearchDaemon.Finder

/-- A path one name further down. -/
def join (dir name : Bytes) : Bytes :=
  if dir.isEmpty || dir.getLast? = some 47 then dir ++ name else dir ++ 47 :: name

/-- What an entry shown under a path is once links are followed. A link is looked up by that
path, so nothing is known about one that the path does not reach. -/
def resolved? (tree : FileTree) (cwd : Place) (path : Bytes) (entry : Entry) : Option Entry :=
  match entry with
  | .link _ => (tree.stat cwd path).toOption.map (·.2)
  | entry => some entry

/-- Whether an entry is reported at all: links followed, it is something other
than a directory. -/
def isReported (tree : FileTree) (cwd : Place) (path : Bytes) (entry : Entry) : Bool :=
  (resolved? tree cwd path entry).any (!·.isDirectory)

/-- The paths of the entries to report below a directory, down to a depth. -/
def walk (tree : FileTree) (cwd : Place) (wanted : Bytes → Bool) :
    (depth : Nat) → (dir : Place) → (shown : Bytes) → List Bytes
  | 0, _, _ => []
  | depth + 1, dir, shown =>
      (tree.children dir).flatMap fun (name, entry) =>
        let path := join shown name
        (if isReported tree cwd path entry && wanted name then [path] else []) ++
          (if entry.isDirectory then walk tree cwd wanted depth (dir ++ [name]) path else [])

/-- The files below `dir` whose names the pattern matches, in bytewise order;
nothing if `dir` leads to no directory. -/
def find (tree : FileTree) (cwd : Place) (pattern : Pattern) (dir : Bytes) :
    Option (List Bytes) :=
  match tree.stat cwd dir with
  | .ok (place, .directory _) =>
      some (Bytes.sorted (walk tree cwd pattern.occursIn (tree.entries.length + 1) place dir))
  | _ => none

/-- The refusal of a path that leads to no directory. -/
def notDirectory (dir : Bytes) : Bytes := text "Not a directory: " ++ dir

end SearchDaemon.Finder
