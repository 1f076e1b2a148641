import SearchDaemon.FileTree.Edit

/-!
# Planting trees

Builds a tree entry by entry, making the directories on the way. What cannot be
put where it is asked for is left out.
-/

namespace SearchDaemon

/-- An entry to be planted, with its permission bits if they are prescribed. -/
structure Seedling where
  path : Bytes
  entry : Entry
  mode : Option Nat := none
deriving DecidableEq, Repr

namespace FileTree

/-- Makes the directories that lead to a path's last name. -/
def plantParents (tree : FileTree) (v : Vantage) (path : Bytes) : FileTree :=
  let text := PathText.parse path
  let start : Bytes := if text.absolute then [47] else []
  (text.names.dropLast.foldl
    (fun (tree, shown) name =>
      let shown := shown ++ name
      ((tree.makeDirectory v shown 0o777).toOption.getD tree, shown ++ [47]))
    (tree, start)).1

/-- Puts an entry at its path, if it can be put there. -/
def plant? (tree : FileTree) (v : Vantage) (s : Seedling) : Option FileTree :=
  match s.entry with
  | .file _ data => (tree.writeAt v s.path 0o666 data).toOption
  | .directory _ => (tree.makeDirectory v s.path 0o777).toOption
  | .socket _ number => (tree.bindSocket v s.path number).toOption
  | .link target => atFreeName (.link target)
  | .fifo _ => atFreeName (.fifo (v.newMode 0o666))
where
  atFreeName (entry : Entry) : Option FileTree :=
    match tree.locateName v.cwd s.path with
    | .ok (.free dir name _) => some (tree.put (dir ++ [name]) entry)
    | _ => none

def plant (tree : FileTree) (v : Vantage) (s : Seedling) : FileTree :=
  let tree := tree.plantParents v s.path
  let tree := (tree.plant? v s).getD tree
  match s.mode with
  | some mode => (tree.setMode v s.path mode).toOption.getD tree
  | none => tree

/-- A tree that holds the working directory and the given entries. -/
def grow (v : Vantage) (seedlings : List Seedling) : FileTree :=
  let ground : FileTree :=
    v.cwd.foldl (fun (t, place) name =>
      let place := place ++ [name]
      (t.put place (.directory 0o755), place)) (({} : FileTree), ([] : Place)) |>.1
  seedlings.foldl (fun tree s => tree.plant v s) ground

end FileTree

end SearchDaemon
