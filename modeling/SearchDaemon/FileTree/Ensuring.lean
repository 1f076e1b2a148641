import SearchDaemon.FileTree.Edit
import SearchDaemon.Home
import SearchDaemon.Log

/-!
# Directories that must be there, files that must not

`ensureDirectory` makes a directory and those above it, with the given permission
bits, and leaves alone what exists. `removeFile` removes a file and is content if
there is none. Both say in the log what went wrong.
-/

namespace SearchDaemon

theorem length_parentDirectory_lt {path : Bytes} (hdot : parentDirectory path ≠ [46])
    (hroot : parentDirectory path ≠ [47]) : (parentDirectory path).length < path.length := by
  unfold parentDirectory at *
  split at hdot
  · rename_i hmem
    simp only [hmem, if_true] at hroot ⊢
    split at hroot
    · exact absurd rfl hroot
    · rename_i hne
      simp only [hne]
      have hle : (path.reverse.dropWhile (· ≠ 47)).length ≤ path.length := by
        simpa using (List.dropWhile_suffix (l := path.reverse) (· ≠ 47)).length_le
      have hpos : 0 < path.length := List.length_pos_of_mem hmem
      simp at hle ⊢
      omega
  · exact absurd rfl hdot

namespace FileTree

variable (v : Vantage)

/-- Makes one directory whose parent is there. -/
def makeOneDirectory (tree : FileTree) (path : Bytes) (mode : Nat) :
    Bool × FileTree × Log.Journal :=
  let setMode (tree : FileTree) : Bool × FileTree × Log.Journal :=
    match tree.setMode v path mode with
    | .ok tree => (true, tree, [])
    | .error e => (true, tree, [Log.warning (text "Failed to set mode on " ++ path ++
        text ": " ++ e.message)])
  match tree.makeDirectory v path mode with
  | .ok tree => setMode tree
  | .error .exists => setMode tree
  | .error e => (false, tree, [Log.error (text "Failed to create directory " ++ path ++
      text ": " ++ e.message)])

/-- Makes the directory at a path and those above it. Answers whether it is there. -/
def ensureDirectory (tree : FileTree) (path : Bytes) (mode : Nat) :
    Bool × FileTree × Log.Journal :=
  if path.isEmpty then (false, tree, [])
  else
    match tree.stat v.cwd path with
    | .ok (_, .directory _) => (true, tree, [])
    | .ok _ => (false, tree, [Log.error (text "Not a directory: " ++ path)])
    | .error _ =>
        let parent := parentDirectory path
        if h : parent ≠ [46] ∧ parent ≠ [47] then
          have := length_parentDirectory_lt h.1 h.2
          match ensureDirectory tree parent mode with
          | (true, tree, journal) =>
              let (made, tree, lines) := tree.makeOneDirectory v path mode
              (made, tree, journal ++ lines)
          | (false, tree, journal) => (false, tree, journal)
        else tree.makeOneDirectory v path mode
termination_by path.length

/-- Removes the file at a path, if there is one. Answers whether it is gone. -/
def removeFile (tree : FileTree) (path : Bytes) : Bool × FileTree × Log.Journal :=
  match tree.unlink v path with
  | .ok tree => (true, tree, [])
  | .error .noEntry => (true, tree, [])
  | .error e => (false, tree, [Log.warning (text "Failed to remove " ++ path ++
      text ": " ++ e.message)])

end FileTree

end SearchDaemon
