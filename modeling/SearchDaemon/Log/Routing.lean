import SearchDaemon.FileTree.Edit
import SearchDaemon.Log

/-!
# Where log lines go

A log writes to the standard output until it is given a file; lines are appended
to the file. If a file cannot be opened, output goes back to the standard output.
Lines below the threshold go nowhere.
-/

namespace SearchDaemon.Log

structure Routing where
  threshold : Level := .info
  /-- The file that is open, if one is. -/
  file : Option Place := none
  tree : FileTree := {}
  /-- What has gone to the standard output. -/
  printed : Bytes := []
deriving Repr

namespace Routing

variable (r : Routing)

/-- Sends later lines to a file. Answers whether it could be opened. -/
def redirect (v : Vantage) (path : Bytes) : Bool × Routing :=
  match r.tree.openForWriting v path 0o666 with
  | .ok (tree, place) => (true, { r with tree, file := some place })
  | .error _ => (false, { r with file := none })

/-- Writes a line where it belongs. -/
def write (line : Line) : Routing :=
  if line.level.rank < r.threshold.rank then r
  else
    let bs := line.render ++ [10]
    match r.file with
    | some place => { r with tree := r.tree.setContent place (r.tree.content place ++ bs) }
    | none => { r with printed := r.printed ++ bs }

def writeAll (journal : Journal) : Routing := journal.foldl write r

end Routing

end SearchDaemon.Log
