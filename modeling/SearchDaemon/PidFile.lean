import SearchDaemon.FileTree.Edit
import SearchDaemon.Log
import SearchDaemon.Numeral

/-!
# Pid files

A running daemon leaves its process number in a file, as a decimal numeral and a
newline. Reading takes the numeral at the beginning of the file, after any white
space and a sign, and keeps its 32 low-order bits as a signed number.

The file is emptied before it is written. Where the system does not take all bytes,
the file stays behind with what it took.
-/

namespace SearchDaemon.PidFile

/-- What is written for a process. -/
def content (pid : Nat) : Bytes := decimal pid ++ [10]

/-- Writes a process's number. -/
def write (tree : FileTree) (v : Vantage) (path : Bytes) (pid : Nat)
    (short : Option ShortWrite := none) : Bool × FileTree × Log.Journal :=
  let failed (what : String) (reason : Bytes) : Log.Journal :=
    [Log.error (text "Failed to " ++ text what ++ text " pid file " ++ path ++ text ": " ++ reason)]
  match tree.writeAt v path 0o600 (ShortWrite.kept short (content pid)) with
  | .error e => (false, tree, failed "open" e.message)
  | .ok tree =>
      match ShortWrite.objection short (content pid) with
      | none => (true, tree, [])
      | some reason => (false, tree, failed "write" reason)

/-- The process number a file's content stands for. -/
def parse (bs : Bytes) : Option Int :=
  match Numeral.leading? bs with
  | some n => if Numeral.fits 64 n && 0 < n then some (Numeral.low32 n) else none
  | none => none

/-- Reads the process number in a file. A file that is there but holds none is
reported. -/
def read (tree : FileTree) (v : Vantage) (path : Bytes) : Option Int × Log.Journal :=
  match tree.contentAt v path with
  | .error _ => (none, [])
  | .ok bs =>
      match parse bs with
      | some pid => (some pid, [])
      | none => (none, [Log.warning (text "Malformed pid file: " ++ path)])

/-- The process number in a file, if that process is alive. -/
def running (tree : FileTree) (v : Vantage) (alive : Int → Bool) (path : Bytes) :
    Option Int × Log.Journal :=
  let (pid, journal) := read tree v path
  (pid.filter fun pid => 0 < pid && alive pid, journal)

end SearchDaemon.PidFile
