import SearchDaemon.Finder
import SearchDaemon.Log
import SearchDaemon.Message

/-!
# Processing requests

A processor turns a request into a response, or fails in a way that its caller
cannot answer. The standard one creates nothing and finds files; a bad pattern
or a missing directory is an answer like any other.
-/

namespace SearchDaemon

/-- What becomes of a request. -/
inductive Verdict where
  | answer (response : Response)
  /-- A fault that ends the worker, with its description if it has one. -/
  | fault (reason : Option Bytes)
deriving DecidableEq, Repr

structure Processor where
  name : Bytes
  process : Request → Verdict × Log.Journal

namespace Processor

/-- Searches the tree for a request. -/
def findFiles (tree : FileTree) (cwd : Place) (id : UInt64) (dir pattern : Bytes) :
    Response × Log.Journal :=
  let label := text "FindFiles request " ++ decimal id.toNat
  let begun := Log.debug (label ++ text ": '" ++ pattern ++ text "' under " ++ dir)
  match Pattern.compile pattern with
  | .error e =>
      (.failure id (text "Invalid pattern '" ++ pattern ++ text "': " ++ e.message), [begun])
  | .ok compiled =>
      match Finder.find tree cwd compiled dir with
      | none => (.failure id (Finder.notDirectory dir), [begun])
      | some files =>
          ({ requestId := id, kind := Response.fileList, files },
            [begun, Log.debug (label ++ text ": " ++ decimal files.length ++
              text " match(es)")])

/-- The standard processor, looking at a tree. -/
def standard (tree : FileTree) (cwd : Place) : Processor where
  name := text "default"
  process r :=
    match r.task with
    | .create => (.answer (.ok r.id), [Log.debug (text "Create request " ++ decimal r.id.toNat)])
    | .find dir pattern =>
        let (response, journal) := findFiles tree cwd r.id dir pattern
        (.answer response, journal)

/-- A processor that answers by heart: some requests it fails on, some have
their answers, and all others succeed. -/
def scripted (faults otherFaults : List UInt64) (answers : List (UInt64 × Response)) :
    Processor where
  name := text "script"
  process r :=
    if r.id ∈ faults then (.fault (some (text "fault " ++ decimal r.id.toNat)), [])
    else if r.id ∈ otherFaults then (.fault none, [])
    else (.answer ((answers.lookup r.id).getD (.ok 0)), [])

end Processor

end SearchDaemon
