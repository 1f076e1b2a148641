import SearchDaemon.Service.Working
import SearchDaemon.Total

/-!
# The workers of a service together

All workers are built, started and told to finish together: each has a queue of
its own, and closing a queue lets its worker do what is left in it and end.
-/

namespace SearchDaemon

/-- So many workers, with queues of one capacity. -/
def Worker.pool (size capacity : Nat) : List Worker :=
  (List.range size).map fun index => { index, queue := { capacity } }

namespace Service

/-- The objection to a pool of this size, with or without all its parts. -/
def poolRefusal? (size : Nat) (complete : Bool) : Option Bytes :=
  if size = 0 then some (text "Worker pool size must be at least 1")
  else if complete then none
  else some (text "Worker pool needs a processor and an event channel")

variable (s : Service)

/-- Sets all workers going, unless that has happened before. -/
def startWorkers : Service × Log.Journal :=
  if s.workers.all (·.phase = .idle) then
    let (s, journal) := (List.range s.workers.length).foldl
      (fun (s, journal) i =>
        let (s, lines) := s.startWorker i
        (s, journal ++ lines)) (s, ([] : Log.Journal))
    (s, Log.info (text "Started " ++ decimal s.workers.length ++ text " workers") :: journal)
  else (s, [])

/-- Closes the queue of the worker at a position. -/
def closeQueue (i : Nat) : Service :=
  match s.workers[i]? with
  | some w => s.setWorker i { w with queue := w.queue.close }
  | none => s

def closeQueues : Service :=
  { s with workers := s.workers.map fun w => { w with queue := w.queue.close } }

def totalProcessed : Nat := total (s.workers.map (·.processed))

def deadWorkers : Nat := s.workers.countP (·.dead)

/-- How many requests the worker at a position has got a response for. -/
def processedBy (i : Nat) : Except Bytes Nat :=
  match s.workers[i]? with
  | some w => .ok w.processed
  | none => .error (text "No worker " ++ decimal i)

end Service

end SearchDaemon
