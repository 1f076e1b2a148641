import SearchDaemon.Log

/-!
# Consoles

What a command writes to its standard output, where its log lines go too, and to
its standard error.
-/

namespace SearchDaemon

structure Console where
  out : Bytes := []
  err : Bytes := []
  /-- The level from which log lines are written. -/
  threshold : Log.Level := .info
deriving DecidableEq, Repr

namespace Console

variable (c : Console)

/-- Writes a line to the standard output. -/
def say (line : Bytes) : Console := { c with out := c.out ++ line ++ [10] }

/-- Writes a line to the standard error. -/
def complain (line : Bytes) : Console := { c with err := c.err ++ line ++ [10] }

/-- Writes log lines to the standard output. -/
def log (journal : Log.Journal) : Console :=
  { c with out := c.out ++
      (Log.passing c.threshold journal).flatMap fun line => line.render ++ [10] }

end Console

end SearchDaemon
