import SearchDaemon.Bytes

/-!
# Log lines

A log line has a level and a message. Levels are numbers with four named ones;
a line passes a threshold if its level is at least as high.
-/

namespace SearchDaemon.Log

/-- How important a line is. -/
structure Level where
  rank : Int
deriving DecidableEq, Repr

namespace Level

def debug : Level := ⟨0⟩
def info : Level := ⟨1⟩
def warning : Level := ⟨2⟩
def error : Level := ⟨3⟩

def tag (level : Level) : Bytes :=
  if level = debug then text "DEBUG"
  else if level = info then text "INFO"
  else if level = warning then text "WARN"
  else if level = error then text "ERROR"
  else text "UNKNOWN"

/-- The level with a name, written in any case. -/
def ofName? (name : Bytes) : Option Level :=
  let lower := name.map fun b => if 65 ≤ b ∧ b ≤ 90 then b + 32 else b
  if lower = text "debug" then some debug
  else if lower = text "info" then some info
  else if lower = text "warn" ∨ lower = text "warning" then some warning
  else if lower = text "error" then some error
  else none

end Level

structure Line where
  level : Level
  message : Bytes
deriving DecidableEq, Repr

namespace Line

/-- The line as it is written, without its time. -/
def render (line : Line) : Bytes :=
  91 :: line.level.tag ++ text "] " ++ line.message

end Line

/-- What some work has logged, first line first. -/
abbrev Journal := List Line

def debug (message : Bytes) : Line := ⟨.debug, message⟩
def info (message : Bytes) : Line := ⟨.info, message⟩
def warning (message : Bytes) : Line := ⟨.warning, message⟩
def error (message : Bytes) : Line := ⟨.error, message⟩

/-- The lines that pass a threshold. -/
def passing (threshold : Level) (journal : Journal) : Journal :=
  journal.filter fun line => threshold.rank ≤ line.level.rank

end SearchDaemon.Log
