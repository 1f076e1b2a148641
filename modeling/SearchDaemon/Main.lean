import SearchDaemon.Control

/-!
# The command line program

Carries out one command on a machine on which nothing else runs and prints what
the command writes. A daemon in the foreground serves until a line is entered,
which interrupts it.
-/

namespace SearchDaemon

/-- The machine the program finds: no files, and the home that the environment names. -/
def freshMachine (home : Option Bytes) : Machine :=
  { host := {}, vantage := { cwd := [] }, home := { environment := home }, nextPid := 2 }

/-- The status a process ends with, as others see it. -/
def Fate.status : Fate → Nat
  | .alive => 0
  | .exited status => status
  | .killed signal => 128 + signal.number

/-- Carries out a command and prints what it writes. Answers its status. -/
def runCommand (args : List String) : IO UInt32 := do
  let home ← IO.getEnv "HOME"
  let stdout ← IO.getStdout
  let (outcome, machine, console) := Control.run (args.map text) (freshMachine (home.map text))
  stdout.write ⟨console.out.toArray⟩
  (← IO.getStderr).write ⟨console.err.toArray⟩
  match outcome with
  | .exited status => return status.toUInt32
  | .serving program =>
      stdout.write ⟨program.printed.toArray⟩
      stdout.flush
      let _ ← (← IO.getStdin).getLine
      let (fate, program, _) := { program with printed := [] }.signal machine.host .interrupt
      stdout.write ⟨program.printed.toArray⟩
      return fate.status.toUInt32

end SearchDaemon

def main (args : List String) : IO UInt32 := SearchDaemon.runCommand args
