import SearchDaemon.CommandLine
import SearchDaemon.Console
import SearchDaemon.Machine

/-!
# Stopping a daemon from outside

The stop command finds the daemon by its pid file, sends it the termination
signal and watches until it is gone. By force, it sends the signal once more after
a while, if the pid file still names the same process. Only when it has seen the
process dead does it remove the files that are left.

The command is a machine of small steps, so that everything else on the machine
may change between any two of them.
-/

namespace SearchDaemon.Control

/-- Where a stop command stands. -/
inductive Stopping where
  | looking
  | signaling (pid : Int)
  /-- Looks at the pid file again before the second signal. -/
  | checking (pid : Int) (since : Nat)
  | signalingAgain (pid : Int) (since : Nat)
  | watching (pid : Int) (since : Nat)
  | clearingPidFile
  | clearingSocket
  | done (status : Nat)
deriving DecidableEq, Repr

namespace Stopping

/-- The pause between two signals, in milliseconds. -/
def signalGap : Nat := 200

/-- The pause between two looks at a process. -/
def pollInterval : Nat := 50

/-- A time in seconds, with two digits after the point. -/
def seconds (milliseconds : Nat) : Bytes :=
  let hundredths := milliseconds / 10
  decimal (hundredths / 100) ++ 46 :: [UInt8.ofNat (48 + hundredths / 10 % 10),
    UInt8.ofNat (48 + hundredths % 10)]

/-- What a step leaves behind. -/
structure Step where
  phase : Stopping
  machine : Machine
  console : Console
  /-- The process that was sent the termination signal. -/
  signaled : Option Int := none

/-- Sends the first signal. -/
def sendFirst (o : Options) (pid : Int) (m : Machine) (c : Console) : Step :=
  match m.terminate pid with
  | (true, m') =>
      if o.force then
        { phase := .checking pid m.clock, machine := m'.wait signalGap, console := c
          signaled := some pid }
      else { phase := .watching pid m.clock, machine := m', console := c, signaled := some pid }
  | (false, m) =>
      { phase := .done 1, machine := m
        console := c.complain (text "Failed to signal inshd (PID: " ++ decimalInt pid ++
          text "): No such process") }

/-- Looks whether the process is gone, and waits if there is time left. -/
def watch (o : Options) (pid : Int) (since : Nat) (m : Machine) (c : Console) : Step :=
  if m.alive pid then
    if since + 1000 * o.timeout ≤ m.clock then
      { phase := .done 1, machine := m
        console := c.complain (text "inshd (PID: " ++ decimalInt pid ++
          text ") did not stop within " ++ decimal o.timeout ++ text " seconds") }
    else { phase := .watching pid since, machine := m.wait pollInterval, console := c }
  else
    { phase := .clearingPidFile, machine := m
      console := c.say (text "inshd stopped (took " ++ seconds (m.clock - since) ++
        text "s)") }

/-- Removes a file and says what went wrong. -/
def clear (path : Bytes) (next : Stopping) (m : Machine) (c : Console) : Step :=
  let (host, journal) := m.host.removeFile m.vantage path
  { phase := next, machine := { m with host }, console := c.log journal }

/-- One step of the command; its options have all paths filled in. -/
def step (o : Options) (m : Machine) (c : Console) : Stopping → Step
  | .looking =>
      let (pid, journal) := m.runningPid o.config.pidFile
      let c := c.log journal
      match pid with
      | none =>
          { phase := .done 1, machine := m, console := c.complain (text "inshd is not running") }
      | some pid => { phase := .signaling pid, machine := m, console := c }
  | .signaling pid => sendFirst o pid m c
  | .checking pid since =>
      let (now, journal) := m.runningPid o.config.pidFile
      let c := c.log journal
      if now = some pid then { phase := .signalingAgain pid since, machine := m, console := c }
      else
        { phase := .watching pid since, machine := m
          console := c.log [Log.debug (text "Pid file no longer names " ++ decimalInt pid ++
            text ", not signaling again")] }
  | .signalingAgain pid since =>
      let (sent, m) := m.terminate pid
      { phase := .watching pid since, machine := m, console := c
        signaled := if sent then some pid else none }
  | .watching pid since => watch o pid since m c
  | .clearingPidFile => clear o.config.pidFile .clearingSocket m c
  | .clearingSocket =>
      let (accepts, m, journal) := m.knock o.config.socketPath
      let c := c.log journal
      if accepts then { phase := .done 0, machine := m, console := c }
      else clear o.config.socketPath (.done 0) m c
  | .done status => { phase := .done status, machine := m, console := c }

/-- Takes steps until the command is done, at most so many. -/
def runWithin (o : Options) : (steps : Nat) → Stopping → Machine → Console → Nat × Machine × Console
  | 0, _, m, c => (1, m, c)
  | steps + 1, phase, m, c =>
      match phase with
      | .done status => (status, m, c)
      | phase =>
          let s := step o m c phase
          runWithin o steps s.phase s.machine s.console

end Stopping

/-- Stops the daemon, with nothing else going on but the end of processes. -/
def stop (o : Options) (m : Machine) (c : Console) : Nat × Machine × Console :=
  Stopping.runWithin o (20 * o.timeout + 20) .looking m c

end SearchDaemon.Control
