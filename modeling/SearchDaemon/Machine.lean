import SearchDaemon.Client
import SearchDaemon.Program

/-!
# A machine with several processes

The processes on a machine that a command can have to do with: detached daemons,
and processes that only stand in for a daemon. Time goes on in milliseconds; a
process that has been told to end is alive until its time has come.
-/

namespace SearchDaemon

/-- How a process that stands in for a daemon answers its first signal. -/
inductive Manner where
  /-- Removes its pid file and ends. -/
  | graceful
  /-- Removes its pid file and ends a while later. -/
  | lingering
  /-- Does nothing. -/
  | wedged
deriving DecidableEq, Repr

/-- How long a process takes to end after its first signal, if it ends. -/
def Manner.delay? : Manner → Option Nat
  | .graceful => some 1
  | .lingering => some 330
  | .wedged => none

inductive Role where
  | daemon (program : Program)
  | standIn (manner : Manner) (pidFile : Bytes) (signals : Nat)

/-- A process and the time it ends, with its status, if that is settled. -/
structure Resident where
  pid : Nat
  role : Role
  ending : Option (Nat × Nat) := none

structure Machine where
  host : Host
  /-- Where commands are given. -/
  vantage : Vantage
  home : Home := {}
  residents : List Resident := []
  clock : Nat := 0
  nextPid : Nat

namespace Machine

variable (m : Machine)

def isAlive (r : Resident) : Bool := r.ending.all (m.clock < ·.1)

def resident? (pid : Int) : Option Resident := m.residents.find? fun r => (r.pid : Int) = pid

/-- A process with this number is alive; the first process always is. -/
def alive (pid : Int) : Bool := pid = 1 || (m.resident? pid).any m.isAlive

def setResident (r : Resident) : Machine :=
  { m with residents := m.residents.map fun q => if q.pid = r.pid then r else q }

/-- Time passes. -/
def wait (milliseconds : Nat) : Machine := { m with clock := m.clock + milliseconds }

/-- How long a daemon takes to end. -/
def daemonDelay : Nat := 10

/-- The termination signal reaches a stand-in. -/
def signalStandIn (r : Resident) (manner : Manner) (pidFile : Bytes) (signals : Nat) :
    Machine :=
  let role := Role.standIn manner pidFile (signals + 1)
  if 0 < signals then
    m.setResident { r with role, ending := some (m.clock, SignalTable.forcedExitStatus) }
  else
    match manner.delay? with
    | none => m.setResident { r with role }
    | some delay =>
        let m := { m with host := (m.host.removeFile m.vantage pidFile).1 }
        m.setResident { r with role, ending := some (m.clock + delay, 0) }

/-- The termination signal reaches a daemon. -/
def signalDaemon (r : Resident) (p : Program) : Machine :=
  match p.signal m.host .terminate with
  | (.alive, p, host) => { m with host }.setResident { r with role := .daemon p }
  | (.exited 0, p, host) =>
      { m with host }.setResident
        { r with role := .daemon p, ending := some (m.clock + daemonDelay, 0) }
  | (.exited status, p, host) =>
      { m with host }.setResident { r with role := .daemon p, ending := some (m.clock, status) }
  | (.killed _, p, host) =>
      { m with host }.setResident { r with role := .daemon p, ending := some (m.clock, 1) }

/-- Sends the termination signal to a process. Answers whether it was alive. -/
def terminate (pid : Int) : Bool × Machine :=
  if m.alive pid then
    (true, match m.resident? pid with
      | none => m
      | some r =>
          match r.role with
          | .daemon p => m.signalDaemon r p
          | .standIn manner pidFile signals => m.signalStandIn r manner pidFile signals)
  else (false, m)

/-- The pid in a file, if that process is alive. -/
def runningPid (pidFile : Bytes) : Option Int × Log.Journal :=
  PidFile.running m.host.tree m.vantage m.alive pidFile

/-! ## Daemons on the machine -/

/-- The live program that listens on a socket. -/
def listener? (number : Nat) : Option (Resident × Program) :=
  m.residents.findSome? fun r =>
    match r.role with
    | .daemon p => if m.isAlive r && p.daemon.listensOn number then some (r, p) else none
    | .standIn .. => none

/-- Connects to a socket and lets a client visit the daemon there. -/
def connect {α : Type} (path : Bytes) (visit : FileTree → Daemon → α × Daemon × Log.Journal) :
    Option α × Machine :=
  if Host.isBadSocketPath path then (none, m)
  else
    match ((m.host.connect m.vantage path).toOption).bind m.listener? with
    | none => (none, m)
    | some (r, p) =>
        let (answer, p, host) := p.serve m.host visit
        (some answer, { m with host }.setResident { r with role := .daemon p })

/-- Whether a daemon accepts on a path, which it notices, and what trying says in the
log. -/
def knock (path : Bytes) : Bool × Machine × Log.Journal :=
  let (_, _, journal) := ({ path } : Client).connect m.host m.vantage
  let (visit, m) := m.connect path fun tree d => ((), d.acceptVisit tree)
  (visit.isSome, m, journal)

/-- A client connects, makes one call and leaves. Answers nothing if it cannot connect. -/
def call (path : Bytes) (r : Request) : Option (Option Response) × Machine :=
  m.connect path fun tree d =>
    let (i, d, accepted) := d.accept tree
    let (response, d, called) := d.clientCalls tree i r
    let (d, left) := d.onConnection tree i Connection.clientCloses
    (response, d, accepted ++ called ++ left)

/-- Starts a process that stands in for a daemon. -/
def spawn (manner : Manner) (pidFile : Bytes) : Machine :=
  let pid := m.nextPid
  let (_, tree, _) := PidFile.write m.host.tree m.vantage pidFile pid
  { m with
    host := { m.host with tree }
    nextPid := pid + 1
    residents := { pid, role := .standIn manner pidFile 0 } :: m.residents }

/-- The status with which the latest stand-in ends, if that is settled. -/
def standInStatus? : Option Nat := do
  let r ← m.residents.find? fun r => r.role matches .standIn ..
  let (_, status) ← r.ending
  some status

end Machine

end SearchDaemon
