import SearchDaemon.Listener
import SearchDaemon.PidFile
import SearchDaemon.Service.Accepting
import SearchDaemon.Service.Step
import SearchDaemon.Signals

/-!
# The daemon

A daemon is a service with a listener in front of it, a pid file, and a handler
for termination signals. It works in a process on a host: the `Site` is what it
shares with everybody else there.
-/

namespace SearchDaemon

/-- How a daemon is to be set up. Empty paths stand for the default ones. -/
structure Config where
  socketPath : Bytes := []
  pidFile : Bytes := []
  workers : Nat := 8
  /-- Zero for no bound, as for the workers' queues. -/
  inboundCapacity : Nat := 1024
  queueCapacity : Nat := 0
  /-- How long to wait for a handler to end, in milliseconds. -/
  joinTimeout : Nat := 2000
  handleSignals : Bool := true
deriving DecidableEq, Repr

/-- The config with default paths where it has none. -/
def Config.resolve (c : Config) (home : Home) : Config :=
  { c with
    socketPath := orDefault c.socketPath home.socket
    pidFile := orDefault c.pidFile home.pidFile }

/-- A default path is asked for, and there is none. -/
def Config.lacksHome (c : Config) (home : Home) : Bool :=
  home.directory?.isNone && (c.socketPath.isEmpty || c.pidFile.isEmpty)

/-- The process that daemons work in. -/
structure Process where
  pid : Nat
  vantage : Vantage
  home : Home := {}
  signals : SignalTable := {}
deriving Repr

/-- What a daemon finds around itself. -/
structure Site where
  host : Host
  process : Process
  /-- The sockets that were connected to only to see whether they accept. -/
  probed : List Nat := []
deriving Repr

structure Daemon where
  config : Config
  /-- How requests are processed, given the files that are there. -/
  processor : FileTree → Processor
  service : Service
  listener : Option Listener := none
  /-- The position of its signal handler in the process. -/
  signalHandler : Option Nat := none
  pidFileWritten : Bool := false
  started : Bool := false
  running : Bool := false
  /-- The shutdown has been carried out. -/
  stopped : Bool := false

namespace Daemon

/-- The objection to a daemon without a processor. -/
def needsProcessor : Bytes := text "Coordinator needs a request processor"

/-- A daemon that is not started. -/
def new (config : Config) (processor : FileTree → Processor) : Daemon where
  config := config
  processor := processor
  service := { inbound := { capacity := config.inboundCapacity } }

variable (d : Daemon)

/-- Lets the service's threads work until all of them wait. -/
def settle (tree : FileTree) : Daemon × Log.Journal :=
  let (service, journal) := d.service.settle (d.processor tree).processing
  ({ d with service }, journal)

def shutdownRequested : Bool := d.service.monitor.shutdownRequested

def requestShutdown : Daemon := { d with service := d.service.requestShutdown }

/-- The clients whose handlers are on the list. -/
def activeClients : Nat := d.service.monitor.registered.length

/-- How many requests the worker with a number has got a response for; none before there are
workers. -/
def processedBy (worker : Nat) : Except Bytes Nat :=
  if d.service.workers.isEmpty then .ok 0 else d.service.processedBy worker

/-- The same for every worker there is. -/
def processedByEach : List Nat := d.service.workers.map (·.processed)

/-- The statistics that are logged at the end. -/
def statistics : Bytes :=
  let m := d.service.monitor
  let line (label : String) (n : Nat) : Bytes := text label ++ decimal n ++ [10]
  text "\n=== inshd Statistics ===\n" ++ line "Accepted Clients: " m.accepted ++
    line "Active Clients: " d.activeClients ++ line "Disconnected Clients: " m.disconnected ++
    line "Requests From Disconnected Clients: " m.requestsFromDisconnected ++
    line "Dispatched Requests: " d.service.scheduler.dispatched ++
    line "Processed Requests: " d.service.totalProcessed ++
    (d.processedByEach.mapIdx fun i n =>
      text "  Worker " ++ decimal i ++ text ": " ++ decimal n ++ [10]).flatten ++
    line "Dead Workers: " m.deadWorkers ++ text "========================\n"

end Daemon

end SearchDaemon
