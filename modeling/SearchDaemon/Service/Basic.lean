import SearchDaemon.Channel
import SearchDaemon.Connection
import SearchDaemon.Processor

/-!
# The parts of a running service

A service is a set of threads that hand work to each other through channels.
Handlers read requests from clients and put tickets on the inbound channel; the
scheduler deals them out to the workers in turn; workers process them and deliver
the responses to the connections, whose writers send them; a monitor counts what
the others report. Each thread is a phase that it stands in, and the rest of the
state is what the threads share.
-/

namespace SearchDaemon

/-- A request on its way, with the place its response belongs to. -/
structure Ticket where
  client : Nat := 0
  /-- Its number among the requests of this client, from zero. -/
  sequence : Nat := 0
  request : Request
  /-- Where its connection stands in the service, if it has one. -/
  connection : Option Nat := none
deriving DecidableEq, Repr

/-- What a thread reports to the monitor. -/
inductive Event where
  | disconnected (client requests : Nat)
  | workerDied (worker : Nat)
deriving DecidableEq, Repr

namespace Scheduler

inductive Phase where
  | idle
  /-- Waits for a stop or for a ticket. -/
  | selecting
  /-- Offers a ticket to a worker. -/
  | sending (worker : Nat) (ticket : Ticket)
  /-- Closes the workers' queues, from this one on. -/
  | closing (worker : Nat)
  | ended
deriving DecidableEq, Repr

end Scheduler

/-- Deals out tickets to the workers in turn. -/
structure Scheduler where
  phase : Scheduler.Phase := .idle
  /-- The worker whose turn it is. -/
  cursor : Nat := 0
  /-- How many tickets the workers' queues have taken. -/
  dispatched : Nat := 0
  /-- How many tickets came to a queue that was closed. -/
  refused : Nat := 0
deriving DecidableEq, Repr

namespace Worker

inductive Phase where
  | idle
  /-- Waits for a ticket. -/
  | receiving
  | processing (ticket : Ticket)
  | delivering (ticket : Ticket) (response : Response)
  /-- A fault has happened: the client of the ticket is to be cut off. -/
  | failing (ticket : Ticket)
  /-- The fault is to be reported. -/
  | reporting
  /-- The queue is to be closed. -/
  | closing
  /-- What is left in the queue is to be given up. -/
  | draining
  | ended
deriving DecidableEq, Repr

end Worker

/-- Processes the tickets of its own queue one by one, until the first fault. -/
structure Worker where
  index : Nat
  queue : Channel Ticket := {}
  phase : Worker.Phase := .idle
  /-- How many tickets it has got a response for. -/
  processed : Nat := 0
  dead : Bool := false
  /-- How many tickets it gave up after its fault. -/
  stranded : Nat := 0
deriving DecidableEq, Repr

namespace Handler

/-- Why a handler has stopped reading. -/
inductive Ending where
  | stopped
  | disconnected
deriving DecidableEq, Repr

inductive Phase where
  | idle
  /-- Reads a frame. -/
  | reading (reader : Frame.Reader)
  /-- Offers a request to the inbound channel. -/
  | forwarding (request : Request)
  /-- Tells the connection how many responses to expect. -/
  | finishing (why : Ending)
  /-- Waits until the connection's writer has ended. -/
  | joining (why : Ending)
  /-- The end of the client is to be reported. -/
  | reporting
  | ended
deriving DecidableEq, Repr

end Handler

/-- Reads the requests of one client. -/
structure Handler where
  phase : Handler.Phase := .idle
  /-- How many requests the inbound channel has taken. -/
  forwarded : Nat := 0
  stopRequested : Bool := false
deriving DecidableEq, Repr

namespace Monitor

inductive Phase where
  | idle
  | receiving
  /-- Waits until the handler of a client that has left is done. -/
  | joining (client : Nat)
  | ended
deriving DecidableEq, Repr

end Monitor

/-- Keeps the list of clients and counts what happens to them and to the workers. -/
structure Monitor where
  phase : Monitor.Phase := .idle
  /-- The clients whose handlers have not been taken off the list. -/
  registered : List Nat := []
  accepted : Nat := 0
  disconnected : Nat := 0
  requestsFromDisconnected : Nat := 0
  deadWorkers : Nat := 0
  shutdownRequested : Bool := false
deriving DecidableEq, Repr

/-- The threads of a service and what they share. The handler at a position serves
the connection at the same position. -/
structure Service where
  inbound : Channel Ticket := {}
  stop : Channel Unit := {}
  events : Channel Event := {}
  scheduler : Scheduler := {}
  workers : List Worker := []
  connections : List Connection := []
  handlers : List Handler := []
  monitor : Monitor := {}
deriving DecidableEq, Repr

namespace Service

def setConnection (s : Service) (i : Nat) (c : Connection) : Service :=
  { s with connections := s.connections.set i c }

def setWorker (s : Service) (i : Nat) (w : Worker) : Service :=
  { s with workers := s.workers.set i w }

def setHandler (s : Service) (i : Nat) (h : Handler) : Service :=
  { s with handlers := s.handlers.set i h }

/-- Aborts the connection at a position, if there is one. -/
def abortConnection (s : Service) (i : Option Nat) : Service × Log.Journal :=
  match i with
  | none => (s, [])
  | some i =>
      match s.connections[i]? with
      | none => (s, [])
      | some c => (s.setConnection i c.abort.1, c.abort.2)

end Service

end SearchDaemon
