import SearchDaemon.Service.Basic

/-!
# Working

A worker takes its tickets in order, has each processed and delivers the
response under the request's own number. The first fault is its last ticket: it
cuts off the client, reports its death, closes its queue and gives up what is
left there, cutting off the clients of those tickets too.
-/

namespace SearchDaemon

/-- How a ticket is processed. -/
abbrev Processing := Ticket → Verdict × Log.Journal

/-- Every ticket is processed as its request is. -/
def Processor.processing (p : Processor) : Processing := fun ticket => p.process ticket.request

namespace Worker

/-- The objection to a worker without its parts. -/
def needsParts : Bytes := text "Worker needs a processor and both channels"

def label (w : Worker) : Bytes := text "Worker " ++ decimal w.index

end Worker

namespace Service

variable (s : Service)

/-- Sets a worker going. -/
def startWorker (i : Nat) : Service × Log.Journal :=
  match s.workers[i]? with
  | some w =>
      (s.setWorker i { w with phase := .receiving }, [Log.debug (w.label ++ text " started")])
  | none => (s, [])

/-- Has a ticket processed. -/
def workOn (process : Processing) (i : Nat) (w : Worker) (ticket : Ticket) :
    Service × Log.Journal :=
  let (verdict, journal) := process ticket
  match verdict with
  | .answer response =>
      let response := { response with requestId := ticket.request.id }
      (s.setWorker i { w with phase := .delivering ticket response }, journal)
  | .fault reason =>
      (s.setWorker i { w with phase := .failing ticket, dead := true },
        journal ++ [Log.error (w.label ++ text " died processing request " ++
          decimal ticket.request.id.toNat ++ text " from client " ++ decimal ticket.client ++
          text ": " ++ reason.getD (text "unknown exception"))])

/-- Hands a response to its connection. -/
def handOver (i : Nat) (w : Worker) (ticket : Ticket) (response : Response) :
    Service × Log.Journal :=
  let s' := s.setWorker i { w with phase := .receiving, processed := w.processed + 1 }
  match ticket.connection with
  | none => (s', [])
  | some k =>
      match s.connections[k]? with
      | none => (s', [])
      | some c =>
          let (accepted, c, journal) := c.deliver ticket.sequence response
          (s'.setConnection k c,
            if accepted then journal
            else journal ++ [Log.warning (w.label ++ text ": could not deliver response " ++
              decimal ticket.request.id.toNat ++ text " to client " ++ decimal ticket.client)])

/-- One step of the worker at a position. -/
def workerStep? (process : Processing) (i : Nat) : Option (Service × Log.Journal) := do
  let w ← s.workers[i]?
  match w.phase with
  | .idle | .ended => none
  | .receiving =>
      let (item, queue) ← w.queue.receive?
      match item with
      | some ticket => some (s.setWorker i { w with queue, phase := .processing ticket }, [])
      | none =>
          some (s.setWorker i { w with phase := .ended },
            [Log.debug (w.label ++ text " exiting after " ++ decimal w.processed ++
              text " requests")])
  | .processing ticket => some (s.workOn process i w ticket)
  | .delivering ticket response => some (s.handOver i w ticket response)
  | .failing ticket =>
      let (s, journal) := s.abortConnection ticket.connection
      some (s.setWorker i { w with phase := .reporting }, journal)
  | .reporting =>
      let (accepted, events) ← s.events.send? (.workerDied w.index)
      some ({ s with events }.setWorker i { w with phase := .closing },
        if accepted then [] else [Log.warning (w.label ++ text ": event channel closed")])
  | .closing => some (s.setWorker i { w with queue := w.queue.close, phase := .draining }, [])
  | .draining =>
      match w.queue.take with
      | (some ticket, queue) =>
          let (s, journal) := s.abortConnection ticket.connection
          some (s.setWorker i { w with queue, stranded := w.stranded + 1 }, journal)
      | (none, _) =>
          some (s.setWorker i { w with phase := .ended },
            if w.stranded = 0 then []
            else [Log.warning (w.label ++ text ": aborted " ++ decimal w.stranded ++
              text " queued request(s)")])

end Service

end SearchDaemon
