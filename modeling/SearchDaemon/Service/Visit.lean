import SearchDaemon.Service.Step

/-!
# One client's visit

A visit is what a single handler makes of everything one client sends, when no
scheduler takes part: the requests it forwards are taken off the inbound channel
once it has stopped reading, and their responses are delivered one by one. A
handler that still waits for responses after the last one is cut off.
-/

namespace SearchDaemon

/-- How reading comes to its end. -/
inductive Parting where
  /-- The client says that it will send no more. -/
  | clientFinishes
  | clientCloses
  /-- The handler is stopped before it has read anything. -/
  | stoppedFirst
  /-- The connection is aborted before the handler has read anything. -/
  | abortedFirst
  /-- The handler is stopped once it has read everything. -/
  | stopped
  /-- The inbound channel is closed once the handler can do no more. -/
  | inboundClosed
deriving DecidableEq, Repr

structure Visit where
  client : Nat
  bytes : Bytes
  parting : Parting := .stopped
  inbound : Channel Ticket := {}
  events : Channel Event := {}
  deliveries : List (Nat × Response) := []

namespace Visit

/-- What came of a visit. -/
structure Report where
  forwarded : List Ticket
  count : Nat
  delivered : List Bool
  /-- How many responses had been written when no more were delivered. -/
  sentInTime : Nat
  /-- The handler was still waiting for responses then. -/
  owed : Bool
  connection : Connection
  events : List Event
  journal : Log.Journal

/-- The requests are processed elsewhere. -/
def unprocessed : Processing := fun ticket => (.answer (.ok ticket.request.id), [])

/-- A service at work, with the log lines so far. -/
abbrev Work := Service × Log.Journal

/-- Makes a change and lets the threads work until all of them wait. -/
def Work.after (w : Work) (change : Service → Work) : Work :=
  let (s, lines) := change w.1
  let (s, more) := s.settle unprocessed
  (s, w.2 ++ lines ++ more)

def connection (s : Service) : Connection := s.connections.headD {}

def handler (s : Service) : Handler := s.handlers.headD {}

/-- The service before the handler starts. -/
def arrange (v : Visit) : Work :=
  let c := ({ client := v.client } : Connection).clientWrites v.bytes
  let c := match v.parting with
    | .clientFinishes => c.clientFinishes
    | .clientCloses => c.clientCloses
    | _ => c
  let s : Service :=
    { inbound := v.inbound, events := v.events, connections := [c], handlers := [{}] }
  match v.parting with
  | .stoppedFirst => (s.stopHandler 0, [])
  | .abortedFirst => s.abortConnection (some 0)
  | _ => (s, [])

/-- Lets the handler read, and ends its reading. -/
def read (v : Visit) : Work :=
  let w := v.arrange.after (·.startHandler 0)
  match v.parting with
  | .stopped => w.after fun s => (s.stopHandler 0, [])
  | .inboundClosed => w.after fun s => ({ s with inbound := s.inbound.close }, [])
  | _ => w

/-- Delivers one response. -/
def deliver (w : Work) (sequence : Nat) (r : Response) : Bool × Work :=
  let (accepted, c, lines) := (connection w.1).deliver sequence r
  (accepted, w.after fun s => (s.setConnection 0 c, lines))

/-- Delivers responses one after the other. -/
def deliverAll (w : Work) : List (Nat × Response) → List Bool × Work
  | [] => ([], w)
  | (sequence, r) :: rest =>
      let (accepted, w) := deliver w sequence r
      let (later, w) := deliverAll w rest
      (accepted :: later, w)

/-- Takes everything off the inbound channel. -/
def Work.emptied (w : Work) : Work :=
  w.after fun s => ({ s with inbound := { s.inbound with items := [] } }, [])

/-- Cuts the client off if its handler still waits for responses. -/
def Work.finished (w : Work) : Work :=
  if (handler w.1).isJoining then w.after (·.abortConnection (some 0)) else w

def run (v : Visit) : Report :=
  let read := v.read
  let (delivered, answered) := deliverAll read.emptied v.deliveries
  let (last, journal) := answered.finished
  { forwarded := read.1.inbound.items
    count := (handler last).forwarded
    delivered
    sentInTime := (connection answered.1).sent
    owed := (handler answered.1).isJoining
    connection := connection last
    events := last.events.items
    journal }

end Visit

end SearchDaemon
