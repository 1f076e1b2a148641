import SearchDaemon.Frame.Receiving
import SearchDaemon.Host
import SearchDaemon.Message.Decoding
import SearchDaemon.Message.Encoding

/-!
# Clients

A client connects to a daemon's socket, sends requests as frames and reads one
response per frame. Reading answers nothing where it would have to wait for more
bytes.
-/

namespace SearchDaemon

/-- One end of a conversation with a daemon; the client's end is the near one. -/
structure Client where
  path : Bytes
  sockets : SocketPair := { near := { isOpen := false }, far := { isOpen := false } }
  nextId : UInt64 := 1
deriving Repr

namespace Client

variable (c : Client)

def isConnected : Bool := c.sockets.near.isOpen

/-- Connects, unless that has happened before. -/
def connect (host : Host) (v : Vantage) : Bool × Client × Log.Journal :=
  if c.isConnected then (true, c, [])
  else if Host.isBadSocketPath c.path then
    (false, c, [Log.error (text "Invalid socket path: " ++ c.path)])
  else
    match host.connect v c.path with
    | .ok _ => (true, { c with sockets := {} }, [])
    | .error e =>
        (false, c, [Log.debug (text "Failed to connect to " ++ c.path ++ text ": " ++ e.message)])

def disconnect : Client := { c with sockets := c.sockets.close .near }

/-- The number for the next request. -/
def takeId : UInt64 × Client := (c.nextId, { c with nextId := c.nextId + 1 })

/-- Sends a body as a frame. -/
def sendFrame (body : Bytes) : Bool × Client :=
  let (sent, sockets) := Frame.send c.sockets .near body
  (sent, { c with sockets })

def sendRequest (r : Request) : Bool × Client := c.sendFrame (Message.ofRequest r).encode

/-- Says that no more requests will be sent. -/
def finish : Client := { c with sockets := c.sockets.finish .near }

/-- Reads the next frame and decodes it as a response. Answers no response if the
stream has ended or what stands there is none. -/
def takeResponse? (inlet : Inlet) : Option (Option Response × Inlet × Log.Journal) :=
  match Frame.receive inlet with
  | (.waiting _, _) => none
  | (.frame body, inlet) =>
      match Response.decode body with
      | .ok r => some (some r, inlet, [])
      | .error e => some (none, inlet, [Log.error (text "Malformed response: " ++ e.message)])
  | (receipt, inlet) =>
      some (none, inlet, receipt.journal ++
        [Log.debug (text "No response: " ++ text receipt.status.name)])

/-- Reads a response, if a connected client has one or its end to read. -/
def receive? : Option (Option Response × Client × Log.Journal) :=
  if c.isConnected then do
    let near := c.sockets.near
    let (response, inlet, journal) ← takeResponse? near.inlet
    some (response, { c with sockets := c.sockets.set .near { near with inlet } }, journal)
  else some (none, c, [])

/-- The daemon has closed the connection and everything it sent has been read. -/
def sawClose : Bool :=
  !c.isConnected || (c.sockets.near.inlet.unread.isEmpty && c.sockets.near.inlet.ended)

/-! ## The daemon's end -/

/-- The daemon writes bytes. -/
def daemonWrites (bs : Bytes) : Bool × Client :=
  let (sent, sockets) := c.sockets.write .far bs
  (sent, { c with sockets })

/-- The daemon reads everything there is, while its end is open. -/
def daemonReads : Option Bytes × Client :=
  if c.sockets.far.isOpen then
    let (bs, sockets) := c.sockets.drain .far
    (some bs, { c with sockets })
  else (none, c)

/-- The daemon reads everything there is and closes its end. -/
def daemonCloses : Client := { c with sockets := (c.sockets.drain .far).2.close .far }

/-- The daemon writes an answer and perhaps closes its end. -/
def daemonAnswers (bs : Bytes) (last : Bool) : Client :=
  let c := (c.daemonWrites bs).2
  if last then c.daemonCloses else c

/-- The daemon ends its direction if the client would have to wait for it. -/
def relieve : Client :=
  if c.receive?.isNone then { c with sockets := c.sockets.finish .far } else c

/-- Reads a response, with none at hand as at the end of the stream. -/
def receive : Option Response × Client × Log.Journal := c.receive?.getD (none, c, [])

end Client

end SearchDaemon
