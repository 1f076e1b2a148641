import SearchDaemon.Frame.Receiving
import SearchDaemon.Message.Decoding
import SearchDaemon.Service.Basic

/-!
# Handling clients

A handler reads frames from its client, decodes each as a request and puts it on
the inbound channel with the next sequence number. The first frame that is none,
and the first body that is no request, cut the client off. However reading ends,
the handler waits until the connection's writer is done; it reports the client as
gone unless it was stopped or the inbound channel was closed.
-/

namespace SearchDaemon

namespace Handler

/-- The objection to a handler without its parts. -/
def needsParts : Bytes := text "ClientHandler needs a connection and both channels"

/-- The handler waits for responses that are still owed. -/
def isJoining (h : Handler) : Bool :=
  match h.phase with
  | .joining _ => true
  | _ => false

end Handler

namespace Service

variable (s : Service)

/-- Sets the handler at a position going, and the writer of its connection. -/
def startHandler (i : Nat) : Service × Log.Journal :=
  match s.handlers[i]?, s.connections[i]? with
  | some h, some c =>
      ((s.setConnection i c.startWriter).setHandler i
          { h with phase := .reading Frame.Reader.start },
        [Log.debug (c.label ++ text ": handler started")])
  | _, _ => (s, [])

/-- Asks the handler at a position to stop reading. -/
def stopHandler (i : Nat) : Service :=
  match s.handlers[i]? with
  | some h => s.setHandler i { h with stopRequested := true }
  | none => s

/-- What becomes of the body of a frame. -/
def interpret (i : Nat) (h : Handler) (c : Connection) (body : Bytes) :
    Service × Log.Journal :=
  match Request.decode body with
  | .ok request =>
      ((s.setConnection i c).setHandler i { h with phase := .forwarding request },
        [Log.debug (c.label ++ text ": request " ++ decimal request.id.toNat ++
          text " (sequence " ++ decimal h.forwarded ++ text ")")])
  | .error e =>
      ((s.setConnection i c.abort.1).setHandler i { h with phase := .finishing .disconnected },
        Log.warning (c.label ++ text ": malformed request (" ++ e.message ++
          text "), closing connection") :: c.abort.2)

/-- Ends the reading at the end of the stream, or where it is torn. -/
def partWays (i : Nat) (h : Handler) (c : Connection) (torn : Bool) : Service × Log.Journal :=
  ((s.setConnection i c).setHandler i { h with phase := .finishing .disconnected },
    if torn then [Log.debug (c.label ++ text ": read error")] else [])

/-- Reads at most `budget + 1` bytes towards the next frame, once there are any. -/
def receive (budget i : Nat) (h : Handler) (c : Connection) (reader : Frame.Reader) :
    Service × Log.Journal :=
  let piece := c.inlet.unread.take (budget + 1)
  let later := c.inlet.unread.drop (budget + 1)
  let keep (unread : Bytes) : Connection := { c with inlet := { c.inlet with unread } }
  if piece.isEmpty then
    s.partWays i h { c with inlet := { c.inlet with reset := false } }
      (c.inlet.reset || !reader.isFresh)
  else
    match reader.take piece with
    | .waiting reader =>
        ((s.setConnection i (keep later)).setHandler i { h with phase := .reading reader }, [])
    | .frame body rest => s.interpret i h (keep (rest ++ later)) body
    | .invalid length rest =>
        let c := keep (rest ++ later)
        ((s.setConnection i c.abort.1).setHandler i
            { h with phase := .finishing .disconnected },
          (Frame.Receipt.invalid length).journal ++
            Log.warning (c.label ++ text ": protocol error, closing connection") :: c.abort.2)

/-- Waits for bytes or for a stop, which wins, and reads. -/
def read? (budget i : Nat) (h : Handler) (c : Connection) (reader : Frame.Reader) :
    Option (Service × Log.Journal) :=
  match Poll.wait (.socket c.inlet (!c.clientGone)) (.wakePipe h.stopRequested) .input with
  | .timeout => none
  | .stopped => some (s.setHandler i { h with phase := .finishing .stopped }, [])
  | .error => some (s.partWays i h c true)
  | .ready => some (s.receive budget i h c reader)

/-- One step of the handler at a position. -/
def handlerStep? (budget i : Nat) : Option (Service × Log.Journal) := do
  let h ← s.handlers[i]?
  let c ← s.connections[i]?
  match h.phase with
  | .idle | .ended => none
  | .reading reader => s.read? budget i h c reader
  | .forwarding request =>
      let ticket : Ticket :=
        { client := c.client, sequence := h.forwarded, request, connection := some i }
      let (taken, inbound) ← s.inbound.send? ticket
      if taken then
        some ({ s with inbound }.setHandler i
          { h with phase := .reading Frame.Reader.start, forwarded := h.forwarded + 1 }, [])
      else
        some (s.setHandler i { h with phase := .finishing .stopped },
          [Log.debug (c.label ++ text ": inbound channel closed")])
  | .finishing why =>
      some ((s.setConnection i (c.finish h.forwarded)).setHandler i
        { h with phase := .joining why }, [])
  | .joining why =>
      if c.writer.isRunning then none
      else
        match why with
        | .stopped =>
            some (s.setHandler i { h with phase := .ended },
              [Log.debug (c.label ++ text ": handler stopped")])
        | .disconnected => some (s.setHandler i { h with phase := .reporting }, [])
  | .reporting =>
      let (accepted, events) ← s.events.send? (.disconnected c.client h.forwarded)
      some ({ s with events }.setHandler i { h with phase := .ended },
        Log.info (c.label ++ text " disconnected after " ++ decimal h.forwarded ++
          text " request(s)") ::
        if accepted then []
        else [Log.debug (c.label ++ text ": event channel closed, disconnect not reported")])

end Service

end SearchDaemon
