import SearchDaemon.Service.Handling

/-!
# Accepting clients

Every accepted client gets the next number, a connection and a handler, and is
put on the monitor's list.
-/

namespace SearchDaemon.Service

variable (s : Service)

/-- Takes on a client that has connected, over a socket that holds so much. -/
def accept (capacity : Option Nat := none) : Service × Log.Journal :=
  let position := s.connections.length
  let client := position + 1
  let s :=
    { s with
      connections := s.connections ++ [({ client, capacity } : Connection)]
      handlers := s.handlers ++ [({} : Handler)]
      monitor :=
        { s.monitor with
          registered := s.monitor.registered ++ [client]
          accepted := s.monitor.accepted + 1 } }
  let (s, journal) := s.startHandler position
  (s, journal ++ [Log.info (text "Client " ++ decimal client ++ text " connected")])

/-- The client at a position finds the connection closed: it was aborted, or its
handler is done and nobody holds it any more. -/
def isClosed (position : Nat) : Bool :=
  (s.connections[position]?).all (·.aborted) || position + 1 ∉ s.monitor.registered

end SearchDaemon.Service
