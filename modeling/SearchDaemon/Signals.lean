import SearchDaemon.Log

/-!
# Termination signals

A process answers each of three signals by dying, by ignoring it, or by a handler.
At most one handler is active; it takes over all three signals and gives them
back when it is stopped. The first signal it catches is passed to its thread,
which calls the shutdown callback; the second one ends the process at once.

`raise` is what a signal does to the process and `attend` what the handler's
thread does about it afterwards.
-/

namespace SearchDaemon

inductive Signal where
  | interrupt
  | quit
  | terminate
deriving DecidableEq, Repr

namespace Signal

def number : Signal → Nat
  | .interrupt => 2
  | .quit => 3
  | .terminate => 15

def ofNumber? (n : Int) : Option Signal :=
  [interrupt, quit, terminate].find? fun s => (s.number : Int) = n

def name : Signal → String
  | .interrupt => "SIGINT"
  | .quit => "SIGQUIT"
  | .terminate => "SIGTERM"

def ofName? (name : String) : Option Signal :=
  [interrupt, quit, terminate].find? (·.name = name)

/-- The name of the signal with a number; signals that are not handled have none of
their own. -/
def nameOf (n : Int) : String := ((ofNumber? n).map name).getD "signal"

end Signal

/-- What a signal does to a process. -/
inductive Disposition where
  | die
  | ignore
  | caught
deriving DecidableEq, Repr

/-- What each of the three signals does. -/
structure Dispositions where
  interrupt : Disposition := .die
  quit : Disposition := .die
  terminate : Disposition := .die
deriving DecidableEq, Repr

namespace Dispositions

/-- The same for all signals. -/
def all (d : Disposition) : Dispositions := ⟨d, d, d⟩

def of (d : Dispositions) : Signal → Disposition
  | .interrupt => d.interrupt
  | .quit => d.quit
  | .terminate => d.terminate

end Dispositions

/-- A handler of the three signals. -/
structure SignalHandler where
  running : Bool := false
  /-- Its thread has been told to stop; it stays told when started again. -/
  stopNotified : Bool := false
  /-- Signals caught that its thread has not read. -/
  unread : List Signal := []
  /-- How many signals its thread has read. -/
  received : Nat := 0
  /-- The signals for which it has called the shutdown callback. -/
  calls : List Signal := []
  /-- What the signals did before it took over. -/
  previous : Dispositions := {}
deriving DecidableEq, Repr

/-- How a process answers signals. -/
structure SignalTable where
  dispositions : Dispositions := {}
  /-- The position of the handler that is active. -/
  active : Option Nat := none
  /-- How many signals were caught since a handler was last started. -/
  count : Nat := 0
  handlers : List SignalHandler := []
deriving DecidableEq, Repr

/-- What has become of a process. -/
inductive Fate where
  | alive
  | exited (status : Nat)
  | killed (signal : Signal)
deriving DecidableEq, Repr

namespace SignalTable

variable (t : SignalTable)

/-- The status of a process that a second signal ended. -/
def forcedExitStatus : Nat := 2

def setHandler (i : Nat) (h : SignalHandler) : SignalTable :=
  { t with handlers := t.handlers.set i h }

/-- Starts the handler at a position, unless one is active. -/
def start (i : Nat) : Bool × SignalTable × Log.Journal :=
  match t.active, t.handlers[i]? with
  | none, some h =>
      let t := t.setHandler i { h with running := true, previous := t.dispositions }
      (true, { t with dispositions := .all .caught, active := some i, count := 0 },
        [Log.debug (text "Signal handler started")])
  | _, _ => (false, t, [Log.error (text "A signal handler is already active")])

/-- Stops the handler at a position, if it runs, and gives the signals back. -/
def stop (i : Nat) : SignalTable × Log.Journal :=
  match t.handlers[i]? with
  | none => (t, [])
  | some h =>
      if h.running then
        let t := t.setHandler i { h with running := false, stopNotified := true }
        ({ t with dispositions := h.previous, active := none },
          [Log.debug (text "Signal handler stopped")])
      else (t, [])

/-- A signal reaches the process. -/
def raise (signal : Signal) : Fate × SignalTable :=
  match t.dispositions.of signal with
  | .die => (.killed signal, t)
  | .ignore => (.alive, t)
  | .caught =>
      let t := { t with count := t.count + 1 }
      if 2 ≤ t.count then (.exited forcedExitStatus, t)
      else
        match t.active with
        | none => (.alive, t)
        | some i =>
            match t.handlers[i]? with
            | none => (.alive, t)
            | some h => (.alive, t.setHandler i { h with unread := h.unread ++ [signal] })

/-- The thread of the handler at a position reads one signal. `failure` is the error
that the shutdown callback throws, if it does. -/
def attend? (failure : Option Bytes) (i : Nat) : Option (SignalTable × Log.Journal) := do
  let h ← t.handlers[i]?
  if h.running && !h.stopNotified then
    match h.unread with
    | [] => none
    | signal :: unread =>
        let h := { h with unread, received := h.received + 1 }
        if h.received = 1 then
          some (t.setHandler i { h with calls := h.calls ++ [signal] },
            Log.info (text "Received " ++ text signal.name ++
              text ", shutting down (send again to force exit)") ::
            match failure with
            | some what => [Log.error (text "Shutdown callback failed: " ++ what)]
            | none => [])
        else
          some (t.setHandler i h, [Log.warning (text "Received " ++ text signal.name ++
            text " while shutting down")])
  else none

/-- A signal reaches the process and the active handler's thread deals with it. -/
def deliver (failure : Option Bytes) (signal : Signal) :
    Fate × SignalTable × Log.Journal :=
  match t.raise signal with
  | (.alive, t) =>
      match t.active.bind (t.attend? failure) with
      | some (t, journal) => (.alive, t, journal)
      | none => (.alive, t, [])
  | (fate, t) => (fate, t, [])

end SignalTable

end SearchDaemon
