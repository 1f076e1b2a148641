import SearchDaemon.Daemon
import SearchDaemon.Numeral

/-!
# The command line

The arguments fall into settings: flags, options with a value, and at most one
command. They are read from the left and the first thing that is wrong, or a wish
for help, ends the reading. A later setting of an option replaces an earlier one.
-/

namespace SearchDaemon

/-- What a command is to go by. -/
structure Options where
  config : Config := {}
  force : Bool := false
  foreground : Bool := false
  /-- How many seconds to wait for a daemon to end. -/
  timeout : Nat := 10
  /-- Empty for the default. -/
  logFile : Bytes := []
  logLevel : Log.Level := .info
deriving DecidableEq, Repr

namespace CommandLine

/-- One group of arguments. -/
inductive Setting where
  | force
  | foreground
  | timeout (seconds : Nat)
  | workers (n : Nat)
  | socket (path : Bytes)
  | pidFile (path : Bytes)
  | logLevel (level : Log.Level)
  | logFile (path : Bytes)
  | command (name : Bytes)
deriving DecidableEq, Repr

/-- Why reading the arguments ended before the last. -/
inductive Interruption where
  | help
  | unknownOption (arg : Bytes)
  | invalid (what : Bytes)
deriving DecidableEq, Repr

/-- The options that take a value. -/
inductive Valued where
  | timeout
  | workers
  | socket
  | pidFile
  | logLevel
  | logFile
deriving DecidableEq, Repr

def Valued.ofArg? (arg : Bytes) : Option Valued :=
  [("--timeout", Valued.timeout), ("--workers", .workers), ("--socket", .socket),
    ("--pid-file", .pidFile), ("--log-level", .logLevel), ("--log-file", .logFile)].findSome?
    fun (name, v) => if arg = text name then some v else none

/-- The number a value stands for, if it fits 32 bits. -/
def number (value : Bytes) : Except Interruption Int :=
  match (Numeral.leading? value).filter (Numeral.fits 32) with
  | some n => .ok n
  | none => .error (.invalid (text "stoi"))

/-- What an option with its value sets. -/
def Valued.read (option : Valued) (value : Bytes) : Except Interruption Setting :=
  match option with
  | .timeout => do
      let n ← number value
      if n < 0 then .error (.invalid (text "negative timeout")) else .ok (.timeout n.toNat)
  | .workers => do
      let n ← number value
      if n < 1 then .error (.invalid (text "need at least one worker"))
      else .ok (.workers n.toNat)
  | .socket => .ok (.socket value)
  | .pidFile => .ok (.pidFile value)
  | .logLevel =>
      match Log.Level.ofName? value with
      | some level => .ok (.logLevel level)
      | none => .error (.invalid (text "unknown log level '" ++ value ++ text "'"))
  | .logFile => .ok (.logFile value)

/-- A setting that needs no value. -/
def flag? (arg : Bytes) : Option Setting :=
  if arg = text "-f" ∨ arg = text "--force" then some .force
  else if arg = text "--foreground" then some .foreground
  else none

/-- An argument that can be a command. -/
def isWord (arg : Bytes) : Bool := !arg.isEmpty && arg.head? ≠ some 45

/-- What an argument without a value of its own sets. -/
def plain (hasCommand : Bool) (arg : Bytes) : Except Interruption Setting :=
  if arg = text "--help" ∨ arg = text "-h" then .error .help
  else
    match flag? arg with
    | some setting => .ok setting
    | none =>
        if !hasCommand && isWord arg then .ok (.command arg) else .error (.unknownOption arg)

def Setting.isCommand : Setting → Bool
  | .command _ => true
  | _ => false

/-- Reads arguments into settings; `hasCommand` says that the command has been read. -/
def settings (hasCommand : Bool) : List Bytes → Except Interruption (List Setting)
  | [] => .ok []
  | [arg] => do
      let setting ← plain hasCommand arg
      .ok [setting]
  | arg :: value :: rest =>
      match Valued.ofArg? arg with
      | some option => do
          let setting ← option.read value
          let later ← settings hasCommand rest
          .ok (setting :: later)
      | none => do
          let setting ← plain hasCommand arg
          let later ← settings (hasCommand || setting.isCommand) (value :: rest)
          .ok (setting :: later)

/-- A command and what it is to go by. -/
structure Order where
  command : Bytes := []
  options : Options := {}
deriving DecidableEq, Repr

/-- Makes one setting. -/
def Order.set (o : Order) : Setting → Order
  | .force => { o with options := { o.options with force := true } }
  | .foreground => { o with options := { o.options with foreground := true } }
  | .timeout seconds => { o with options := { o.options with timeout := seconds } }
  | .workers n =>
      { o with options := { o.options with config := { o.options.config with workers := n } } }
  | .socket path =>
      { o with options :=
          { o.options with config := { o.options.config with socketPath := path } } }
  | .pidFile path =>
      { o with options := { o.options with config := { o.options.config with pidFile := path } } }
  | .logLevel level => { o with options := { o.options with logLevel := level } }
  | .logFile path => { o with options := { o.options with logFile := path } }
  | .command name => { o with command := name }

/-- What the arguments ask for. -/
def parse (args : List Bytes) : Except Interruption Order := do
  let settings ← settings false args
  .ok (settings.foldl Order.set {})

/-- How the program is to be called. -/
def usage (program : Bytes) : Bytes :=
  text "Usage: " ++ program ++ text (" <command> [options]\n" ++
    "Commands:\n" ++
    "  start                Start the daemon\n" ++
    "  stop                 Stop the running daemon\n" ++
    "  restart              Stop, then start the daemon\n" ++
    "  status               Show whether the daemon is running\n" ++
    "Options:\n" ++
    "  -f, --force          start: remove leftover socket/pid files\n" ++
    "                       stop: force immediate exit\n" ++
    "  --foreground         Do not detach (start)\n" ++
    "  --timeout SECS       Seconds to wait for the daemon to exit (default: 10)\n" ++
    "  --workers N          Number of request workers (default: 8)\n" ++
    "  --socket PATH        Socket path (default: ~/.insh/daemon/inshd.sock)\n" ++
    "  --pid-file PATH      Pid file (default: ~/.insh/inshd.pid)\n" ++
    "  --log-level LEVEL    debug, info, warn or error (default: info)\n" ++
    "  --log-file PATH      Log file (default: ~/.insh/daemon/logs/inshd.log when detached)\n" ++
    "  --help               Show this help message\n")

end CommandLine

end SearchDaemon
