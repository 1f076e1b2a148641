import SearchDaemon.Bytes

/-!
# Where the daemon keeps its files

All of the daemon's files have default places below a directory `.insh` in the
user's home, which is what the environment says, or what the password file says
if the environment says nothing. If the password file does not know the user either,
there is no default place.
-/

namespace SearchDaemon

/-- What is known about the user's home. -/
structure Home where
  /-- What the environment says; it may be missing or empty. -/
  environment : Option Bytes := none
  /-- What the password file says, if the user is in it. -/
  passwordFile : Option Bytes := some []
deriving DecidableEq, Repr

namespace Home

/-- The home directory itself, if there is one, up to the first zero byte. -/
def directory? (h : Home) : Option Bytes :=
  match h.environment.map Bytes.untilZero with
  | none | some [] => h.passwordFile
  | some path => some path

/-- The objection to a default place where no home directory is known. -/
def unknown : Bytes := text "Cannot determine home directory"

def directory (h : Home) : Bytes := h.directory?.getD []

def root (h : Home) : Bytes := h.directory ++ text "/.insh"
def daemon (h : Home) : Bytes := h.root ++ text "/daemon"
def logs (h : Home) : Bytes := h.daemon ++ text "/logs"
def pidFile (h : Home) : Bytes := h.root ++ text "/inshd.pid"
def socket (h : Home) : Bytes := h.daemon ++ text "/inshd.sock"
def logFile (h : Home) : Bytes := h.logs ++ text "/inshd.log"

end Home

/-- The given path, or a default if it is empty. -/
def orDefault (path default : Bytes) : Bytes := if path.isEmpty then default else path

/-- The path up to its last slash: a dot if there is none, the root if it is the first
byte. -/
def parentDirectory (path : Bytes) : Bytes :=
  if (47 : UInt8) ∈ path then
    let parent := (path.reverse.dropWhile (· ≠ 47)).tail.reverse
    if parent.isEmpty then [47] else parent
  else [46]

end SearchDaemon
