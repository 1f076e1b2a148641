import SearchDaemon.FileTree.Edit

/-!
# Listings

A listing shows every entry below a directory, one line each: a letter for what
it is, its permission bits in octal, and its path from that directory. Links are
shown and not followed. A directory that its owner may not read stops it.
-/

namespace SearchDaemon

namespace Entry

/-- The letter of an entry in a listing. -/
def letter : Entry → UInt8
  | .file .. => 102
  | .directory _ => 100
  | .link _ => 108
  | .fifo _ => 112
  | .socket .. => 115

/-- A directory that its owner may not read. -/
def isUnreadable : Entry → Bool
  | .directory mode => mode &&& 0o400 = 0
  | _ => false

end Entry

/-- Four octal digits. -/
def octal4 (mode : Nat) : Bytes :=
  [mode / 512, mode / 64, mode / 8, mode].map fun n => UInt8.ofNat (48 + n % 8)

namespace FileTree

/-- Names joined by slashes. -/
def joinNames : List Bytes → Bytes
  | [] => []
  | [name] => name
  | name :: rest => name ++ 47 :: joinNames rest

/-- The entries below a directory with their paths from there, in bytewise order
of the paths. -/
def below (tree : FileTree) (dir : Place) : List (Bytes × Entry) :=
  let inside := tree.entries.filterMap fun (place, entry) =>
    if dir.isPrefixOf place && place.length != dir.length then
      some (joinNames (place.drop dir.length), entry)
    else none
  inside.mergeSort fun a b => a.1.before b.1

/-- The lines of a listing of a directory. -/
def listing (tree : FileTree) (dir : Place) : Except FileError (List Bytes) :=
  let found := tree.below dir
  if found.any (·.2.isUnreadable) then .error .permissionDenied
  else .ok <| found.map fun (path, entry) =>
    entry.letter :: 32 :: ((entry.mode?.map octal4).getD (text "-") ++ 32 :: path)

end FileTree

end SearchDaemon
