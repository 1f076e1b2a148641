import SearchDaemon.Bytes

/-!
# File trees

A tree is a finite map from places to entries. A place is the list of names on
the way down from the root through real directories, so it names an entry
without links, repeated slashes or dots; the root itself is always there. Files,
links, pipes and sockets carry what the daemon can observe of them.

Main facts: `get?_put` and `get?_erase` say what the two edits do to the map.
-/

namespace SearchDaemon

/-- Why the system refuses an operation on a name. -/
inductive FileError where
  | noEntry
  | notDirectory
  | isDirectory
  | exists
  | tooManyLinks
  | nameTooLong
  | noSuchDevice
  | connectionRefused
  | addressInUse
  | permissionDenied
deriving DecidableEq, Repr

namespace FileError

def message : FileError → Bytes
  | .noEntry => text "No such file or directory"
  | .notDirectory => text "Not a directory"
  | .isDirectory => text "Is a directory"
  | .exists => text "File exists"
  | .tooManyLinks => text "Too many levels of symbolic links"
  | .nameTooLong => text "File name too long"
  | .noSuchDevice => text "No such device or address"
  | .connectionRefused => text "Connection refused"
  | .addressInUse => text "Address already in use"
  | .permissionDenied => text "Permission denied"

end FileError

/-- The names on the way from the root to an entry. -/
abbrev Place := List Bytes

/-- What a tree holds at a place. -/
inductive Entry where
  | file (mode : Nat) (data : Bytes)
  | directory (mode : Nat)
  /-- A symbolic link; its target is a path that need not lead anywhere. -/
  | link (target : Bytes)
  | fifo (mode : Nat)
  /-- A socket file, with the number of the socket bound there. -/
  | socket (mode : Nat) (number : Nat)
deriving DecidableEq, Repr

namespace Entry

def isDirectory : Entry → Bool
  | .directory _ => true
  | _ => false

/-- The permission bits; links have none of their own. -/
def mode? : Entry → Option Nat
  | .file mode _ => some mode
  | .directory mode => some mode
  | .link _ => none
  | .fifo mode => some mode
  | .socket mode _ => some mode

def withMode (mode : Nat) : Entry → Entry
  | .file _ data => .file mode data
  | .directory _ => .directory mode
  | .link target => .link target
  | .fifo _ => .fifo mode
  | .socket _ number => .socket mode number

end Entry

/-- The entries below the root, each at its place. -/
structure FileTree where
  entries : List (Place × Entry) := []
deriving Repr

namespace FileTree

/-- What stands at a place. The root is a directory without an entry of its own. -/
def get? (tree : FileTree) (place : Place) : Option Entry :=
  if place.isEmpty then some (.directory 0o755) else tree.entries.lookup place

/-- The tree with an entry put at a place, in place of what stood there. -/
def put (tree : FileTree) (place : Place) (entry : Entry) : FileTree :=
  ⟨(place, entry) :: tree.entries.filter (·.1 ≠ place)⟩

/-- The tree without the entry at a place. -/
def erase (tree : FileTree) (place : Place) : FileTree :=
  ⟨tree.entries.filter (·.1 ≠ place)⟩

def isDirectory (tree : FileTree) (place : Place) : Bool :=
  (tree.get? place).any (·.isDirectory)

/-- The names in a directory, with what they stand for. -/
def children (tree : FileTree) (place : Place) : List (Bytes × Entry) :=
  tree.entries.filterMap fun (spot, entry) =>
    match spot.getLast? with
    | some name => if spot.dropLast = place then some (name, entry) else none
    | none => none

/-- Every entry has a name and lies in a directory, and no place is listed twice. -/
structure WellFormed (tree : FileTree) : Prop where
  named : ∀ e ∈ tree.entries, e.1 ≠ []
  inDirectory : ∀ e ∈ tree.entries, tree.isDirectory e.1.dropLast = true
  distinct : (tree.entries.map Prod.fst).Nodup

/-- Two trees that show the same entries everywhere. -/
def Same (a b : FileTree) : Prop := ∀ place, a.get? place = b.get? place

theorem lookup_filter_ne {α β : Type} [BEq α] [LawfulBEq α] [DecidableEq α] (k q : α)
    (xs : List (α × β)) :
    (xs.filter (fun x => !decide (x.1 = k))).lookup q =
      if q = k then none else xs.lookup q := by
  induction xs with
  | nil => simp
  | cons x xs ih =>
      obtain ⟨a, b⟩ := x
      by_cases ha : a = k
      · subst ha
        by_cases hq : q = a
        · subst hq; simpa using ih
        · have hbeq : (q == a) = false := by simpa using hq
          simp [List.lookup_cons, ih, hq, hbeq]
      · by_cases hq : q = a
        · subst hq; simp [ha]
        · have hbeq : (q == a) = false := by simpa using hq
          simp [List.lookup_cons, ha, hbeq, ih]

theorem get?_put (tree : FileTree) (p : Place) (e : Entry) (q : Place) (hp : p ≠ []) :
    (tree.put p e).get? q = if q = p then some e else tree.get? q := by
  simp only [get?, put, List.isEmpty_iff]
  by_cases hq : q = []
  · subst hq; simp [Ne.symm hp]
  · by_cases hqp : q = p
    · subst hqp; simp [hq]
    · have hbeq : (q == p) = false := by simpa using hqp
      simp [hq, hqp, List.lookup_cons, hbeq, lookup_filter_ne]

theorem get?_erase (tree : FileTree) (p q : Place) (hp : p ≠ []) :
    (tree.erase p).get? q = if q = p then none else tree.get? q := by
  simp only [get?, erase, List.isEmpty_iff]
  by_cases hq : q = []
  · subst hq; simp [Ne.symm hp]
  · simp [hq, lookup_filter_ne]

end FileTree

end SearchDaemon
