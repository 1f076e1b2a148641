import SearchDaemon.Proofs.ForegroundStart

/-!
# Where the lines of a log end up

A log is given thresholds, files and lines in any order. Its calls make files and add data to
files, and nothing else. So they never change which paths can be opened: where a line goes
follows from the calls before it and from the tree that the log found.

The invariant of a run is `Follows`. It is kept by each call, and the lines and outputs of a
run are those of its calls in order.
-/

namespace SearchDaemon

/-! ## Trees that differ in files only -/

namespace FileTree

variable {tree tree' : FileTree} {v : Vantage} {path name : Bytes} {mode : Nat}
  {dir place : Place} {entry : Entry}

/-- Nothing is here, or a file. -/
def IsFileOrFree (here : Option Entry) : Prop :=
  ∀ entry, here = some entry → ∃ bits data, entry = .file bits data

/-- The trees show the same but for files, which can be in one of them only or hold other
data. -/
def SameButFiles (tree tree' : FileTree) : Prop :=
  ∀ spot, tree'.get? spot = tree.get? spot ∨
    IsFileOrFree (tree.get? spot) ∧ IsFileOrFree (tree'.get? spot)

theorem SameButFiles.symm (h : SameButFiles tree tree') : SameButFiles tree' tree :=
  fun spot => (h spot).imp Eq.symm And.symm

theorem SameButFiles.passes (h : SameButFiles tree tree') : Passes tree tree' := by
  constructor
  · intro spot bits hentry
    rcases h spot with hsame | ⟨hloose, -⟩
    · exact ⟨bits, hsame.trans hentry⟩
    · obtain ⟨_, _, hfile⟩ := hloose _ hentry
      cases hfile
  · intro spot goal hentry
    rcases h spot with hsame | ⟨hloose, -⟩
    · exact hsame.trans hentry
    · obtain ⟨_, _, hfile⟩ := hloose _ hentry
      cases hfile

theorem openForWriting_free (hslash : (PathText.parse path).trailingSlash = false)
    (h : tree.Reaches v.cwd true path false (.free dir name false)) :
    tree.openForWriting v path mode =
      .ok (tree.put (dir ++ [name]) (.file (v.newMode mode) []), dir ++ [name]) := by
  rw [← hslash] at h
  rw [openForWriting, locate_eq_ok.mpr h, hslash]
  rfl

theorem openForWriting_found (hslash : (PathText.parse path).trailingSlash = false)
    (h : tree.Reaches v.cwd true path false (.found place entry))
    (notDirectory : entry.isDirectory = false)
    (notSocket : ∀ bits number, entry ≠ .socket bits number) :
    tree.openForWriting v path mode = .ok (tree, place) := by
  rw [← hslash] at h
  rw [openForWriting, locate_eq_ok.mpr h]
  show (if (PathText.parse path).trailingSlash then _ else _) = _
  rw [hslash, if_neg Bool.false_ne_true]
  cases entry with
  | directory => contradiction
  | socket bits number => exact absurd rfl (notSocket bits number)
  | _ => rfl

/-- A path that can be opened in a tree can be opened, at the same place, in one that differs
in files only. -/
theorem SameButFiles.openForWriting (h : SameButFiles tree tree') (rooted : tree.Rooted)
    (start : tree.isDirectory v.cwd = true) {opened : FileTree}
    (hopen : tree.openForWriting v path mode = .ok (opened, place)) :
    ∃ opened', tree'.openForWriting v path mode = .ok (opened', place) := by
  obtain ⟨hslash, ⟨dir, name, ⟨hcheck, hleads⟩, rfl, -⟩ |
    ⟨entry, ⟨hcheck, hleads⟩, -, hdirectory, hsocket⟩⟩ := openForWriting_cases hopen
  · have hfree := hleads.get?_free.2
    cases hafter : tree'.get? (dir ++ [name]) with
    | none => exact ⟨_, openForWriting_free hslash ⟨hcheck, hleads.still_free h.passes hafter⟩⟩
    | some entry =>
        rcases h (dir ++ [name]) with hsame | ⟨-, hloose⟩
        · rw [hafter, hfree] at hsame
          contradiction
        · obtain ⟨bits, data, rfl⟩ := hloose _ hafter
          exact ⟨_, openForWriting_found hslash
            ⟨hcheck, hleads.appears h.passes hafter rfl⟩ rfl nofun⟩
  · have hentry := hleads.get?_found
    rcases h place with hsame | ⟨hloose, hloose'⟩
    · obtain ⟨entry', hleads'⟩ := hleads.found_again h.passes
        fun hplain => ⟨entry, hsame.trans hentry, hplain⟩
      cases hleads'.get?_found.symm.trans (hsame.trans hentry)
      exact ⟨_, openForWriting_found hslash ⟨hcheck, hleads'⟩ hdirectory hsocket⟩
    · obtain ⟨bits, data, rfl⟩ := hloose _ hentry
      cases hafter : tree'.get? place with
      | none =>
          obtain ⟨last, name, rfl, hfree⟩ :=
            hleads.free_again h.passes rooted (isDirectory_cwd start) rfl hafter
          exact ⟨_, openForWriting_free hslash ⟨hcheck, hfree⟩⟩
      | some entry' =>
          obtain ⟨bits', data', rfl⟩ := hloose' _ hafter
          obtain ⟨entry'', hleads'⟩ := hleads.found_again h.passes fun _ => ⟨_, hafter, rfl⟩
          cases hleads'.get?_found.symm.trans hafter
          exact ⟨_, openForWriting_found hslash ⟨hcheck, hleads'⟩ rfl nofun⟩

/-- Opening makes an empty file where nothing is. -/
theorem get?_openForWriting {opened : FileTree}
    (h : tree.openForWriting v path mode = .ok (opened, place)) (spot : Place) :
    opened.get? spot = if spot = place then
      (tree.get? spot).or (some (.file (v.newMode mode) [])) else tree.get? spot := by
  obtain ⟨-, ⟨dir, name, ⟨-, hleads⟩, rfl, rfl⟩ | ⟨entry, ⟨-, hleads⟩, rfl, -⟩⟩ :=
    openForWriting_cases h
  · rw [get?_put _ _ _ _ (by simp)]
    split
    · rename_i hspot
      rw [hspot, hleads.get?_free.2, Option.none_or]
    · rfl
  · split
    · rename_i hspot
      rw [hspot, hleads.get?_found, Option.some_or]
    · rfl

/-- With links followed, no walk ends at a link. -/
theorem Leads.not_link {links : Nat} {names : List Bytes} {slash : Bool} {goal : Bytes}
    (h : Leads tree true links dir names slash (.found place (.link goal)))
    (rooted : tree.Rooted) (start : tree.isDirectory dir = true) : False := by
  generalize htarget : Target.found place (.link goal) = target at h
  induction h with
  | here hentry =>
      cases htarget
      obtain ⟨mode, hdirectory⟩ := isDirectory_iff.mp start
      rw [hdirectory] at hentry
      cases hentry
  | stay _ ih => exact ih start htarget
  | up _ ih =>
      obtain ⟨mode, hdirectory⟩ := isDirectory_iff.mp start
      exact ih (rooted _ _ hdirectory) htarget
  | free => contradiction
  | plain _ _ hplain =>
      cases htarget
      contradiction
  | into _ hentry _ ih => exact ih (isDirectory_iff.mpr ⟨_, hentry⟩) htarget
  | link _ _ hfollow => contradiction
  | through _ _ _ _ ih => exact ih (isDirectory_origin start) htarget

/-- What is opened is free before, or a file or a pipe. -/
theorem opened_kinds {opened : FileTree}
    (h : tree.openForWriting v path mode = .ok (opened, place)) (rooted : tree.Rooted)
    (start : tree.isDirectory v.cwd = true) :
    tree.get? place = none ∨ (∃ bits data, tree.get? place = some (.file bits data)) ∨
      ∃ bits, tree.get? place = some (.fifo bits) := by
  obtain ⟨-, ⟨dir, name, ⟨-, hleads⟩, rfl, -⟩ | ⟨entry, ⟨-, hleads⟩, -, hdirectory, hsocket⟩⟩ :=
    openForWriting_cases h
  · exact Or.inl hleads.get?_free.2
  · have hentry := hleads.get?_found
    cases entry with
    | file bits data => exact Or.inr (Or.inl ⟨bits, data, hentry⟩)
    | fifo bits => exact Or.inr (Or.inr ⟨bits, hentry⟩)
    | directory => contradiction
    | socket bits number => exact absurd rfl (hsocket bits number)
    | link => exact (hleads.not_link rooted (isDirectory_cwd start)).elim

end FileTree

namespace Log

/-! ## Calls and what they ask for -/

/-- What a program asks of its log. -/
inductive Call where
  | threshold (level : Level)
  | redirect (path : Bytes)
  | write (line : Line)
deriving DecidableEq, Repr

/-- Where lines go. -/
inductive Output where
  | printed
  | file (place : Place)
deriving DecidableEq, Repr

@[simp]
def Call.level? : Call → Option Level
  | .threshold level => some level
  | _ => none

/-- The level that is set after some calls. -/
def levelAfter (first : Level) (calls : List Call) : Level :=
  (calls.filterMap Call.level?).getLast?.getD first

variable (tree : FileTree) (v : Vantage)

/-- What a path stands for as an output: its file if it can be opened, else the standard
output. -/
def outputFor (path : Bytes) : Output :=
  match tree.openForWriting v path 0o666 with
  | .ok (_, place) => .file place
  | .error _ => .printed

@[simp]
def Call.output? : Call → Option Output
  | .redirect path => some (outputFor tree v path)
  | _ => none

/-- The outputs that some calls select, one after the other. -/
def outputs (calls : List Call) : List Output := calls.filterMap (Call.output? tree v)

/-- The output that is selected after some calls. -/
def outputAfter (calls : List Call) : Output := (outputs tree v calls).getLast?.getD .printed

/-- The line that a call sends to an output after some calls: a line of at least the level
that is set, if the output is the selected one. -/
@[simp]
def Call.sent? (first : Level) (before : List Call) (out : Output) : Call → Option Line
  | .write line =>
      if (levelAfter first before).rank ≤ line.level.rank ∧ outputAfter tree v before = out then
        some line
      else none
  | _ => none

/-- The lines that some calls send to an output, in the order of the calls. -/
def sentTo (first : Level) (calls : List Call) (out : Output) : Journal :=
  calls.zipIdx.filterMap fun (call, i) => call.sent? tree v first (calls.take i) out

/-- Lines as they are written: each has its level in brackets, its message and a line end. -/
def written (journal : Journal) : Bytes :=
  journal.flatMap fun line => text "[" ++ line.level.tag ++ text "] " ++ line.message ++ [10]

variable {tree v} {first : Level} {calls : List Call} {c : Call} {out : Output}
  {place : Place} {path : Bytes}

@[simp]
theorem written_append (journal more : Journal) :
    written (journal ++ more) = written journal ++ written more := List.flatMap_append

theorem written_singleton (line : Line) : written [line] = line.render ++ [10] := by
  have hbracket : text "[" = [91] := rfl
  simp [written, Line.render, hbracket]

@[simp]
theorem levelAfter_snoc :
    levelAfter first (calls ++ [c]) = c.level?.getD (levelAfter first calls) := by
  unfold levelAfter
  cases c <;> simp [Call.level?]

@[simp]
theorem outputs_snoc :
    outputs tree v (calls ++ [c]) = outputs tree v calls ++ (c.output? tree v).toList := by
  unfold outputs
  rw [List.filterMap_append]
  cases c <;> rfl

@[simp]
theorem outputAfter_snoc :
    outputAfter tree v (calls ++ [c]) =
      (c.output? tree v).getD (outputAfter tree v calls) := by
  unfold outputAfter
  rw [outputs_snoc]
  cases c <;> simp [Call.output?]

@[simp]
theorem sentTo_snoc :
    sentTo tree v first (calls ++ [c]) out =
      sentTo tree v first calls out ++ (c.sent? tree v first calls out).toList := by
  have hbefore : ∀ x ∈ calls.zipIdx,
      x.1.sent? tree v first ((calls ++ [c]).take x.2) out =
        x.1.sent? tree v first (calls.take x.2) out := by
    intro x hx
    have hlt := List.snd_lt_of_mem_zipIdx hx
    rw [List.take_append_of_le_length (by omega)]
  unfold sentTo
  rw [List.zipIdx_append, List.filterMap_append, List.filterMap_congr hbefore]
  congr 1
  have hwhole : (calls ++ [c]).take (0 + calls.length) = calls := by simp
  simp only [List.zipIdx_cons, List.zipIdx_nil, hwhole, List.filterMap_cons, List.filterMap_nil]
  cases c.sent? tree v first calls out <;> rfl

/-- A line is written as it passes the threshold, if the output is the selected one. -/
theorem written_sent (line : Line) :
    written ((Call.write line).sent? tree v first calls out).toList =
      if outputAfter tree v calls = out then rendered (levelAfter first calls) [line] else [] := by
  rw [rendered_singleton]
  by_cases hselected : outputAfter tree v calls = out
  · by_cases hbelow : line.level.rank < (levelAfter first calls).rank
    · simp [hselected, hbelow, written]
    · simp [hselected, hbelow, Int.not_lt.mp hbelow, written_singleton]
  · simp [hselected, written]

theorem mem_outputs_of_outputAfter (h : outputAfter tree v calls = .file place) :
    .file place ∈ outputs tree v calls := by
  unfold outputAfter at h
  cases hlast : (outputs tree v calls).getLast? with
  | none =>
      rw [hlast] at h
      contradiction
  | some out =>
      rw [hlast, Option.getD_some] at h
      subst h
      exact List.mem_of_getLast? hlast

/-- No lines are sent to a file that has not been opened. -/
theorem sentTo_unopened (unopened : Output.file place ∉ outputs tree v calls) :
    sentTo tree v first calls (.file place) = [] := by
  induction calls using List.reverseRecOn with
  | nil => rfl
  | append_singleton calls c ih =>
      rw [outputs_snoc, List.mem_append, not_or] at unopened
      have hselected : outputAfter tree v calls ≠ .file place :=
        fun h => unopened.1 (mem_outputs_of_outputAfter h)
      rw [sentTo_snoc, ih unopened.1]
      cases c with
      | write line => simp [Call.sent?, hselected]
      | threshold | redirect => rfl

theorem outputFor_eq_file : outputFor tree v path = .file place ↔
    ∃ opened, tree.openForWriting v path 0o666 = .ok (opened, place) := by
  unfold outputFor
  cases tree.openForWriting v path 0o666 with
  | ok opened =>
      obtain ⟨tree', place'⟩ := opened
      simp
  | error e => simp

/-- What can be opened does not depend on files. -/
theorem outputFor_congr {tree' : FileTree} (h : tree.SameButFiles tree') (rooted : tree.Rooted)
    (rooted' : tree'.Rooted) (start : tree.isDirectory v.cwd = true) :
    outputFor tree' v path = outputFor tree v path := by
  have hfiles : ∀ place,
      outputFor tree' v path = .file place ↔ outputFor tree v path = .file place := by
    intro place
    rw [outputFor_eq_file, outputFor_eq_file]
    constructor
    · rintro ⟨opened, hopen⟩
      exact h.symm.openForWriting rooted' (h.passes.isDirectory start) hopen
    · rintro ⟨opened, hopen⟩
      exact h.openForWriting rooted start hopen
  cases hbefore : outputFor tree v path with
  | file place => exact (hfiles place).mpr hbefore
  | printed =>
      cases hafter : outputFor tree' v path with
      | printed => rfl
      | file place =>
          rw [(hfiles place).mp hafter] at hbefore
          contradiction

/-! ## One call -/

namespace Routing

/-- What a log does about a call. -/
def call (v : Vantage) (r : Routing) : Call → Routing
  | .threshold level => { r with threshold := level }
  | .redirect path => (r.redirect v path).2
  | .write line => r.write line

/-- The log after some calls. -/
def run (v : Vantage) (r : Routing) (calls : List Call) : Routing := calls.foldl (call v) r

theorem run_snoc (r : Routing) : r.run v (calls ++ [c]) = (r.run v calls).call v c := by
  rw [run, List.foldl_append]
  rfl

theorem printed_write (r : Routing) (line : Line) :
    (r.write line).printed =
      if r.file = none then r.printed ++ rendered r.threshold [line] else r.printed := by
  unfold write
  rw [rendered_singleton]
  by_cases hbelow : line.level.rank < r.threshold.rank
  · simp [hbelow]
  · rw [if_neg hbelow, if_neg hbelow]
    cases r.file <;> rfl

theorem rooted_write {r : Routing} (rooted : r.tree.Rooted) (line : Line) :
    (r.write line).tree.Rooted := by
  have hdirectory : ∀ place, r.tree.isDirectory place = true →
      (r.write line).tree.isDirectory place = true := by
    intro place hplace
    obtain ⟨mode, hentry⟩ := FileTree.isDirectory_iff.mp hplace
    refine FileTree.isDirectory_iff.mpr ⟨mode, ?_⟩
    rw [get?_write, hentry]
    exact ite_self _
  intro spot entry hentry
  rw [get?_write] at hentry
  cases hthere : r.tree.get? spot with
  | some old => exact hdirectory _ (rooted _ _ hthere)
  | none =>
      rw [hthere] at hentry
      split at hentry <;> contradiction

theorem redirect_ok {r : Routing} {tree' : FileTree}
    (h : r.tree.openForWriting v path 0o666 = .ok (tree', place)) :
    r.redirect v path = (true, { r with tree := tree', file := some place }) := by
  rw [redirect, h]

theorem redirect_error {r : Routing} {e : FileError}
    (h : r.tree.openForWriting v path 0o666 = .error e) :
    r.redirect v path = (false, { r with file := none }) := by
  rw [redirect, h]

theorem redirect_answer (r : Routing) :
    (r.redirect v path).1 = true ↔ ∃ place, outputFor r.tree v path = .file place := by
  unfold redirect outputFor
  cases r.tree.openForWriting v path 0o666 <;> simp

/-- What has become of a log and its files after some calls, told from the calls and from the
tree that the log found. -/
structure Follows (tree : FileTree) (v : Vantage) (first : Level) (before : Bytes)
    (calls : List Call) (r : Routing) : Prop where
  rooted : r.tree.Rooted
  threshold : r.threshold = levelAfter first calls
  file : ∀ place, r.file = some place ↔ outputAfter tree v calls = .file place
  printed : r.printed = before ++ written (sentTo tree v first calls .printed)
  get? : ∀ spot, r.tree.get? spot =
    ((tree.get? spot).or
      (if .file spot ∈ outputs tree v calls then some (.file (v.newMode 0o666) []) else none)).map
        (·.appended (written (sentTo tree v first calls (.file spot))))

namespace Follows

variable {before : Bytes} {r : Routing}

theorem start (rooted : tree.Rooted) :
    Follows tree v first before [] { threshold := first, tree, printed := before } where
  rooted
  threshold := rfl
  file _ := by simp [outputAfter, outputs]
  printed := by simp [sentTo, written]
  get? spot := by simp [sentTo, written, outputs]

theorem file_eq_none (h : Follows tree v first before calls r) :
    r.file = none ↔ outputAfter tree v calls = .printed := by
  cases hselects : outputAfter tree v calls with
  | printed =>
      have hnot : ∀ place, r.file ≠ some place := by
        intro place hplace
        rw [(h.file place).mp hplace] at hselects
        contradiction
      exact iff_of_true (Option.eq_none_iff_forall_ne_some.mpr hnot) rfl
  | file place =>
      rw [(h.file place).mpr hselects]
      exact iff_of_false nofun nofun

theorem sameButFiles (h : Follows tree v first before calls r) : tree.SameButFiles r.tree := by
  intro spot
  rw [h.get? spot]
  cases hentry : tree.get? spot with
  | none =>
      refine Or.inr ⟨nofun, fun entry hnew => ?_⟩
      rw [Option.none_or] at hnew
      split at hnew
      · cases hnew
        exact ⟨_, _, rfl⟩
      · contradiction
  | some entry =>
      cases entry with
      | file bits data =>
          right
          constructor
          · rintro _ ⟨⟩
            exact ⟨_, _, rfl⟩
          · rintro _ ⟨⟩
            exact ⟨_, _, rfl⟩
      | _ => exact Or.inl rfl

theorem outputFor_eq (h : Follows tree v first before calls r) (rooted : tree.Rooted)
    (workplace : tree.isDirectory v.cwd = true) (path : Bytes) :
    outputFor r.tree v path = outputFor tree v path :=
  outputFor_congr h.sameButFiles rooted h.rooted workplace

theorem call_threshold (h : Follows tree v first before calls r) (level : Level) :
    Follows tree v first before (calls ++ [.threshold level])
      (r.call v (.threshold level)) where
  rooted := h.rooted
  threshold := by simp [call]
  file place := by simpa [call] using h.file place
  printed := by simpa [call] using h.printed
  get? spot := by simpa [call] using h.get? spot

theorem call_redirect (h : Follows tree v first before calls r) (rooted : tree.Rooted)
    (workplace : tree.isDirectory v.cwd = true) (path : Bytes) :
    Follows tree v first before (calls ++ [.redirect path]) (r.call v (.redirect path)) := by
  have hsame := h.outputFor_eq rooted workplace path
  have hthreshold : r.threshold = levelAfter first (calls ++ [.redirect path]) := by
    simpa using h.threshold
  have hprinted : r.printed = before ++
      written (sentTo tree v first (calls ++ [.redirect path]) .printed) := by
    simpa using h.printed
  rw [call]
  cases hopen : r.tree.openForWriting v path 0o666 with
  | error e =>
      have hselects : outputFor tree v path = .printed := by
        rw [← hsame, outputFor, hopen]
      rw [redirect_error hopen]
      refine ⟨h.rooted, hthreshold, fun place => ?_, hprinted, fun spot => ?_⟩
      · simp [hselects]
      · simpa [hselects] using h.get? spot
  | ok opened =>
      obtain ⟨tree', place⟩ := opened
      have hselects : outputFor tree v path = .file place := by
        rw [← hsame, outputFor, hopen]
      have hopened := FileTree.opened_openForWriting hopen h.rooted
        (h.sameButFiles.passes.isDirectory workplace)
      rw [redirect_ok hopen]
      refine ⟨hopened.rooted, hthreshold, fun place' => ?_, hprinted, fun spot => ?_⟩
      · simp [hselects]
      · dsimp only
        rw [FileTree.get?_openForWriting hopen, h.get? spot]
        by_cases hspot : spot = place
        · subst hspot
          cases hthere : tree.get? spot with
          | some entry => simp
          | none =>
              by_cases hbefore : .file spot ∈ outputs tree v calls
              · simp [hbefore]
              -- The file is new, and nothing has been sent to it.
              · simp [hselects, hbefore, sentTo_unopened hbefore, written]
        · simp [hselects, hspot]

theorem call_write (h : Follows tree v first before calls r) (line : Line) :
    Follows tree v first before (calls ++ [.write line]) (r.call v (.write line)) := by
  obtain ⟨hfile, hthreshold⟩ := write_frame r line
  rw [call]
  refine ⟨rooted_write h.rooted line, ?_, ?_, ?_, fun spot => ?_⟩
  · simp [hthreshold, h.threshold]
  · simp [hfile, h.file]
  · rw [printed_write, h.printed, h.threshold, sentTo_snoc, written_append, written_sent]
    by_cases hselected : outputAfter tree v calls = .printed
    · rw [if_pos (h.file_eq_none.mpr hselected), if_pos hselected, List.append_assoc]
    · rw [if_neg (mt h.file_eq_none.mp hselected), if_neg hselected, List.append_nil]
  · rw [get?_write, h.get? spot, h.threshold, sentTo_snoc, written_append, written_sent]
    by_cases hselected : outputAfter tree v calls = .file spot
    · rw [if_pos ((h.file spot).mpr hselected), if_pos hselected, Option.map_map]
      simp [Function.comp_def]
    · rw [if_neg (mt (h.file spot).mp hselected), if_neg hselected]
      simp

end Follows

/-- The log after some calls, if it starts without a file. -/
def after (tree : FileTree) (v : Vantage) (first : Level) (before : Bytes) (calls : List Call) :
    Routing :=
  run v { threshold := first, tree, printed := before } calls

theorem follows_after (first : Level) (before : Bytes) (rooted : tree.Rooted)
    (workplace : tree.isDirectory v.cwd = true) (calls : List Call) :
    Follows tree v first before calls (after tree v first before calls) := by
  induction calls using List.reverseRecOn with
  | nil => exact .start rooted
  | append_singleton calls c ih =>
      rw [after, run_snoc, ← after]
      cases c with
      | threshold level => exact ih.call_threshold level
      | redirect path => exact ih.call_redirect rooted workplace path
      | write line => exact ih.call_write line

/-! ## Whole runs -/

section

variable {before : Bytes} {r : Routing}

/-- A file that has been selected is there. -/
theorem Follows.opened (h : Follows tree v first before calls r)
    (opened : .file place ∈ outputs tree v calls) (rooted : tree.Rooted)
    (workplace : tree.isDirectory v.cwd = true) :
    (∃ bits, tree.get? place = some (.fifo bits) ∧ r.tree.get? place = some (.fifo bits)) ∨
      ∃ bits old,
        (tree.get? place = some (.file bits old) ∨
          tree.get? place = none ∧ bits = v.newMode 0o666 ∧ old = []) ∧
        r.tree.get? place =
          some (.file bits (old ++ written (sentTo tree v first calls (.file place)))) := by
  obtain ⟨c, -, hc⟩ := List.mem_filterMap.mp opened
  cases c with
  | threshold | write => contradiction
  | redirect path =>
      obtain ⟨tree', hopen⟩ := outputFor_eq_file.mp (Option.some.inj hc)
      have hentry := h.get? place
      rw [if_pos opened] at hentry
      rcases FileTree.opened_kinds hopen rooted workplace with
        hnone | ⟨bits, old, hfile⟩ | ⟨bits, hfifo⟩
      · rw [hnone] at hentry
        exact Or.inr ⟨_, _, Or.inr ⟨hnone, rfl, rfl⟩, hentry⟩
      · rw [hfile] at hentry
        exact Or.inr ⟨_, _, Or.inl hfile, hentry⟩
      · rw [hfifo] at hentry
        exact Or.inl ⟨_, hfifo, hentry⟩

/-- What has not been selected is left as it was. -/
theorem Follows.unopened (h : Follows tree v first before calls r)
    (unopened : .file place ∉ outputs tree v calls) :
    r.tree.get? place = tree.get? place := by
  rw [h.get? place, sentTo_unopened unopened]
  simp [unopened, written]

/-- A path that has been opened leads to its file. -/
theorem Follows.leads (h : Follows tree v first before calls r)
    (opened : .redirect path ∈ calls) (selects : outputFor tree v path = .file place)
    (rooted : tree.Rooted) (workplace : tree.isDirectory v.cwd = true) :
    ∃ entry, r.tree.stat v.cwd path = .ok (place, entry) := by
  have hopened : .file place ∈ outputs tree v calls :=
    List.mem_filterMap.mpr ⟨_, opened, congrArg some selects⟩
  obtain ⟨tree', hopen⟩ :=
    outputFor_eq_file.mp ((h.outputFor_eq rooted workplace path).trans selects)
  obtain ⟨hslash, ⟨dir, name, hreaches, rfl, -⟩ | ⟨entry, hreaches, -⟩⟩ :=
    FileTree.openForWriting_cases hopen
  -- The name cannot be free, since the file has been made.
  · have hfree := hreaches.2.get?_free.2
    rcases h.opened hopened rooted workplace with ⟨bits, -, hthere⟩ | ⟨bits, old, -, hthere⟩
    · exact absurd (hfree.symm.trans hthere) nofun
    · exact absurd (hfree.symm.trans hthere) nofun
  · exact ⟨entry, FileTree.stat_eq_ok.mpr (by rw [hslash]; exact hreaches)⟩

end

/-- **No line is lost.** A log is given thresholds, files and lines in any order. Whether a path
can be opened is settled by the tree that the log finds, and the path still leads to its file
at the end. The standard output gets the lines that are sent to it, and so does each file that
is opened, behind the text that it holds; a pipe passes on what it gets. No other entry is made
or changed. -/
theorem lines_reach_their_output (first : Level) (before : Bytes) (calls : List Call)
    (sound : tree.WellFormed) (workplace : tree.isDirectory v.cwd = true) :
    (∀ earlier path later, calls = earlier ++ .redirect path :: later →
      (((after tree v first before earlier).redirect v path).1 = true ↔
        ∃ place, outputFor tree v path = .file place) ∧
      ∀ place, outputFor tree v path = .file place →
        ∃ entry, (after tree v first before calls).tree.stat v.cwd path = .ok (place, entry)) ∧
    (after tree v first before calls).printed =
      before ++ written (sentTo tree v first calls .printed) ∧
    ∀ place,
      if .file place ∈ outputs tree v calls then
        (∃ bits, tree.get? place = some (.fifo bits) ∧
          (after tree v first before calls).tree.get? place = some (.fifo bits)) ∨
        ∃ bits old,
          (tree.get? place = some (.file bits old) ∨
            tree.get? place = none ∧ bits = v.newMode 0o666 ∧ old = []) ∧
          (after tree v first before calls).tree.get? place =
            some (.file bits (old ++ written (sentTo tree v first calls (.file place))))
      else (after tree v first before calls).tree.get? place = tree.get? place := by
  have hrooted := sound.rooted
  have hfollows := follows_after first before hrooted workplace calls
  refine ⟨?_, hfollows.printed, fun place => ?_⟩
  · intro earlier path later hcalls
    have hearlier := follows_after first before hrooted workplace earlier
    refine ⟨?_, fun place hselects => ?_⟩
    · rw [redirect_answer, hearlier.outputFor_eq hrooted workplace]
    · exact hfollows.leads (by simp [hcalls]) hselects hrooted workplace
  · split
    · rename_i hopened
      exact hfollows.opened hopened hrooted workplace
    · rename_i hunopened
      exact hfollows.unopened hunopened

/-- There is a file `/a` with a byte in it, and a directory `/d`. -/
def shelf : FileTree := ⟨[([[97]], .file 0o644 [7]), ([[100]], .directory 0o755)]⟩

/-- The log goes to `/a`, cannot go to `/d`, goes to the new file `/b` and back to `/a`. -/
def backAndForth : List Call :=
  [.write (info [1]), .redirect [97], .write (debug [2]), .threshold .debug, .write (debug [3]),
    .redirect [100], .write (error [4]), .redirect [98], .write (info [5]), .redirect [97],
    .threshold ⟨9⟩, .write ⟨⟨8⟩, [6]⟩, .write ⟨⟨9⟩, [7]⟩]

/-- Each line stands where the log went at the time, and in `/a` behind the byte. -/
theorem lines_reach_their_output_back_and_forth :
    shelf.WellFormed ∧ shelf.isDirectory [] = true ∧
      (after shelf { cwd := [] } .info [] backAndForth).printed =
        written [info [1], error [4]] ∧
      (after shelf { cwd := [] } .info [] backAndForth).tree.get? [[97]] =
        some (.file 0o644 (7 :: written [debug [3], ⟨⟨9⟩, [7]⟩])) ∧
      (after shelf { cwd := [] } .info [] backAndForth).tree.get? [[98]] =
        some (.file 0o644 (written [info [5]])) ∧
      (after shelf { cwd := [] } .info [] backAndForth).tree.get? [[100]] =
        some (.directory 0o755) := by
  have hsound : shelf.WellFormed := ⟨by decide, by decide, by decide⟩
  obtain ⟨-, hprinted, hplaces⟩ :=
    lines_reach_their_output (v := { cwd := [] }) .info [] backAndForth hsound rfl
  have houtputs : outputs shelf { cwd := [] } backAndForth =
      [.file [[97]], .printed, .file [[98]], .file [[97]]] := by cbv
  refine ⟨hsound, rfl, hprinted.trans (by cbv), ?_, ?_, ?_⟩
  · have hold := hplaces [[97]]
    rw [houtputs, if_pos (by decide)] at hold
    obtain ⟨bits, hfifo, -⟩ | ⟨bits, old, hthere | ⟨hnone, -⟩, hentry⟩ := hold
    · cases hfifo
    · cases hthere
      exact hentry.trans (by cbv)
    · cases hnone
  · have hnew := hplaces [[98]]
    rw [houtputs, if_pos (by decide)] at hnew
    obtain ⟨bits, hfifo, -⟩ | ⟨bits, old, hthere | ⟨-, rfl, rfl⟩, hentry⟩ := hnew
    · cases hfifo
    · cases hthere
    · exact hentry.trans (by cbv)
  · have hlast := hplaces [[100]]
    rw [houtputs, if_neg (by decide)] at hlast
    exact hlast

end Routing

end Log

end SearchDaemon
