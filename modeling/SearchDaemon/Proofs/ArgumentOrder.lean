import Mathlib.Data.List.Basic
import SearchDaemon.CommandLine
import SearchDaemon.Proofs.Fields

/-!
# The order of arguments

The arguments fall into groups: a flag, an option with its value, or the command. Which group
an argument belongs to depends on its position alone, since a value may look like anything.
Once the cut is made, each group is read by itself and sets one thing, so groups that set
different things can be given in any order.
-/

namespace SearchDaemon

/-- Folding over a list depends only on the order of the elements with the same key, if steps
with different keys commute. -/
theorem foldl_eq_of_filter_eq {α β κ : Type} [DecidableEq κ] {key : α → κ} {step : β → α → β}
    (commute : ∀ b x y, key x ≠ key y → step (step b x) y = step (step b y) x) {xs ys : List α}
    (same : ∀ k, xs.filter (key · = k) = ys.filter (key · = k)) (b : β) :
    xs.foldl step b = ys.foldl step b := by
  -- A step moves to the front past steps with other keys.
  have forward (x : α) (pre post : List α) (b : β) (others : ∀ y ∈ pre, key y ≠ key x) :
      (pre ++ x :: post).foldl step b = (x :: (pre ++ post)).foldl step b := by
    induction pre generalizing b with
    | nil => rfl
    | cons y pre ih =>
        rw [List.forall_mem_cons] at others
        have hlater := ih (step b y) others.2
        simp only [List.cons_append, List.foldl_cons] at hlater ⊢
        rw [hlater, commute b y x others.1]
  induction xs generalizing ys b with
  | nil =>
      cases ys with
      | nil => rfl
      | cons y ys =>
          have hnone := same (key y)
          simp at hnone
  | cons x xs ih =>
      have hfirst := same (key x)
      rw [List.filter_cons_of_pos (by simp)] at hfirst
      obtain ⟨pre, post, rfl, others, -, hpost⟩ := List.filter_eq_cons_iff.mp hfirst.symm
      have hothers : ∀ y ∈ pre, key y ≠ key x := by simpa using others
      rw [forward x pre post b hothers, List.foldl_cons, List.foldl_cons]
      apply ih
      intro k
      rw [List.filter_append]
      by_cases hk : key x = k
      · subst hk
        have hnone : pre.filter (key · = key x) = [] := List.filter_eq_nil_iff.mpr others
        rw [hnone, hpost, List.nil_append]
      · simpa only [List.filter_append, List.filter_cons, decide_eq_true_eq, if_neg hk] using same k

namespace CommandLine

/-! ## Groups -/

/-- The argument that names an option with a value. -/
def Valued.name : Valued → Bytes
  | .timeout => text "--timeout"
  | .workers => text "--workers"
  | .socket => text "--socket"
  | .pidFile => text "--pid-file"
  | .logLevel => text "--log-level"
  | .logFile => text "--log-file"

/-- The arguments that belong together. -/
inductive Group where
  /-- The flag that is written in two ways. -/
  | force (short : Bool)
  | foreground
  | valued (option : Valued) (value : Bytes)
  | command (name : Bytes)
deriving DecidableEq, Repr

/-- What a group sets. -/
inductive Subject where
  | force
  | foreground
  | valued (option : Valued)
  | command
deriving DecidableEq, Repr

def Setting.subject : Setting → Subject
  | .force => .force
  | .foreground => .foreground
  | .timeout _ => .valued .timeout
  | .workers _ => .valued .workers
  | .socket _ => .valued .socket
  | .pidFile _ => .valued .pidFile
  | .logLevel _ => .valued .logLevel
  | .logFile _ => .valued .logFile
  | .command _ => .command

namespace Group

def subject : Group → Subject
  | .force _ => .force
  | .foreground => .foreground
  | .valued option _ => .valued option
  | .command _ => .command

/-- The arguments of a group. -/
def args : Group → List Bytes
  | .force true => [text "-f"]
  | .force false => [text "--force"]
  | .foreground => [text "--foreground"]
  | .valued option value => [option.name, value]
  | .command name => [name]

/-- A group of one argument. -/
def single (arg : Bytes) : Group :=
  if arg = text "-f" then .force true
  else if arg = text "--force" then .force false
  else if arg = text "--foreground" then .foreground
  else .command arg

/-- What a group sets, read by itself. -/
def read : Group → Except Interruption Setting
  | .force _ => .ok .force
  | .foreground => .ok .foreground
  | .valued option value => option.read value
  | .command name =>
      if isWord name then .ok (.command name) else .error (.unknownOption name)

end Group

/-- The groups that the arguments are cut into as they are read: an option that takes a value
takes the next argument, whatever it looks like. -/
def cut : List Bytes → List Group
  | [] => []
  | [arg] => [.single arg]
  | arg :: value :: rest =>
      match Valued.ofArg? arg with
      | some option => .valued option value :: cut rest
      | none => .single arg :: cut (value :: rest)

theorem Valued.ofArg?_eq_some {arg : Bytes} {option : Valued} :
    Valued.ofArg? arg = some option ↔ arg = option.name := by
  constructor
  · intro h
    obtain ⟨⟨name, option'⟩, hmem, h⟩ := List.exists_of_findSome?_eq_some h
    dsimp only at h
    split at h
    · rename_i harg
      cases h
      simp only [List.mem_cons, List.not_mem_nil, or_false, Prod.mk.injEq] at hmem
      rcases hmem with ⟨rfl, rfl⟩ | ⟨rfl, rfl⟩ | ⟨rfl, rfl⟩ | ⟨rfl, rfl⟩ | ⟨rfl, rfl⟩ |
        ⟨rfl, rfl⟩ <;> exact harg
    · contradiction
  · rintro rfl
    cases option <;> decide

@[simp] theorem Group.args_single (arg : Bytes) : (Group.single arg).args = [arg] := by
  unfold single
  split_ifs <;> simp_all [args]

/-- Nothing is lost in the cut. -/
theorem flatMap_args_cut (args : List Bytes) : (cut args).flatMap Group.args = args := by
  fun_induction cut args with
  | case1 => rfl
  | case2 arg => simp
  | case3 arg value rest option hoption ih =>
      rw [List.flatMap_cons, ih, Valued.ofArg?_eq_some.mp hoption]
      rfl
  | case4 arg value rest hoption ih => rw [List.flatMap_cons, ih, Group.args_single]; rfl

/-! ## Reading group by group -/

/-- Every group can be read, and no more than one is a command. -/
structure Accepted (hasCommand : Bool) (gs : List Group) : Prop where
  readable : ∀ g ∈ gs, ∃ setting, g.read = .ok setting
  once : gs.countP (·.subject = .command) + hasCommand.toNat ≤ 1

/-- Makes the setting of a group. -/
def Order.take (o : Order) (g : Group) : Order :=
  match g.read with
  | .ok setting => o.set setting
  | .error _ => o

variable {hasCommand : Bool} {arg value : Bytes} {args rest : List Bytes} {g : Group}
  {gs : List Group} {setting : Setting} {found : List Setting} {option : Valued}

theorem settings_single (h : Valued.ofArg? arg = none) :
    settings hasCommand (arg :: rest) =
      (plain hasCommand arg >>= fun setting =>
        settings (hasCommand || setting.isCommand) rest >>= fun later =>
          .ok (setting :: later)) := by
  cases rest with
  | nil => rfl
  | cons value rest => rw [settings, h]

theorem settings_valued :
    settings hasCommand (option.name :: value :: rest) =
      (option.read value >>= fun setting =>
        settings hasCommand rest >>= fun later => .ok (setting :: later)) := by
  rw [settings, Valued.ofArg?_eq_some.mpr rfl]

theorem Setting.isCommand_eq (setting : Setting) :
    setting.isCommand = decide (setting.subject = .command) := by
  cases setting <;> rfl

theorem subject_of_valued (h : option.read value = .ok setting) :
    setting.subject = .valued option := by
  cases option with
  | timeout | workers =>
      obtain ⟨n, -, h⟩ := bind_eq_ok.mp h
      split at h
      · contradiction
      · cases h
        rfl
  | socket | pidFile | logFile =>
      cases h
      rfl
  | logLevel =>
      unfold Valued.read at h
      dsimp only at h
      split at h
      · cases h
        rfl
      · contradiction

theorem Group.read_command {name : Bytes} :
    (Group.command name).read = .ok setting ↔ isWord name = true ∧ setting = .command name := by
  rw [read.eq_def]
  dsimp only
  split
  · rename_i word
    simp [word, eq_comm]
  · rename_i word
    simp [word]

theorem Group.subject_of_read (h : g.read = .ok setting) : setting.subject = g.subject := by
  cases g with
  | force | foreground =>
      cases h
      rfl
  | valued => exact subject_of_valued h
  | command name =>
      obtain ⟨-, rfl⟩ := read_command.mp h
      rfl

theorem plain_command (word : isWord arg = true) : plain false arg = .ok (.command arg) := by
  have hdash (other : Bytes) (h : isWord other = false) : arg ≠ other := by
    rintro rfl
    rw [word] at h
    contradiction
  simp only [plain, flag?, hdash (text "--help") (by decide), hdash (text "-h") (by decide),
    hdash (text "-f") (by decide), hdash (text "--force") (by decide),
    hdash (text "--foreground") (by decide), word, or_self, if_false, Bool.not_false,
    Bool.and_self, if_true]

theorem ofArg?_word (word : isWord arg = true) : Valued.ofArg? arg = none := by
  cases h : Valued.ofArg? arg with
  | none => rfl
  | some option =>
      rw [Valued.ofArg?_eq_some.mp h] at word
      cases option <;> contradiction

/-- A group in front is read by itself. -/
theorem settings_group (h : g.read = .ok setting)
    (free : setting.isCommand = true → hasCommand = false) :
    settings hasCommand (g.args ++ rest) =
      (settings (hasCommand || setting.isCommand) rest >>= fun later =>
        .ok (setting :: later)) := by
  have halone {arg : Bytes} (hargs : g.args = [arg]) (hoption : Valued.ofArg? arg = none)
      (hplain : plain hasCommand arg = .ok setting) :
      settings hasCommand (g.args ++ rest) =
        (settings (hasCommand || setting.isCommand) rest >>= fun later =>
          .ok (setting :: later)) := by
    rw [hargs, List.singleton_append, settings_single hoption, hplain, ok_bind]
  cases g with
  | force short =>
      cases h
      cases short <;> exact halone rfl (by decide) (by cases hasCommand <;> decide)
  | foreground =>
      cases h
      exact halone rfl (by decide) (by cases hasCommand <;> decide)
  | valued option value =>
      have hread : option.read value = .ok setting := h
      have hcommand : setting.isCommand = false := by
        rw [Setting.isCommand_eq, subject_of_valued hread]
        rfl
      rw [hcommand, Bool.or_false]
      show settings hasCommand (option.name :: value :: rest) = _
      rw [settings_valued, hread, ok_bind]
  | command name =>
      obtain ⟨word, rfl⟩ := Group.read_command.mp h
      obtain rfl := free rfl
      exact halone rfl (ofArg?_word word) (plain_command word)

/-- What an argument without a value is read as is what its group is read as. -/
theorem read_single (h : plain hasCommand arg = .ok setting) :
    (Group.single arg).read = .ok setting ∧ (setting.isCommand = true → hasCommand = false) := by
  unfold plain at h
  split at h
  · contradiction
  · unfold flag? at h
    unfold Group.single
    by_cases hshort : arg = text "-f"
    · rw [if_pos (Or.inl hshort)] at h
      rw [if_pos hshort]
      cases h
      exact ⟨rfl, nofun⟩
    rw [if_neg hshort]
    by_cases hlong : arg = text "--force"
    · rw [if_pos (Or.inr hlong)] at h
      rw [if_pos hlong]
      cases h
      exact ⟨rfl, nofun⟩
    rw [if_neg (not_or.mpr ⟨hshort, hlong⟩)] at h
    rw [if_neg hlong]
    by_cases hforeground : arg = text "--foreground"
    · rw [if_pos hforeground] at h ⊢
      cases h
      exact ⟨rfl, nofun⟩
    rw [if_neg hforeground] at h ⊢
    dsimp only at h
    split at h
    · rename_i hword
      cases h
      rw [Bool.and_eq_true, Bool.not_eq_true'] at hword
      exact ⟨Group.read_command.mpr ⟨hword.2, rfl⟩, fun _ => hword.1⟩
    · contradiction

theorem accepted_cons :
    Accepted hasCommand (g :: gs) ↔ ∃ setting, g.read = .ok setting ∧
      (setting.isCommand = true → hasCommand = false) ∧
      Accepted (hasCommand || setting.isCommand) gs := by
  constructor
  · rintro ⟨hreadable, honce⟩
    obtain ⟨⟨setting, hread⟩, hlater⟩ := List.forall_mem_cons.mp hreadable
    rw [List.countP_cons, ← Group.subject_of_read hread, ← Setting.isCommand_eq] at honce
    refine ⟨setting, hread, ?_, hlater, ?_⟩ <;>
      cases hasCommand <;> cases hs : setting.isCommand <;> simp_all
  · rintro ⟨setting, hread, hfree, hreadable, honce⟩
    refine ⟨List.forall_mem_cons.mpr ⟨⟨setting, hread⟩, hreadable⟩, ?_⟩
    rw [List.countP_cons, ← Group.subject_of_read hread, ← Setting.isCommand_eq]
    cases hasCommand <;> cases hs : setting.isCommand <;> simp_all

/-- Accepted groups are read as their settings, in their order. -/
theorem Accepted.settings (accepted : Accepted hasCommand gs) :
    ∃ found, settings hasCommand (gs.flatMap Group.args) = .ok found ∧
      List.Forall₂ (fun g setting => g.read = .ok setting) gs found ∧
      ∀ o : Order, found.foldl Order.set o = gs.foldl Order.take o := by
  induction gs generalizing hasCommand with
  | nil => exact ⟨[], rfl, .nil, fun _ => rfl⟩
  | cons g gs ih =>
      obtain ⟨setting, hread, hfree, haccepted⟩ := accepted_cons.mp accepted
      obtain ⟨later, hlater, heach, hsame⟩ := ih haccepted
      refine ⟨setting :: later, ?_, .cons hread heach, ?_⟩
      · rw [List.flatMap_cons, settings_group hread hfree, hlater, ok_bind]
      · intro o
        have htake : o.take g = o.set setting := by rw [Order.take, hread]
        rw [List.foldl_cons, List.foldl_cons, hsame, htake]

/-- Arguments that are read are cut into accepted groups. -/
theorem accepted_of_settings (h : CommandLine.settings hasCommand args = .ok found) :
    Accepted hasCommand (cut args) := by
  induction args using cut.induct generalizing hasCommand found with
  | case1 => exact ⟨nofun, by cases hasCommand <;> simp [cut]⟩
  | case2 arg =>
      obtain ⟨setting, hplain, -⟩ := bind_eq_ok.mp h
      obtain ⟨hread, hfree⟩ := read_single hplain
      refine accepted_cons.mpr ⟨setting, hread, hfree, nofun, ?_⟩
      cases h : setting.isCommand <;> cases hasCommand <;> simp_all
  | case3 arg value rest option hoption ih =>
      rw [Valued.ofArg?_eq_some.mp hoption, settings_valued] at h
      obtain ⟨setting, hread, h⟩ := bind_eq_ok.mp h
      obtain ⟨later, hlater, -⟩ := bind_eq_ok.mp h
      have hcommand : setting.isCommand = false := by
        rw [Setting.isCommand_eq, subject_of_valued hread]
        rfl
      rw [cut, hoption]
      refine accepted_cons.mpr ⟨setting, hread, by rw [hcommand]; nofun, ?_⟩
      rw [hcommand, Bool.or_false]
      exact ih hlater
  | case4 arg value rest hoption ih =>
      rw [settings_single hoption] at h
      obtain ⟨setting, hplain, h⟩ := bind_eq_ok.mp h
      obtain ⟨later, hlater, -⟩ := bind_eq_ok.mp h
      obtain ⟨hread, hfree⟩ := read_single hplain
      rw [cut, hoption]
      exact accepted_cons.mpr ⟨setting, hread, hfree, ih hlater⟩

theorem parse_flatMap (accepted : Accepted false gs) :
    parse (gs.flatMap Group.args) = .ok (gs.foldl Order.take {}) := by
  obtain ⟨found, hfound, -, hsame⟩ := accepted.settings
  rw [parse, hfound, ok_bind, hsame]

/-- What is parsed is made of the groups that the arguments are cut into. -/
theorem parse_eq_ok {order : Order} (h : parse args = .ok order) :
    Accepted false (cut args) ∧ order = (cut args).foldl Order.take {} := by
  obtain ⟨found, hfound, -⟩ := bind_eq_ok.mp h
  have haccepted := accepted_of_settings hfound
  have hparse := parse_flatMap haccepted
  rw [flatMap_args_cut, h] at hparse
  cases hparse
  exact ⟨haccepted, rfl⟩

/-! ## Settings in another order -/

/-- What is to be done agrees with a setting. -/
def Order.Shows (o : Order) : Setting → Prop
  | .force => o.options.force = true
  | .foreground => o.options.foreground = true
  | .timeout seconds => o.options.timeout = seconds
  | .workers n => o.options.config.workers = n
  | .socket path => o.options.config.socketPath = path
  | .pidFile path => o.options.config.pidFile = path
  | .logLevel level => o.options.logLevel = level
  | .logFile path => o.options.logFile = path
  | .command name => o.command = name

theorem Order.set_set (o : Order) {first second : Setting}
    (h : first.subject ≠ second.subject) :
    (o.set first).set second = (o.set second).set first := by
  cases first <;> cases second <;> first | rfl | exact absurd rfl h

theorem Order.shows_set (o : Order) (setting : Setting) : (o.set setting).Shows setting := by
  cases setting <;> rfl

theorem Order.Shows.set {o : Order} {first second : Setting} (shows : o.Shows first)
    (h : second.subject ≠ first.subject) : (o.set second).Shows first := by
  cases first <;> cases second <;> first | exact shows | exact absurd rfl h

/-- The settings of groups that set different things can be made in either order. -/
theorem Order.take_take (o : Order) {first second : Group}
    (h : first.subject ≠ second.subject) :
    (o.take first).take second = (o.take second).take first := by
  unfold take
  cases hfirst : first.read with
  | error => rfl
  | ok one =>
      cases hsecond : second.read with
      | error => rfl
      | ok other =>
          apply Order.set_set
          rwa [Group.subject_of_read hfirst, Group.subject_of_read hsecond]

theorem Order.Shows.foldl {o : Order} (shows : o.Shows setting)
    (others : ∀ g ∈ gs, g.subject ≠ setting.subject) : (gs.foldl Order.take o).Shows setting := by
  induction gs generalizing o with
  | nil => exact shows
  | cons g gs ih =>
      rw [List.forall_mem_cons] at others
      refine ih ?_ others.2
      unfold take
      split
      · rename_i hread
        exact shows.set (Group.subject_of_read hread ▸ others.1)
      · exact shows

/-! ## Numbers -/

/-- A number is such as a signed number of 32 bits can hold, and there is a worker. -/
def Setting.InRange : Setting → Prop
  | .timeout seconds => seconds ≤ 2 ^ 31 - 1
  | .workers n => 1 ≤ n ∧ n ≤ 2 ^ 31 - 1
  | _ => True

structure Order.InRange (o : Order) : Prop where
  some_worker : 1 ≤ o.options.config.workers
  workers_le : o.options.config.workers ≤ 2 ^ 31 - 1
  timeout_le : o.options.timeout ≤ 2 ^ 31 - 1

theorem toNat_le_of_number {n : Int} (h : number value = .ok n) : n.toNat ≤ 2 ^ 31 - 1 := by
  unfold number at h
  split at h
  · rename_i hsome
    cases h
    obtain ⟨-, hfits⟩ := Option.filter_eq_some_iff.mp hsome
    have hlimit : Numeral.limit 32 = 2147483648 := by decide
    simp only [Numeral.fits, hlimit, Bool.and_eq_true, decide_eq_true_eq] at hfits
    omega
  · contradiction

theorem inRange_of_valued (h : option.read value = .ok setting) : setting.InRange := by
  cases option with
  | timeout | workers =>
      obtain ⟨n, hn, h⟩ := bind_eq_ok.mp h
      have hle := toNat_le_of_number hn
      split at h
      · contradiction
      · cases h
        simp only [Setting.InRange]
        omega
  | socket | pidFile | logLevel | logFile =>
      have hsubject := subject_of_valued h
      cases setting <;> first | trivial | cases hsubject

theorem Group.inRange_of_read (h : g.read = .ok setting) : setting.InRange := by
  cases g with
  | force | foreground =>
      cases h
      trivial
  | valued => exact inRange_of_valued h
  | command =>
      obtain ⟨-, rfl⟩ := read_command.mp h
      trivial

theorem Order.InRange.set {o : Order} (h : o.InRange) (hsetting : setting.InRange) :
    (o.set setting).InRange := by
  cases setting with
  | timeout => exact ⟨h.some_worker, h.workers_le, hsetting⟩
  | workers => exact ⟨hsetting.1, hsetting.2, h.timeout_le⟩
  | _ => exact ⟨h.some_worker, h.workers_le, h.timeout_le⟩

theorem Order.InRange.foldl {o : Order} (h : o.InRange) : (gs.foldl Order.take o).InRange := by
  induction gs generalizing o with
  | nil => exact h
  | cons g gs ih =>
      apply ih
      unfold take
      split
      · rename_i hread
        exact h.set (Group.inRange_of_read hread)
      · exact h

/-! ## Groups in another order -/

/-- The same groups in another order, in which those that set the same thing keep theirs. -/
structure Reordered (gs gs' : List Group) : Prop where
  perm : gs'.Perm gs
  keeps : ∀ subject, gs'.filter (·.subject = subject) = gs.filter (·.subject = subject)

theorem Accepted.reordered {gs' : List Group} (accepted : Accepted hasCommand gs)
    (reordered : Reordered gs gs') : Accepted hasCommand gs' := by
  refine ⟨fun g hg => accepted.readable g (reordered.perm.mem_iff.mp hg), ?_⟩
  rw [reordered.perm.countP_eq]
  exact accepted.once

/-- **The groups of a command line can be given in any order in which those that set the same
thing keep theirs.** Arguments that are parsed are the arguments of the groups that they are cut
into, each of which is read as one setting; given in such another order they are parsed too, to
the same command and options. Of several groups for one option the last one counts, and the
numbers fit 32 bits, with at least one worker. -/
theorem group_order_is_free {order : Order} (h : parse args = .ok order) :
    (cut args).flatMap Group.args = args ∧
    (∃ found, settings false args = .ok found ∧
      List.Forall₂ (fun g setting => g.read = .ok setting) (cut args) found) ∧
    (∀ gs, Reordered (cut args) gs → parse (gs.flatMap Group.args) = .ok order) ∧
    (∀ before option value after, cut args = before ++ .valued option value :: after →
      (∀ g ∈ after, g.subject ≠ .valued option) →
      ∃ setting, option.read value = .ok setting ∧ order.Shows setting) ∧
    order.InRange := by
  obtain ⟨haccepted, rfl⟩ := parse_eq_ok h
  refine ⟨flatMap_args_cut args, ?_, ?_, ?_, ?_⟩
  · obtain ⟨found, hfound, heach, -⟩ := haccepted.settings
    rw [flatMap_args_cut] at hfound
    exact ⟨found, hfound, heach⟩
  · intro gs hreordered
    rw [parse_flatMap (haccepted.reordered hreordered)]
    congr 1
    exact foldl_eq_of_filter_eq (fun o _ _ => Order.take_take o) hreordered.keeps _
  · intro before option value after hcut hlast
    obtain ⟨setting, hread⟩ := haccepted.readable (.valued option value) (by simp [hcut])
    refine ⟨setting, hread, ?_⟩
    have htake (o : Order) : o.take (.valued option value) = o.set setting := by
      rw [Order.take, hread]
    rw [hcut, List.foldl_append, List.foldl_cons, htake]
    refine (Order.shows_set _ setting).foldl ?_
    rwa [Group.subject_of_read hread]
  · exact Order.InRange.foldl ⟨by decide, by decide, by decide⟩

/-- A path that looks like the wish for help, and two numbers of workers. -/
theorem group_order_is_free_two_numbers :
    parse [text "--socket", text "--help", text "start", text "--workers", text "2", text "-f",
        text "--workers", text " 3x"] =
      .ok
        { command := text "start"
          options :=
            { config := { socketPath := text "--help", workers := 3 }
              force := true } } ∧
    parse [text "-f", text "--workers", text "2", text "--workers", text " 3x", text "start",
        text "--socket", text "--help"] =
      .ok
        { command := text "start"
          options :=
            { config := { socketPath := text "--help", workers := 3 }
              force := true } } := by
  have hparse : parse [text "--socket", text "--help", text "start", text "--workers", text "2",
        text "-f", text "--workers", text " 3x"] =
      .ok
        { command := text "start"
          options :=
            { config := { socketPath := text "--help", workers := 3 }
              force := true } } := by
    decide
  obtain ⟨-, -, hreordered, -⟩ := group_order_is_free hparse
  refine ⟨hparse, hreordered [.force true, .valued .workers (text "2"),
    .valued .workers (text " 3x"), .command (text "start"), .valued .socket (text "--help")]
    ⟨by decide, fun subject => ?_⟩⟩
  cases subject with
  | valued option => cases option <;> decide
  | _ => decide

end CommandLine

end SearchDaemon
