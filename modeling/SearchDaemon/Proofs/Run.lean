import Mathlib.Data.List.Induction

/-!
# Runs

A run is what a machine with a partial step function can have done since a start:
a list of moments, each an act with the states before and after it. Observations
of a run (what was sent, accepted, called) are functions of its moments, so that a
theorem about them is proved along the run, one moment at a time.
-/

namespace SearchDaemon

/-- An act and the states around it. -/
structure Moment (σ α : Type) where
  before : σ
  act : α
  after : σ

/-- What can have happened since `start`, the last moment last, and where it has led. -/
inductive Run {σ α : Type} (step? : σ → α → Option σ) (start : σ) :
    List (Moment σ α) → σ → Prop
  | start : Run step? start [] start
  | snoc {past : List (Moment σ α)} {now next : σ} {act : α} :
      Run step? start past now → step? now act = some next →
      Run step? start (past ++ [⟨now, act, next⟩]) next

namespace Run

variable {σ α : Type} {step? : σ → α → Option σ} {start now : σ}
  {past : List (Moment σ α)}

/-- What every step keeps holds along every run. -/
theorem keeps {P : σ → Prop} (kept : ∀ s a s', P s → step? s a = some s' → P s')
    (run : Run step? start past now) (h : P start) : P now := by
  induction run with
  | start => exact h
  | snoc _ step ih => exact kept _ _ _ ih step

/-- A run can be gone on with. -/
theorem append {later : List (Moment σ α)} {last : σ} (run : Run step? start past now)
    (rest : Run step? now later last) : Run step? start (past ++ later) last := by
  induction rest with
  | start => simpa using run
  | snoc _ step ih =>
      rw [← List.append_assoc]
      exact ih.snoc step

/-- The last moment of a run is a step from where the moments before have led. -/
theorem of_snoc {m : Moment σ α} {last : σ} (run : Run step? start (past ++ [m]) last) :
    Run step? start past m.before ∧ step? m.before m.act = some last ∧ m.after = last := by
  generalize hall : past ++ [m] = all at run
  cases run with
  | start => exact absurd hall (List.append_ne_nil_of_right_ne_nil past (List.cons_ne_nil m []))
  | snoc run step =>
      obtain ⟨rfl, hm⟩ := List.append_inj' hall rfl
      cases hm
      exact ⟨run, step, rfl⟩

/-- Every moment of a run divides it into two runs. -/
theorem split {m : Moment σ α} {later : List (Moment σ α)} {last : σ}
    (run : Run step? start (past ++ m :: later) last) :
    Run step? start past m.before ∧ Run step? m.before (m :: later) last := by
  induction later using List.reverseRecOn generalizing last with
  | nil =>
      obtain ⟨hbefore, hstep, rfl⟩ := run.of_snoc
      exact ⟨hbefore, Run.start.snoc hstep⟩
  | append_singleton later m' ih =>
      rw [← List.cons_append, ← List.append_assoc] at run
      obtain ⟨hrun, hstep, rfl⟩ := run.of_snoc
      obtain ⟨hbefore, hlater⟩ := ih hrun
      exact ⟨hbefore, hlater.snoc hstep⟩

/-- A run can be divided anywhere. -/
theorem of_append {later : List (Moment σ α)} {last : σ}
    (run : Run step? start (past ++ later) last) :
    ∃ mid, Run step? start past mid ∧ Run step? mid later last := by
  cases later with
  | nil =>
      rw [List.append_nil] at run
      exact ⟨last, run, .start⟩
  | cons m later => exact ⟨m.before, run.split⟩

end Run

/-- Carries out some acts, if each of them can be. -/
def perform? {σ α : Type} (step? : σ → α → Option σ) (s : σ) :
    List α → Option (List (Moment σ α) × σ)
  | [] => some ([], s)
  | act :: acts =>
      match step? s act with
      | none => none
      | some next =>
          match perform? step? next acts with
          | none => none
          | some (later, last) => some (⟨s, act, next⟩ :: later, last)

/-- Acts that can be carried out make a run. -/
theorem Run.of_perform? {σ α : Type} {step? : σ → α → Option σ} {s last : σ}
    {acts : List α} {past : List (Moment σ α)} (h : perform? step? s acts = some (past, last)) :
    Run step? s past last := by
  induction acts generalizing s past with
  | nil =>
      cases h
      exact .start
  | cons act acts ih =>
      rw [perform?] at h
      split at h
      · contradiction
      · rename_i next hstep
        split at h
        · contradiction
        · rename_i later last' hrest
          cases h
          exact (Run.start.snoc hstep).append (ih hrest)

end SearchDaemon
