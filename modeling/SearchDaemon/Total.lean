/-!
# Totals

The sum of a list of natural numbers. `total_map_lt_total_map` compares two sums term by
term; `total_set` says what changing one term does to a sum.
-/

namespace SearchDaemon

/-- The sum of all numbers on a list. -/
def total (ns : List Nat) : Nat := ns.foldr (· + ·) 0

@[simp] theorem total_nil : total [] = 0 := rfl

@[simp] theorem total_cons (n : Nat) (ns : List Nat) : total (n :: ns) = n + total ns := rfl

theorem total_append (ns ms : List Nat) : total (ns ++ ms) = total ns + total ms := by
  induction ns with
  | nil => simp
  | cons n ns ih =>
      rw [List.cons_append, total_cons, total_cons, ih]
      omega

theorem total_perm {ns ms : List Nat} (h : ns.Perm ms) : total ns = total ms := by
  induction h with
  | nil => rfl
  | cons n _ ih => rw [total_cons, total_cons, ih]
  | swap n m ns =>
      rw [total_cons, total_cons, total_cons, total_cons]
      omega
  | trans _ _ ih ih' => exact ih.trans ih'

theorem total_set {α : Type} {xs : List α} {i : Nat} {x : α} (hx : xs[i]? = some x) (y : α)
    (f : α → Nat) : total ((xs.set i y).map f) + f x = total (xs.map f) + f y := by
  induction xs generalizing i with
  | nil => contradiction
  | cons z zs ih =>
      cases i with
      | zero =>
          cases hx
          simp only [List.set_cons_zero, List.map_cons, total_cons]
          omega
      | succ i =>
          have hlater := ih hx
          simp only [List.set_cons_succ, List.map_cons, total_cons]
          omega

theorem total_map_le_total_map {xs : List Nat} {f g : Nat → Nat} (le : ∀ x ∈ xs, f x ≤ g x) :
    total (xs.map f) ≤ total (xs.map g) := by
  induction xs with
  | nil => simp
  | cons x xs ih =>
      have hx := le x List.mem_cons_self
      have hxs := ih fun y hy => le y (List.mem_cons_of_mem _ hy)
      simp only [List.map_cons, total_cons]
      omega

theorem total_map_lt_total_map {xs : List Nat} {f g : Nat → Nat} (le : ∀ x ∈ xs, f x ≤ g x)
    {a : Nat} (ha : a ∈ xs) (lt : f a < g a) : total (xs.map f) < total (xs.map g) := by
  induction xs with
  | nil => contradiction
  | cons x xs ih =>
      have hx := le x List.mem_cons_self
      have hle := total_map_le_total_map fun y hy => le y (List.mem_cons_of_mem _ hy)
      simp only [List.map_cons, total_cons]
      rcases List.mem_cons.mp ha with rfl | ha
      · omega
      · have := ih (fun y hy => le y (List.mem_cons_of_mem _ hy)) ha
        omega

end SearchDaemon
