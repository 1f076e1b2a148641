import Mathlib.Data.Int.ModEq
import Mathlib.Data.List.Induction
import Mathlib.Data.List.TakeWhile
import Mathlib.Data.Nat.Digits.Defs
import SearchDaemon.Numeral

/-!
# What stands at the beginning of a text

`Opens` says which integer a text begins with, by the parts of the text alone: white space, a
sign or none, and digits up to where they end. Their value is that of a decimal numeral, each
digit by its place. A text is read as the integer it opens with and in no other way.
-/

namespace SearchDaemon.Numeral

variable {bs digits blanks rest : Bytes} {n : Int}

/-! ## The value of digits -/

/-- The number that decimal digits stand for, each by its place. -/
def placeValue (digits : Bytes) : Nat :=
  Nat.ofDigits 10 (digits.reverse.map fun b => b.toNat - 48)

theorem ofDigits_eq_placeValue (digits : Bytes) : ofDigits digits = placeValue digits := by
  induction digits using List.reverseRecOn with
  | nil => rfl
  | append_singleton digits b ih =>
      have hplace : placeValue (digits ++ [b]) = b.toNat - 48 + 10 * placeValue digits := by
        rw [placeValue, List.reverse_concat, List.map_cons, Nat.ofDigits_cons]
        rfl
      have hread : ofDigits (digits ++ [b]) = ofDigits digits * 10 + (b.toNat - 48) := by
        rw [ofDigits, List.foldl_append]
        rfl
      rw [hread, hplace, ih]
      ring

/-! ## Integers at the beginning of a text -/

/-- What stands between the white space and the digits. -/
inductive Sign where
  | none
  | plus
  | minus
deriving DecidableEq, Repr

namespace Sign

def text : Sign → Bytes
  | none => []
  | plus => [43]
  | minus => [45]

def applied (n : Nat) : Sign → Int
  | none | plus => n
  | minus => -n

end Sign

/-- A text begins with an integer. The digits go on as long as there are any. -/
inductive Opens : Bytes → Int → Prop
  | intro {blanks digits rest : Bytes} (sign : Sign) :
      (∀ b ∈ blanks, isSpace b = true) → digits ≠ [] → (∀ b ∈ digits, isDigit b = true) →
      (∀ b ∈ rest.head?, isDigit b = false) →
      Opens (blanks ++ (sign.text ++ (digits ++ rest))) (sign.applied (placeValue digits))

theorem not_isSpace_of_isDigit {b : UInt8} (h : isDigit b = true) : isSpace b = false := by
  simp only [isDigit, isSpace, Bool.and_eq_true, decide_eq_true_eq, Bool.or_eq_false_iff,
    Bool.and_eq_false_iff, decide_eq_false_iff_not] at h ⊢
  grind

/-- The digits at the front of a text are as many as there are. -/
theorem takeWhile_isDigit (isDigits : ∀ b ∈ digits, isDigit b = true)
    (ends : ∀ b ∈ rest.head?, isDigit b = false) : (digits ++ rest).takeWhile isDigit = digits := by
  rw [List.takeWhile_append_of_pos isDigits]
  cases rest with
  | nil => simp
  | cons b rest => simp [ends b rfl]

/-! ## Reading -/

/-- The sign in front of a text, and what follows it. -/
def afterSign : Bytes → Sign × Bytes
  | 45 :: rest => (.minus, rest)
  | 43 :: rest => (.plus, rest)
  | bs => (.none, bs)

theorem leading?_eq (bs : Bytes) :
    leading? bs =
      if ((afterSign (bs.dropWhile isSpace)).2.takeWhile isDigit).isEmpty then none
      else some ((afterSign (bs.dropWhile isSpace)).1.applied
        (placeValue ((afterSign (bs.dropWhile isSpace)).2.takeWhile isDigit))) := by
  unfold leading?
  generalize bs.dropWhile isSpace = front
  simp only [ofDigits_eq_placeValue]
  split
  · rfl
  · rfl
  · rename_i hminus hplus
    rw [afterSign]
    · rfl
    · exact hminus
    · exact hplus

theorem afterSign_append (front : Bytes) :
    (afterSign front).1.text ++ (afterSign front).2 = front := by
  unfold afterSign
  split <;> rfl

/-- A digit is no sign. -/
theorem afterSign_digit (sign : Sign) {b : UInt8} (isDigits : isDigit b = true) (rest : Bytes) :
    afterSign (sign.text ++ b :: rest) = (sign, b :: rest) := by
  cases sign with
  | minus | plus => rfl
  | none =>
      show afterSign (b :: rest) = _
      rw [afterSign]
      · rintro after ⟨⟩
        contradiction
      · rintro after ⟨⟩
        contradiction

theorem dropWhile_isSpace (areBlank : ∀ b ∈ blanks, isSpace b = true) (sign : Sign) {b : UInt8}
    (isDigits : isDigit b = true) (rest : Bytes) :
    (blanks ++ (sign.text ++ b :: rest)).dropWhile isSpace = sign.text ++ b :: rest := by
  rw [List.dropWhile_append_of_pos areBlank]
  cases sign with
  | minus | plus => rfl
  | none =>
      apply List.dropWhile_cons_of_neg
      rw [not_isSpace_of_isDigit isDigits]
      exact Bool.false_ne_true

/-- **A text is read as the integer that it opens with.** -/
theorem leading?_eq_some : leading? bs = some n ↔ Opens bs n := by
  rw [leading?_eq]
  constructor
  · intro h
    split_ifs at h with hnone
    cases h
    generalize hfront : bs.dropWhile isSpace = front at hnone ⊢
    have hwhole : bs = bs.takeWhile isSpace ++ ((afterSign front).1.text ++
        ((afterSign front).2.takeWhile isDigit ++ (afterSign front).2.dropWhile isDigit)) := by
      rw [List.takeWhile_append_dropWhile, afterSign_append, ← hfront,
        List.takeWhile_append_dropWhile]
    rw [hwhole]
    apply Opens.intro
    · exact fun b hb => List.mem_takeWhile_imp hb
    · exact fun h => hnone (List.isEmpty_iff.mpr h)
    · exact fun b hb => List.mem_takeWhile_imp hb
    · intro b hb
      have hfails := List.head?_dropWhile_not isDigit (afterSign front).2
      rw [Option.mem_def.mp hb] at hfails
      simpa using hfails
  · rintro ⟨sign, hblanks, hsome, hdigits, hends⟩
    rename_i blanks digits rest
    obtain ⟨b, others, rfl⟩ := List.exists_cons_of_ne_nil hsome
    have hfirst : isDigit b = true := hdigits b List.mem_cons_self
    rw [List.cons_append, dropWhile_isSpace hblanks sign hfirst, afterSign_digit sign hfirst,
      ← List.cons_append, takeWhile_isDigit hdigits hends]
    rfl

/-- A text opens with one integer at most. -/
theorem Opens.unique {n' : Int} (h : Opens bs n) (h' : Opens bs n') : n = n' := by
  have hread := (leading?_eq_some.mpr h).symm.trans (leading?_eq_some.mpr h')
  exact Option.some.inj hread

/-! ## Cutting to 32 bits -/

/-- The second integer is what the 32 low-order bits of the first one stand for, with a sign. -/
structure Wraps (n p : Int) : Prop where
  congruent : p ≡ n [ZMOD 2 ^ 32]
  lower : -2 ^ 31 ≤ p
  upper : p < 2 ^ 31

theorem wraps_low32 (n : Int) : Wraps n (low32 n) where
  congruent := Int.bmod_emod
  lower := Int.le_bmod (by decide)
  upper := Int.bmod_lt (by decide)

theorem Wraps.unique {p p' : Int} (h : Wraps n p) (h' : Wraps n p') : p = p' := by
  have hsame : p % 2 ^ 32 = p' % 2 ^ 32 := h.congruent.trans h'.congruent.symm
  have := h.lower
  have := h.upper
  have := h'.lower
  have := h'.upper
  omega

theorem wraps_iff {p : Int} : Wraps n p ↔ low32 n = p := by
  constructor
  · exact (wraps_low32 n).unique
  · rintro rfl
    exact wraps_low32 n

/-- A positive integer is kept exactly if it fits. -/
theorem Wraps.eq_iff {p : Int} (h : Wraps n p) (positive : 0 < n) : p = n ↔ n < 2 ^ 31 := by
  constructor
  · rintro rfl
    exact h.upper
  · intro fits
    refine h.unique ⟨rfl, ?_, fits⟩
    omega

end SearchDaemon.Numeral
