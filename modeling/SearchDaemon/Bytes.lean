/-!
# Byte strings

Everything the daemon reads, writes, logs or looks up by name is a string of
bytes. This module fixes the representation and the few notions shared by all
later modules: text as bytes, decimal numerals, big-endian integers of a fixed
width, and the bytewise order.

Main facts: `ofBigEndian_bigEndian` and `bigEndian_ofBigEndian` make the two
integer conversions inverse to each other on their width.
-/

namespace SearchDaemon

/-- A string of bytes; no encoding is implied. -/
abbrev Bytes := List UInt8

/-- The UTF-8 bytes of a text. -/
def text (s : String) : Bytes := s.toUTF8.data.toList

/-- The decimal numeral of `n`, without leading zeros. -/
def decimal (n : Nat) : Bytes :=
  if n < 10 then [UInt8.ofNat (48 + n)]
  else decimal (n / 10) ++ [UInt8.ofNat (48 + n % 10)]

/-- The decimal numeral of an integer, with a leading minus sign if negative. -/
def decimalInt : Int → Bytes
  | .ofNat n => decimal n
  | .negSucc n => 45 :: decimal (n + 1)

/-- The `width` low-order bytes of `n`, most significant byte first. -/
def bigEndian : (width : Nat) → (n : Nat) → Bytes
  | 0, _ => []
  | width + 1, n => bigEndian width (n / 256) ++ [UInt8.ofNat n]

/-- The number a string of bytes stands for, most significant byte first. -/
def ofBigEndian (bs : Bytes) : Nat :=
  bs.foldl (fun n b => n * 256 + b.toNat) 0

@[simp] theorem length_bigEndian (width n : Nat) :
    (bigEndian width n).length = width := by
  induction width generalizing n with
  | zero => rfl
  | succ width ih => simp [bigEndian, ih]

theorem ofBigEndian_append (bs : Bytes) (b : UInt8) :
    ofBigEndian (bs ++ [b]) = ofBigEndian bs * 256 + b.toNat := by
  simp [ofBigEndian]

/-- Writing a number on `width` bytes keeps it modulo `256 ^ width`. -/
@[simp] theorem ofBigEndian_bigEndian (width n : Nat) :
    ofBigEndian (bigEndian width n) = n % Nat.pow 256 width := by
  induction width generalizing n with
  | zero => simp [bigEndian, ofBigEndian, Nat.mod_one]
  | succ width ih =>
      have split : n % Nat.pow 256 (width + 1) = n % 256 + 256 * (n / 256 % Nat.pow 256 width) := by
        rw [Nat.pow_eq, Nat.pow_succ, Nat.mul_comm, Nat.mod_mul, Nat.pow_eq]
      rw [bigEndian, ofBigEndian_append, ih, split, UInt8.toNat_ofNat']
      omega

/-- A string of bytes stands for a number that its width can hold. -/
theorem ofBigEndian_lt (bs : Bytes) : ofBigEndian bs < Nat.pow 256 bs.length := by
  induction hn : bs.length generalizing bs with
  | zero => simp [List.length_eq_zero_iff.mp hn, ofBigEndian]
  | succ n ih =>
      obtain rfl | ⟨start, b, rfl⟩ := List.eq_nil_or_concat bs
      · contradiction
      · have hstart := ih start (by simpa using hn)
        have hb := b.toNat_lt
        rw [List.concat_eq_append, ofBigEndian_append, Nat.pow_eq, Nat.pow_succ]
        rw [Nat.pow_eq] at hstart
        omega

/-- The two conversions are inverse to each other on a string's own width. -/
theorem bigEndian_ofBigEndian (bs : Bytes) : bigEndian bs.length (ofBigEndian bs) = bs := by
  induction hn : bs.length generalizing bs with
  | zero => simp [List.length_eq_zero_iff.mp hn, bigEndian]
  | succ n ih =>
      obtain rfl | ⟨start, b, rfl⟩ := List.eq_nil_or_concat bs
      · contradiction
      · have hb := b.toNat_lt
        have hrest : (ofBigEndian start * 256 + b.toNat) / 256 = ofBigEndian start := by omega
        have hlast : UInt8.ofNat (ofBigEndian start * 256 + b.toNat) = b := by
          apply UInt8.toNat_inj.mp
          rw [UInt8.toNat_ofNat']
          omega
        rw [List.concat_eq_append, ofBigEndian_append, bigEndian, hrest, hlast,
          ih start (by simpa using hn)]

namespace Bytes

/-- Bytewise lexicographic order, a proper beginning first. -/
def before : Bytes → Bytes → Bool
  | [], _ => true
  | _ :: _, [] => false
  | a :: as, b :: bs => if a = b then before as bs else a < b

/-- The strings in bytewise order, equal ones in the order given. -/
def sorted (names : List Bytes) : List Bytes :=
  names.mergeSort before

/-- The first `n` bytes and the rest, if there are that many. -/
def splitExact? (n : Nat) (bs : Bytes) : Option (Bytes × Bytes) :=
  let head := bs.take n
  if head.length = n then some (head, bs.drop n) else none

theorem splitExact?_eq_some_iff {n : Nat} {bs head rest : Bytes} :
    splitExact? n bs = some (head, rest) ↔ bs = head ++ rest ∧ head.length = n := by
  constructor
  · intro h
    simp only [splitExact?] at h
    split at h
    · simp only [Option.some.injEq, Prod.mk.injEq] at h
      obtain ⟨rfl, rfl⟩ := h
      exact ⟨(List.take_append_drop n bs).symm, ‹_›⟩
    · contradiction
  · rintro ⟨rfl, rfl⟩
    simp [splitExact?]

theorem splitExact?_eq_none_iff {n : Nat} {bs : Bytes} :
    splitExact? n bs = none ↔ bs.length < n := by
  simp only [splitExact?, List.length_take]
  split <;> simp <;> omega

/-- The bytes before the first zero byte: the part of a name the system sees. -/
def untilZero (bs : Bytes) : Bytes := bs.takeWhile (· ≠ 0)

/-- The lines of a text; a final newline ends the last line. -/
def lines (bs : Bytes) : List Bytes :=
  let (last, done) := bs.foldl
    (fun (line, done) b => if b = 10 then ([], line.reverse :: done) else (b :: line, done))
    (([] : Bytes), ([] : List Bytes))
  (if last.isEmpty then done else last.reverse :: done).reverse

end Bytes

end SearchDaemon
