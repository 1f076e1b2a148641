import SearchDaemon.Bytes

/-!
# Numerals at the beginning of a text

A decimal numeral may follow white space and a sign, and whatever comes after it
is left alone.
-/

namespace SearchDaemon.Numeral

/-- The bytes that count as white space. -/
def isSpace (b : UInt8) : Bool := b = 32 || (9 ≤ b && b ≤ 13)

def isDigit (b : UInt8) : Bool := 48 ≤ b && b ≤ 57

/-- The number that a string of decimal digits stands for. -/
def ofDigits (digits : Bytes) : Nat :=
  digits.foldl (fun n b => n * 10 + (b.toNat - 48)) 0

/-- The integer at the beginning of a text. Nothing if there is no digit where one
would be. -/
def leading? (bs : Bytes) : Option Int :=
  let bs := bs.dropWhile isSpace
  let (negative, bs) := match bs with
    | 45 :: rest => (true, rest)
    | 43 :: rest => (false, rest)
    | _ => (false, bs)
  let digits := bs.takeWhile isDigit
  if digits.isEmpty then none
  else some (if negative then -(ofDigits digits : Int) else ofDigits digits)

/-- The least number that is too large for a signed number of so many bits. -/
def limit (bits : Nat) : Int := Int.ofNat (Nat.pow 2 (bits - 1))

/-- The integers that fit a signed number of so many bits. -/
def fits (bits : Nat) (n : Int) : Bool := -limit bits ≤ n && n < limit bits

/-- The 32 low-order bits of an integer, as a signed number. -/
def low32 (n : Int) : Int := n.bmod 4294967296

end SearchDaemon.Numeral
