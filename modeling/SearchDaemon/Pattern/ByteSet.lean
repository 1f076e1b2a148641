import SearchDaemon.Bytes

/-!
# Sets of bytes

What one step of a pattern accepts: single bytes, ranges, named classes and
their complements, gathered in a bracket expression or standing alone. Classes
know ASCII only; ranges compare bytes as signed numbers, so those from 128 up
come before all others.
-/

namespace SearchDaemon

/-- The named classes. -/
inductive ByteClass where
  | alnum | alpha | blank | cntrl | digit | graph | lower | print | punct | space | upper
  | xdigit | word
deriving DecidableEq, Repr

namespace ByteClass

def isLower (b : UInt8) : Bool := 97 ≤ b && b ≤ 122

def isUpper (b : UInt8) : Bool := 65 ≤ b && b ≤ 90

def isDigit (b : UInt8) : Bool := 48 ≤ b && b ≤ 57

def isAlnum (b : UInt8) : Bool := isLower b || isUpper b || isDigit b

def isHexDigit (b : UInt8) : Bool :=
  isDigit b || (97 ≤ b && b ≤ 102) || (65 ≤ b && b ≤ 70)

/-- Blank, tabs, newline, form feed and carriage return. -/
def isSpace (b : UInt8) : Bool := b = 32 || (9 ≤ b && b ≤ 13)

def contains : ByteClass → UInt8 → Bool
  | .alnum, b => isAlnum b
  | .alpha, b => isLower b || isUpper b
  | .blank, b => b = 32 || b = 9
  | .cntrl, b => b < 32 || b = 127
  | .digit, b => isDigit b
  | .graph, b => 33 ≤ b && b ≤ 126
  | .lower, b => isLower b
  | .print, b => 32 ≤ b && b ≤ 126
  | .punct, b => 33 ≤ b && b ≤ 126 && !isAlnum b
  | .space, b => isSpace b
  | .upper, b => isUpper b
  | .xdigit, b => isHexDigit b
  | .word, b => isAlnum b || b = 95

def toLower (b : UInt8) : UInt8 := if isUpper b then b + 32 else b

/-- The classes by name; `d`, `w` and `s` are short names. -/
def table : List (String × ByteClass) :=
  [("d", .digit), ("w", .word), ("s", .space), ("alnum", .alnum), ("alpha", .alpha),
   ("blank", .blank), ("cntrl", .cntrl), ("digit", .digit), ("graph", .graph),
   ("lower", .lower), ("print", .print), ("punct", .punct), ("space", .space),
   ("upper", .upper), ("xdigit", .xdigit)]

/-- The class with a name, which may be written in any case. -/
def ofName? (name : Bytes) : Option ByteClass :=
  (table.find? fun entry => text entry.1 == name.map toLower).map Prod.snd

end ByteClass

/-- The names of the ASCII bytes in order, as `[.name.]` and `[=name=]` give them. -/
def byteNames : List String :=
  ["NUL", "SOH", "STX", "ETX", "EOT", "ENQ", "ACK", "alert", "backspace", "tab", "newline",
   "vertical-tab", "form-feed", "carriage-return", "SO", "SI", "DLE", "DC1", "DC2", "DC3",
   "DC4", "NAK", "SYN", "ETB", "CAN", "EM", "SUB", "ESC", "IS4", "IS3", "IS2", "IS1",
   "space", "exclamation-mark", "quotation-mark", "number-sign", "dollar-sign",
   "percent-sign", "ampersand", "apostrophe", "left-parenthesis", "right-parenthesis",
   "asterisk", "plus-sign", "comma", "hyphen", "period", "slash", "zero", "one", "two",
   "three", "four", "five", "six", "seven", "eight", "nine", "colon", "semicolon",
   "less-than-sign", "equals-sign", "greater-than-sign", "question-mark", "commercial-at",
   "A", "B", "C", "D", "E", "F", "G", "H", "I", "J", "K", "L", "M", "N", "O", "P", "Q", "R",
   "S", "T", "U", "V", "W", "X", "Y", "Z", "left-square-bracket", "backslash",
   "right-square-bracket", "circumflex", "underscore", "grave-accent", "a", "b", "c", "d",
   "e", "f", "g", "h", "i", "j", "k", "l", "m", "n", "o", "p", "q", "r", "s", "t", "u", "v",
   "w", "x", "y", "z", "left-curly-bracket", "vertical-line", "right-curly-bracket",
   "tilde", "DEL"]

/-- The byte a name stands for. -/
def byteNamed? (name : Bytes) : Option UInt8 :=
  (byteNames.findIdx? fun known => text known == name).map UInt8.ofNat

/-- A byte read as a signed number. -/
def signedByte (b : UInt8) : Int := if b < 128 then b.toNat else (b.toNat : Int) - 256

/-- One term of a set. -/
inductive SetTerm where
  | byte (b : UInt8)
  | range (first last : UInt8)
  | cls (c : ByteClass)
  /-- Every byte outside a class. -/
  | outside (c : ByteClass)
  /-- Every byte that differs from this one in case at most. -/
  | equivalent (b : UInt8)
deriving DecidableEq, Repr

namespace SetTerm

def contains : SetTerm → UInt8 → Bool
  | .byte a, b => a = b
  | .range first last, b => signedByte first ≤ signedByte b && signedByte b ≤ signedByte last
  | .cls c, b => c.contains b
  | .outside c, b => !c.contains b
  | .equivalent a, b => ByteClass.toLower a = ByteClass.toLower b

end SetTerm

/-- The union of some terms, or its complement. -/
structure ByteSet where
  negated : Bool := false
  terms : List SetTerm
deriving DecidableEq, Repr

namespace ByteSet

def contains (s : ByteSet) (b : UInt8) : Bool :=
  (s.terms.any fun term => term.contains b) != s.negated

/-- The set of one byte. -/
def single (b : UInt8) : ByteSet := { terms := [.byte b] }

/-- Every byte but the line ends: what a dot accepts. -/
def notLineEnd : ByteSet := { negated := true, terms := [.byte 10, .byte 13] }

theorem contains_single (a b : UInt8) : (single a).contains b = decide (a = b) := by
  simp [single, contains, SetTerm.contains]

end ByteSet

end SearchDaemon
