import SearchDaemon.Numeral
import SearchDaemon.Pattern.ByteSet
import SearchDaemon.Pattern.Error

/-!
# Pattern tokens

A pattern's text is cut into tokens from left to right. Which token a byte
begins depends only on whether the place is inside brackets, inside braces or
neither, so the cutting needs no knowledge of what the tokens build.

`lex` gives the tokens up to the first fault in the text, and that fault.
-/

namespace SearchDaemon.Pattern

inductive Token where
  | byte (b : UInt8)
  | anyByte
  | lineBegin
  | lineEnd
  | wordBoundary (negated : Bool)
  | star
  | plus
  | question
  | bar
  | groupOpen
  /-- Opens a group that captures nothing. -/
  | plainOpen
  | lookaheadOpen (negated : Bool)
  | close
  | backReference (index : Int)
  /-- A class letter; the upper case letter stands for the complement. -/
  | classLetter (letter : UInt8)
  | bracketOpen (negated : Bool)
  | bracketClose
  | dash
  | collating (name : Bytes)
  | equivalence (name : Bytes)
  | className (name : Bytes)
  | braceOpen
  | count (n : Int)
  | comma
  | braceClose
deriving DecidableEq, Repr

/-- Where in a pattern the cutting stands. -/
inductive Region where
  | plain
  | bracket
  | brace
deriving DecidableEq, Repr

/-- A decimal numeral, cut to a signed number of 32 bits. -/
def cutDecimal (digits : Bytes) : Int :=
  Numeral.low32 (Numeral.ofDigits digits)

def hexValue (d : UInt8) : Nat :=
  if ByteClass.isDigit d then d.toNat - 48
  else (ByteClass.toLower d).toNat - 87

/-- The byte a hexadecimal numeral stands for, cut to its last two digits. -/
def hexByte (digits : Bytes) : UInt8 :=
  UInt8.ofNat (digits.foldl (fun n d => n * 16 + hexValue d) 0)

/-- The byte a single-letter escape stands for. -/
def escaped? : UInt8 → Option UInt8
  | 48 => some 0
  | 98 => some 8
  | 102 => some 12
  | 110 => some 10
  | 114 => some 13
  | 116 => some 9
  | 118 => some 11
  | _ => none

/-- What is left after exactly `n` hexadecimal digits, with the digits. -/
def takeHex? (n : Nat) (bs : Bytes) : Option (Bytes × Bytes) :=
  let digits := bs.take n
  if digits.length = n && digits.all ByteClass.isHexDigit then some (digits, bs.drop n)
  else none

/-- The token of an escape, whose backslash has been read. -/
def escape (region : Region) : Bytes → Except PatternError (Token × Bytes)
  | [] => .error .escapeAtEndInBracket
  | c :: rest =>
      match escaped? c with
      | some b => if c != 98 || region = .bracket then .ok (.byte b, rest)
          else .ok (.wordBoundary false, rest)
      | none =>
          if c = 66 then .ok (.wordBoundary true, rest)
          else if (ByteClass.toLower c) ∈ [100, 115, 119] then .ok (.classLetter c, rest)
          else if c = 99 then
            match rest with
            | [] => .error .badControlEscape
            | b :: rest => .ok (.byte b, rest)
          else if c = 120 then
            match takeHex? 2 rest with
            | none => .error .badHexEscape
            | some (digits, rest) => .ok (.byte (hexByte digits), rest)
          else if c = 117 then
            match takeHex? 4 rest with
            | none => .error .badUnicodeEscape
            | some (digits, rest) => .ok (.byte (hexByte digits), rest)
          else if ByteClass.isDigit c then
            let digits := rest.takeWhile ByteClass.isDigit
            .ok (.backReference (cutDecimal (c :: digits)), rest.drop digits.length)
          else .ok (.byte c, rest)

/-- The name in a class such as `[:alpha:]`, up to the given mark and a bracket. -/
def enclosedName? (mark : UInt8) (bs : Bytes) : Option (Bytes × Bytes) :=
  let name := bs.takeWhile (· != mark)
  match bs.drop name.length with
  | _ :: 93 :: rest => some (name, rest)
  | _ => none

/-- The token that a byte begins, the region after it, and what is left. -/
def nextToken (region : Region) (c : UInt8) (rest : Bytes) :
    Except PatternError (Token × Region × Bytes) :=
  match region with
  | .plain =>
      match c with
      | 92 =>
          if rest.isEmpty then .error .escapeAtEnd
          else do
            let (token, rest) ← escape .plain rest
            .ok (token, .plain, rest)
      | 40 =>
          match rest with
          | [63] => .error .unbalanced
          | 63 :: 58 :: rest => .ok (.plainOpen, .plain, rest)
          | 63 :: 61 :: rest => .ok (.lookaheadOpen false, .plain, rest)
          | 63 :: 33 :: rest => .ok (.lookaheadOpen true, .plain, rest)
          | 63 :: _ => .error .unknownGroupMark
          | rest => .ok (.groupOpen, .plain, rest)
      | 41 => .ok (.close, .plain, rest)
      | 91 =>
          match rest with
          | 94 :: rest => .ok (.bracketOpen true, .bracket, rest)
          | rest => .ok (.bracketOpen false, .bracket, rest)
      | 123 => .ok (.braceOpen, .brace, rest)
      | 94 => .ok (.lineBegin, .plain, rest)
      | 36 => .ok (.lineEnd, .plain, rest)
      | 46 => .ok (.anyByte, .plain, rest)
      | 42 => .ok (.star, .plain, rest)
      | 43 => .ok (.plus, .plain, rest)
      | 63 => .ok (.question, .plain, rest)
      | 124 => .ok (.bar, .plain, rest)
      | c => .ok (.byte c, .plain, rest)
  | .bracket =>
      match c with
      | 45 => .ok (.dash, .bracket, rest)
      | 91 =>
          match rest with
          | [] => .error .incompleteClass
          | 46 :: rest =>
              match enclosedName? 46 rest with
              | some (name, rest) => .ok (.collating name, .bracket, rest)
              | none => .error .unclosedCollating
          | 58 :: rest =>
              match enclosedName? 58 rest with
              | some (name, rest) => .ok (.className name, .bracket, rest)
              | none => .error .unclosedClass
          | 61 :: rest =>
              match enclosedName? 61 rest with
              | some (name, rest) => .ok (.equivalence name, .bracket, rest)
              | none => .error .unclosedCollating
          | rest => .ok (.byte 91, .bracket, rest)
      | 93 => .ok (.bracketClose, .plain, rest)
      | 92 => do
          let (token, rest) ← escape .bracket rest
          .ok (token, .bracket, rest)
      | c => .ok (.byte c, .bracket, rest)
  | .brace =>
      if ByteClass.isDigit c then
        let digits := rest.takeWhile ByteClass.isDigit
        .ok (.count (cutDecimal (c :: digits)), .brace, rest.drop digits.length)
      else if c = 44 then .ok (.comma, .brace, rest)
      else if c = 125 then .ok (.braceClose, .plain, rest)
      else .error .badBrace

/-- The tokens of a text up to its first fault, and that fault. -/
structure Lexed where
  tokens : List Token
  fault : Option PatternError
deriving DecidableEq, Repr

/-- Cuts at most `fuel` tokens; every token takes at least one byte. -/
def lexFrom : (fuel : Nat) → Region → Bytes → Lexed
  | 0, _, _ => ⟨[], none⟩
  | _ + 1, _, [] => ⟨[], none⟩
  | fuel + 1, region, c :: rest =>
      match nextToken region c rest with
      | .error e => ⟨[], some e⟩
      | .ok (token, region, rest) =>
          let later := lexFrom fuel region rest
          ⟨token :: later.tokens, later.fault⟩

def lex (pattern : Bytes) : Lexed := lexFrom pattern.length .plain pattern

end SearchDaemon.Pattern
