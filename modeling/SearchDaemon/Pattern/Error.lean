import SearchDaemon.Bytes

/-!
# Why a pattern is refused

One constructor per fault; `PatternError.kind` names the class a fault belongs
to and `PatternError.message` words it.
-/

namespace SearchDaemon

inductive PatternError where
  /-- A parenthesis without its partner, or something that starts no term. -/
  | unbalanced
  | unknownGroupMark
  /-- A bracket expression holds or lacks something, above all its end. -/
  | badBracketTerm
  | incompleteClass
  | emptyRange
  | classStartsRange
  | classEndsRange
  | unclosedClass
  | unclosedCollating
  | unknownClass
  | unknownCollating
  | unknownEquivalence
  | escapeAtEnd
  | escapeAtEndInBracket
  | badControlEscape
  | badHexEscape
  | badUnicodeEscape
  | noSuchGroup
  | openGroup
  | unclosedBrace
  | badBrace
  | tooManyStates
deriving DecidableEq, Repr

namespace PatternError

def kind : PatternError → String
  | .unbalanced | .unknownGroupMark => "paren"
  | .badBracketTerm | .incompleteClass => "brack"
  | .emptyRange | .classStartsRange | .classEndsRange => "range"
  | .unclosedClass => "ctype"
  | .unclosedCollating | .unknownClass | .unknownCollating | .unknownEquivalence => "collate"
  | .escapeAtEnd | .escapeAtEndInBracket | .badControlEscape | .badHexEscape
  | .badUnicodeEscape => "escape"
  | .noSuchGroup | .openGroup => "backref"
  | .unclosedBrace => "brace"
  | .badBrace => "badbrace"
  | .tooManyStates => "space"

def message : PatternError → Bytes
  | .unbalanced => text "Mismatched '(' and ')' in regular expression"
  | .unknownGroupMark => text "Invalid '(?...)' zero-width assertion in regular expression"
  | .badBracketTerm => text "Unexpected character within '[...]' in regular expression"
  | .incompleteClass => text "Incomplete '[[' character class in regular expression"
  | .emptyRange => text "Invalid range in bracket expression."
  | .classStartsRange => text "Invalid start of '[x-x]' range in regular expression"
  | .classEndsRange => text "Invalid end of '[x-x]' range in regular expression"
  | .unclosedClass => text "Invalid character class in regular expression"
  | .unclosedCollating => text "Invalid collating element in regular expression"
  | .unknownClass => text "Invalid character class."
  | .unknownCollating => text "Invalid collate element."
  | .unknownEquivalence => text "Invalid equivalence class."
  | .escapeAtEnd => text "Invalid escape at end of regular expression"
  | .escapeAtEndInBracket => text "Invalid escape in regular expression"
  | .badControlEscape =>
      text "invalid '\\cX' control character in regular expression"
  | .badHexEscape => text "Invalid '\\xNN' control character in regular expression"
  | .badUnicodeEscape => text "Invalid '\\uNNNN' control character in regular expression"
  | .noSuchGroup => text "Back-reference index exceeds current sub-expression count."
  | .openGroup => text "Back-reference referred to an opened sub-expression."
  | .unclosedBrace => text "Mismatched '\x7b' and '\x7d' in regular expression"
  | .badBrace => text "Invalid range in '\x7b\x7d' in regular expression"
  | .tooManyStates =>
      text "Number of NFA states exceeds limit. Please use shorter regex string, " ++
        text "or use smaller brace expression, or make _GLIBCXX_REGEX_STATE_LIMIT larger."

end PatternError

end SearchDaemon
