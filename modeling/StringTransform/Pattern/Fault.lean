/-!
# What can be wrong with a pattern text

Offsets count the bytes of the UTF-8 form of the pattern text and point at the character
that is to blame: the bracket left open, the parenthesis that closes nothing, the
quantifier, or the backslash of the escape.
-/

namespace StringTransform

/-- The ways in which a pattern text fails to denote a pattern. -/
inductive PatternFault where
  /-- The text ends inside the group opened at `offset`. -/
  | unclosedGroup (offset : Nat)
  /-- The text ends inside the character set opened at `offset`. -/
  | unclosedSet (offset : Nat)
  /-- The closing parenthesis at `offset` closes nothing. -/
  | unmatchedParen (offset : Nat)
  /-- The text ends with a backslash that escapes nothing. -/
  | danglingEscape
  /-- The quantifier at `offset` has nothing to apply to. -/
  | nothingToRepeat (quantifier : Char) (offset : Nat)
  /-- A group opens with a question mark and an unknown character. -/
  | unsupportedGroup (kind : Char)
  /-- The code-point escape at `offset` names no character. -/
  | invalidUnicodeEscape (offset : Nat)
  /-- A range ends before it starts, or its end is no character. -/
  | invalidRange (lo hi : Char)
  deriving DecidableEq, Repr

/-- The wording of a fault. -/
def PatternFault.message : PatternFault → String
  | .unclosedGroup offset => s!"unclosed group opened at offset {offset}"
  | .unclosedSet offset => s!"unclosed character class opened at offset {offset}"
  | .unmatchedParen offset => s!"unmatched ')' at offset {offset}"
  | .danglingEscape => "pattern ends with a lone backslash"
  | .nothingToRepeat quantifier offset =>
    s!"quantifier '{quantifier}' at offset {offset} has nothing to repeat"
  | .unsupportedGroup kind => s!"unsupported group kind '(?{kind}'"
  | .invalidUnicodeEscape offset => s!"invalid \\u escape at offset {offset}"
  | .invalidRange lo hi => s!"invalid class range {lo}-{hi}"

end StringTransform
