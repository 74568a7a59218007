/-!
# Code-point escapes

A character can be written as a backslash, the letter `u` and the four hexadecimal digits
of its code point. The digits are read one at a time and may be in either case; a plus
sign may stand in place of the first of them. Four digits that name a surrogate name no
character.
-/

namespace StringTransform

/-- The four digits of a code-point escape, as far as they have been read. -/
structure CodeDigits where
  count : Nat
  value : Nat
  deriving DecidableEq, Repr

/-- The value of a hexadecimal digit in either case. -/
def hexValue? (c : Char) : Option Nat :=
  if c.isDigit then some (c.toNat - '0'.toNat)
  else if 'a' ≤ c && c ≤ 'f' then some (c.toNat - 'a'.toNat + 10)
  else if 'A' ≤ c && c ≤ 'F' then some (c.toNat - 'A'.toNat + 10)
  else none

namespace CodeDigits

/-- No digit has been read. -/
def empty : CodeDigits := ⟨0, 0⟩

/-- Takes one more digit. A plus sign may stand in place of the first one. -/
def extend? (digits : CodeDigits) (c : Char) : Option CodeDigits :=
  if digits.count == 0 && c == '+' then some ⟨1, 0⟩
  else (hexValue? c).map fun d => ⟨digits.count + 1, 16 * digits.value + d⟩

/-- The character that the digits name, unless their value is a surrogate. -/
def char? (digits : CodeDigits) : Option Char :=
  if digits.value.isValidChar then some (Char.ofNat digits.value) else none

end CodeDigits

end StringTransform
