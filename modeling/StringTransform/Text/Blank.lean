import StringTransform.Text.Ranges

/-!
# Blank characters

The zero-width space and the byte order mark are not blank.
-/

namespace StringTransform

/-- The code points with the property `White_Space`. -/
def Ranges.blank : Ranges := #[
  (0x0009, 0x000D), (0x0020, 0x0020), (0x0085, 0x0085), (0x00A0, 0x00A0),
  (0x1680, 0x1680), (0x2000, 0x200A), (0x2028, 0x2029), (0x202F, 0x202F),
  (0x205F, 0x205F), (0x3000, 0x3000)]

/-- Whether `c` has the property `White_Space`. -/
def isBlank (c : Char) : Bool :=
  Ranges.blank.contains c.toNat

end StringTransform
