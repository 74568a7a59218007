import StringTransform.Text.Printable

/-!
# Quoted text

A text is quoted by double quotes around it. Inside, a double quote and a backslash are
preceded by a backslash, four control characters have a letter of their own, and any
other hidden character is written as its code point in braces. Everything else stands
for itself, so that quoted text can be read back.
-/

namespace StringTransform

namespace Quoted

/-- The code point of a character in hexadecimal digits, without leading zeros. -/
def codePoint (c : Char) : List Char :=
  Nat.toDigits 16 c.toNat

/-- How a character is written between the quotes. -/
def encodeChar (c : Char) : List Char :=
  if c = '"' ∨ c = '\\' then ['\\', c]
  else if c = '\t' then ['\\', 't']
  else if c = '\r' then ['\\', 'r']
  else if c = '\n' then ['\\', 'n']
  else if c = '\x00' then ['\\', '0']
  else if isHidden c then ['\\', 'u', '\x7b'] ++ codePoint c ++ ['\x7d']
  else [c]

/-- The quoted form of a text. -/
def encode (cs : List Char) : List Char :=
  '"' :: cs.flatMap encodeChar ++ ['"']

end Quoted

/-- The quoted form of a string. -/
def quote (s : String) : String :=
  String.ofList (Quoted.encode s.toList)

end StringTransform
