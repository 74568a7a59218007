import StringTransform.Token.Basic

/-!
# Combining tokens

Tokens are put side by side by putting their texts side by side. A token that is a
sequence becomes part of the larger sequence; a token with alternatives at the top is
first put into a group, so that its bars do not reach into its neighbours.
-/

namespace StringTransform.Token

/-- A token as a part of a sequence: its text and its members. -/
def operand (t : Token) : String × List Pattern :=
  match t.pattern with
  | .seq members => (t.source, members)
  | .alt branches => ("(?:" ++ t.source ++ ")", [.group (.alt branches)])
  | p => (t.source, [p])

/-- The first token immediately followed by the second. -/
def append (s t : Token) : Token :=
  ⟨s.operand.1 ++ t.operand.1, .seq (s.operand.2 ++ t.operand.2)⟩

/-- The first token immediately followed by the second, starting and ending at word
boundaries. -/
def appendBounded (s t : Token) : Token :=
  ⟨"\\b" ++ s.operand.1 ++ t.operand.1 ++ "\\b",
    .seq (.anchor (.wordBoundary false) ::
      (s.operand.2 ++ t.operand.2 ++ [.anchor (.wordBoundary false)]))⟩

/-- The assertion that the token does not match from an index on. -/
def absent (t : Token) : Token :=
  ⟨"(?!" ++ t.source ++ ")", .seq [.look true t.pattern]⟩

end StringTransform.Token
