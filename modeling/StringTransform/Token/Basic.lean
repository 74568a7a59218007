import StringTransform.Fault
import StringTransform.Pattern.Matching
import StringTransform.Pattern.Reading

/-!
# Tokens

A token is a pattern together with the text that denotes it. Two tokens are the same
token if their texts are the same, and a token is shown as its text.
-/

namespace StringTransform

/-- A pattern with the text that denotes it. -/
structure Token where
  source : String
  pattern : Pattern
  deriving Repr

namespace Token

/-- The token of the empty text, which matches the empty stretch at every index. -/
def empty : Token := ⟨"", .seq []⟩

instance : Inhabited Token := ⟨empty⟩

/-- Tokens are compared by their texts. -/
instance : BEq Token := ⟨fun s t => s.source == t.source⟩

instance : ToString Token := ⟨Token.source⟩

theorem beq_iff {s t : Token} : (s == t) = true ↔ s.source = t.source :=
  show (s.source == t.source) = true ↔ _ from beq_iff_eq

/-- The token that a pattern text denotes. -/
def ofPattern (source : String) : Except BuildFault Token :=
  match Pattern.parse source with
  | .ok pattern => .ok ⟨source, pattern⟩
  | .error fault => .error (.pattern source fault)

/-- Whether this is the token of the empty text. -/
def isEmpty (t : Token) : Bool :=
  t.source.isEmpty

/-- The token with its text in quotes. -/
def label (t : Token) : String :=
  "Token(" ++ quote t.source ++ ")"

end Token

end StringTransform
