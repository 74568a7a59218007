import StringTransform.Text.Alphanumeric
import StringTransform.Text.Blank

/-!
# Patterns

A pattern describes stretches of a text. Its leaves either test one character or
assert something about an index without consuming anything; sequences, alternatives,
quantifiers, groups and lookaheads combine them. Trees are free: a quantifier may apply
to any pattern, and a sequence may directly contain a sequence.

## Main definitions

* `Item` — a member of a character set, with `Item.contains`
* `CharTest` — a test of one character, with `CharTest.holds`
* `Anchor` — an assertion about an index
* `Quantifier` — how often a pattern may occur in a row
* `Pattern` — the trees

## Main results

* `Pattern.induct` — induction over patterns and lists of patterns at once
* `Pattern.same_iff` — `same` decides equality of patterns
-/

namespace StringTransform

/-- A member of a character set. -/
inductive Item where
  | char (c : Char)
  | range (lo hi : Char)
  | digit
  | word
  | space
  deriving DecidableEq, Repr

/-- Whether the member admits the character. Digits are those of ASCII; word characters
and spaces are those of any script. -/
def Item.contains : Item → Char → Bool
  | .char x, c => x == c
  | .range lo hi, c => lo ≤ c && c ≤ hi
  | .digit, c => c.isDigit
  | .word, c => isWordChar c
  | .space, c => isBlank c

/-- A test of one character. -/
inductive CharTest where
  | literal (c : Char)
  /-- Any character but the line feed. -/
  | dot
  | digit (negated : Bool)
  | word (negated : Bool)
  | space (negated : Bool)
  | set (negated : Bool) (items : List Item)
  deriving DecidableEq, Repr

/-- Whether a character passes the test. -/
def CharTest.holds : CharTest → Char → Bool
  | .literal x, c => x == c
  | .dot, c => c != '\n'
  | .digit negated, c => c.isDigit != negated
  | .word negated, c => isWordChar c != negated
  | .space negated, c => isBlank c != negated
  | .set negated items, c => items.any (·.contains c) != negated

/-- An assertion about an index of a text. -/
inductive Anchor where
  /-- Before the first character. -/
  | textStart
  /-- After the last character, or before a line feed that is the last character. -/
  | textEnd
  /-- After the last character. -/
  | absoluteEnd
  /-- Between a word character and something else, or not so if `negated`. -/
  | wordBoundary (negated : Bool)
  deriving DecidableEq, Repr

/-- How often a pattern may occur in a row. More occurrences are always preferred. -/
inductive Quantifier where
  | zeroOrOne
  | zeroOrMore
  | oneOrMore
  deriving DecidableEq, Repr

/-- A pattern over texts. -/
inductive Pattern where
  /-- One member after the other. -/
  | seq (members : List Pattern)
  /-- One of the branches, earlier ones preferred. -/
  | alt (branches : List Pattern)
  | quantified (q : Quantifier) (body : Pattern)
  | group (body : Pattern)
  /-- Something that matches from here on, or nothing that does if `negated`. -/
  | look (negated : Bool) (body : Pattern)
  | anchor (a : Anchor)
  | single (t : CharTest)
  deriving Repr

namespace Pattern

instance : Inhabited Pattern := ⟨.seq []⟩

/-- Induction over patterns together with lists of patterns. -/
theorem induct {motive : Pattern → Prop} {L : List Pattern → Prop}
    (seq : ∀ ps, L ps → motive (.seq ps))
    (alt : ∀ ps, L ps → motive (.alt ps))
    (quantified : ∀ q p, motive p → motive (.quantified q p))
    (group : ∀ p, motive p → motive (.group p))
    (look : ∀ negated p, motive p → motive (.look negated p))
    (anchor : ∀ a, motive (.anchor a))
    (single : ∀ t, motive (.single t))
    (nil : L [])
    (cons : ∀ p ps, motive p → L ps → L (p :: ps)) (p : Pattern) : motive p :=
  @Pattern.rec motive L seq alt quantified group look anchor single nil cons p

mutual

/-- Whether two patterns are the same tree. -/
def same : Pattern → Pattern → Bool
  | .seq ps, .seq qs => sameAll ps qs
  | .alt ps, .alt qs => sameAll ps qs
  | .quantified a p, .quantified b q => a == b && same p q
  | .group p, .group q => same p q
  | .look a p, .look b q => a == b && same p q
  | .anchor a, .anchor b => a == b
  | .single s, .single t => s == t
  | _, _ => false

/-- Whether two lists of patterns are the same trees in the same order. -/
def sameAll : List Pattern → List Pattern → Bool
  | [], [] => true
  | p :: ps, q :: qs => same p q && sameAll ps qs
  | _, _ => false

end

theorem same_iff {p q : Pattern} : same p q = true ↔ p = q := by
  induction p using Pattern.induct
    (L := fun ps => ∀ qs, sameAll ps qs = true ↔ ps = qs) generalizing q with
  | seq ps ih => cases q <;> simp [same, ih]
  | alt ps ih => cases q <;> simp [same, ih]
  | quantified a p ih => cases q <;> simp [same, ih]
  | group p ih => cases q <;> simp [same, ih]
  | look a p ih => cases q <;> simp [same, ih]
  | anchor a => cases q <;> simp [same]
  | single t => cases q <;> simp [same]
  | nil qs => cases qs <;> simp [sameAll]
  | cons p ps ih ihs qs => cases qs <;> simp [sameAll, ih, ihs]

instance : DecidableEq Pattern := fun p q =>
  decidable_of_iff (same p q = true) same_iff

end Pattern

end StringTransform
