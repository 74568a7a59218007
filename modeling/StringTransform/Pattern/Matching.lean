import StringTransform.Pattern.Repetition
import StringTransform.Text.Basic

/-!
# Matching

A pattern can be matched in two directions: forward from an index where a match starts,
which gives the indices where it can end, and backward from an index where a match ends,
which gives the indices where it can start. Either way the result lists each index once
and in the order of preference, earlier branches before later ones and more repetitions
before fewer. Backward matching goes through a sequence from its last member to its
first. Assertions are about an index and do not depend on the direction; a lookahead
always looks forward.

## Main definitions

* `Direction` — the two directions, with the step over one character and the room left
* `Anchor.holds` — whether an assertion holds at an index
* `Pattern.reach` — the indices at the other end of a match
* `Pattern.ends`, `Pattern.starts` — forward and backward matching
-/

namespace StringTransform

/-- The direction in which a text is walked. -/
inductive Direction where
  | forward
  | backward
  deriving DecidableEq, Repr

namespace Direction

/-- How many characters lie ahead of an index. -/
def room (text : Text) : Direction → Nat → Nat
  | .forward, i => text.size - i
  | .backward, i => i

/-- The character ahead of an index, and the index behind it. -/
def next? (text : Text) : Direction → Nat → Option (Char × Nat)
  | .forward, i => (text.get? i).map (·, i + 1)
  | .backward, 0 => none
  | .backward, i + 1 => (text.get? i).map (·, i)

end Direction

/-- Whether a word character stands before an index. -/
def Text.wordBefore (text : Text) : Nat → Bool
  | 0 => false
  | i + 1 => (text.get? i).any isWordChar

/-- Whether a word character stands at an index. -/
def Text.wordAt (text : Text) (i : Nat) : Bool :=
  (text.get? i).any isWordChar

/-- Whether an assertion holds at an index. -/
def Anchor.holds (text : Text) (i : Nat) : Anchor → Bool
  | .textStart => i == 0
  | .textEnd => i == text.size || (i + 1 == text.size && text.get? i == some '\n')
  | .absoluteEnd => i == text.size
  | .wordBoundary negated => (text.wordBefore i != text.wordAt i) != negated

namespace Pattern

mutual

/-- The indices that a match from `i` on can reach in the given direction, each once and
the preferred ones first. -/
def reach (text : Text) (d : Direction) : Pattern → Nat → List Nat
  | .seq ps, i => reachSeq text d ps [i]
  | .alt ps, i => distinct (reachAlt text d ps i)
  | .quantified q p, i => q.reach (d.room text) (reach text d p) i
  | .group p, i => reach text d p i
  | .look negated p, i => if (reach text .forward p i).isEmpty == negated then [i] else []
  | .anchor a, i => if a.holds text i then [i] else []
  | .single t, i =>
    match d.next? text i with
    | none => []
    | some (c, j) => if t.holds c then [j] else []

/-- The indices that matches of all members, one behind the other, reach from any of the
indices `is`. -/
def reachSeq (text : Text) (d : Direction) : List Pattern → List Nat → List Nat
  | [], is => is
  | p :: ps, is =>
    match d with
    | .forward => reachSeq text d ps (distinct (is.flatMap (reach text d p)))
    | .backward => distinct ((reachSeq text d ps is).flatMap (reach text d p))

/-- The indices that matches of the branches reach, branch after branch. -/
def reachAlt (text : Text) (d : Direction) : List Pattern → Nat → List Nat
  | [], _ => []
  | p :: ps, i => reach text d p i ++ reachAlt text d ps i

end

/-- The indices at which a match that starts at `i` can end. -/
def ends (p : Pattern) (text : Text) (i : Nat) : List Nat :=
  p.reach text .forward i

/-- The indices at which a match that ends at `i` can start. -/
def starts (p : Pattern) (text : Text) (i : Nat) : List Nat :=
  p.reach text .backward i

end Pattern

end StringTransform
