import StringTransform.Pattern.Matching

/-!
# Enumerating all ways to match

The plainest matcher tries every way to match, one after the other, and notes where each
of them leads: a sequence binds its members one behind the other, alternatives are tried
in their order, and a repetition goes on from every end of its body before it stops. It
visits an index as often as there are ways to get there, so it says what matching means
and is no way to do it.

## Main results

* `again_eq` — a repetition goes on as long as there is progress, and then stops
-/

namespace StringTransform

/-- Where all ways to repeat a step from `i` lead, longer ones first. A step that makes
no progress is not repeated. -/
def again (room : Nat → Nat) (step : Nat → List Nat) (i : Nat) : List Nat :=
  ((step i).flatMap fun j => if room j < room i then again room step j else []) ++ [i]
termination_by room i

/-- A repetition goes on from every step that makes progress, and then stops. -/
theorem again_eq (room : Nat → Nat) (step : Nat → List Nat) (i : Nat) :
    again room step i =
      ((step i).filter (room · < room i)).flatMap (again room step) ++ [i] := by
  rw [again]
  congr 1
  induction step i with
  | nil => rfl
  | cons j js ih => by_cases h : room j < room i <;> simp [h, ih]

namespace Pattern

mutual

/-- Where all ways to match from `i` on lead, in the order in which they are tried. -/
def enumerate (text : Text) (d : Direction) : Pattern → Nat → List Nat
  | .seq ps, i => enumerateSeq text d ps i
  | .alt ps, i => enumerateAlt text d ps i
  | .quantified .zeroOrOne p, i => enumerate text d p i ++ [i]
  | .quantified .zeroOrMore p, i => again (d.room text) (enumerate text d p) i
  | .quantified .oneOrMore p, i =>
    (enumerate text d p i).flatMap (again (d.room text) (enumerate text d p))
  | .group p, i => enumerate text d p i
  | .look negated p, i => if (enumerate text .forward p i).isEmpty == negated then [i] else []
  | .anchor a, i => if a.holds text i then [i] else []
  | .single t, i =>
    match d.next? text i with
    | none => []
    | some (c, j) => if t.holds c then [j] else []

/-- Where all ways to match the members one behind the other lead. -/
def enumerateSeq (text : Text) (d : Direction) : List Pattern → Nat → List Nat
  | [], i => [i]
  | p :: ps, i =>
    match d with
    | .forward => (enumerate text d p i).flatMap (enumerateSeq text d ps)
    | .backward => (enumerateSeq text d ps i).flatMap (enumerate text d p)

/-- Where all ways to match one of the branches lead. -/
def enumerateAlt (text : Text) (d : Direction) : List Pattern → Nat → List Nat
  | [], _ => []
  | p :: ps, i => enumerate text d p i ++ enumerateAlt text d ps i

end

end Pattern

end StringTransform
