import StringTransform.Pattern.Matching

/-!
# Patterns and texts read from right to left

Reversing a text puts its characters in the opposite order, and reversing a pattern puts
the members of every sequence in the opposite order and exchanges the two ends of the
text. The end that allows for a final line feed and the lookaheads have no counterpart:
they are left as they are, and what is said about reversal is said of patterns without
them.

## Main definitions

* `Text.reverse` — the characters in the opposite order
* `Anchor.reverse`, `Pattern.reverse` — the pattern read from right to left
* `Pattern.parts` — a pattern and everything it is made of, at any depth

## Main results

* `Pattern.reverse_reverse` — reversing twice changes nothing
-/

namespace StringTransform

/-- The characters of a text in the opposite order. -/
def Text.reverse (text : Text) : Text :=
  .ofList text.toList.reverse

@[simp] theorem Text.size_reverse (text : Text) : text.reverse.size = text.size := by
  rw [← length_toList, reverse, toList_ofList, List.length_reverse, length_toList]

/-- The assertion at the opposite end, as far as there is one. -/
def Anchor.reverse : Anchor → Anchor
  | .textStart => .absoluteEnd
  | .textEnd => .textEnd
  | .absoluteEnd => .textStart
  | .wordBoundary negated => .wordBoundary negated

namespace Pattern

mutual

/-- The pattern read from right to left. -/
def reverse : Pattern → Pattern
  | .seq ps => .seq (reverseAll ps).reverse
  | .alt ps => .alt (reverseAll ps)
  | .quantified q p => .quantified q (reverse p)
  | .group p => .group (reverse p)
  | .look negated p => .look negated (reverse p)
  | .anchor a => .anchor a.reverse
  | .single t => .single t

/-- The patterns of a list, each read from right to left, in the order of the list. -/
def reverseAll : List Pattern → List Pattern
  | [] => []
  | p :: ps => reverse p :: reverseAll ps

end

mutual

/-- The pattern itself and everything it is made of, at any depth. -/
def parts : Pattern → List Pattern
  | .seq ps => .seq ps :: partsAll ps
  | .alt ps => .alt ps :: partsAll ps
  | .quantified q p => .quantified q p :: parts p
  | .group p => .group p :: parts p
  | .look negated p => .look negated p :: parts p
  | .anchor a => [.anchor a]
  | .single t => [.single t]

/-- Everything that the patterns of a list are made of. -/
def partsAll : List Pattern → List Pattern
  | [] => []
  | p :: ps => parts p ++ partsAll ps

end

theorem reverseAll_eq_map (ps : List Pattern) : reverseAll ps = ps.map reverse := by
  induction ps with
  | nil => rfl
  | cons p ps ih => simp [reverseAll, ih]

/-- Reversing a pattern twice changes nothing. -/
theorem reverse_reverse (p : Pattern) : p.reverse.reverse = p := by
  induction p using induct (L := fun ps => (ps.map reverse).map reverse = ps) with
  | seq ps ih => simpa [reverse, reverseAll_eq_map, List.map_reverse] using ih
  | alt ps ih => simpa [reverse, reverseAll_eq_map] using ih
  | quantified q p ih => simp [reverse, ih]
  | group p ih => simp [reverse, ih]
  | look negated p ih => simp [reverse, ih]
  | anchor a => cases a <;> rfl
  | single t => rfl
  | nil => rfl
  | cons p ps ih ihs => rw [List.map_cons, List.map_cons, ih, ihs]

end Pattern

end StringTransform
