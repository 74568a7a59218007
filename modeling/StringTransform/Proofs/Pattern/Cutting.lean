import StringTransform.Proofs.Pattern.Carrying

/-!
# Matching in a part of a text

Some tests cut a text at an index and match in what follows it, or in what comes before it. A
pattern that does not look over the cut does the same there as in the whole text, in the same
order: behind the cut all indices are shifted, in front of it they stay as they are. Only the
start of the text and word boundaries look back over a cut. Its ends, word boundaries and
lookaheads look ahead. A pattern without assertions looks at nothing but the characters it
consumes.

## Main definitions

* `Anchor.looksBack`, `Anchor.looksAhead` — the anchors that depend on what comes before an index,
  or after it
* `Pattern.NeverLooksBack`, `Pattern.NeverLooksAhead` — no part of the pattern looks over a cut
* `Pattern.Plain` — no part of the pattern is an assertion

## Main results

* `Direction.embeds_drop`, `Direction.embeds_take` — what a cut leaves of a text
* `Pattern.ends_drop`, `Pattern.starts_take` — matching in a part as in the whole text
* `Pattern.matches_drop` — the same for the matches behind a cut, without their order
-/

namespace StringTransform

/-- Whether the anchor depends on what comes before an index. -/
def Anchor.looksBack : Anchor → Bool
  | .textStart | .wordBoundary _ => true
  | .textEnd | .absoluteEnd => false

/-- Whether the anchor depends on what comes after an index. -/
def Anchor.looksAhead : Anchor → Bool
  | .textEnd | .absoluteEnd | .wordBoundary _ => true
  | .textStart => false

namespace Pattern

/-- Whether the pattern asserts something about an index and consumes nothing. -/
def isAssertion : Pattern → Bool
  | .look _ _ | .anchor _ => true
  | _ => false

/-- Whether the pattern itself, whatever it is made of, depends on what comes before the index
where it starts. -/
def looksBack : Pattern → Bool
  | .anchor a => a.looksBack
  | _ => false

/-- Whether the pattern itself, whatever it is made of, depends on what comes after the index
where it ends. -/
def looksAhead : Pattern → Bool
  | .anchor a => a.looksAhead
  | .look _ _ => true
  | _ => false

/-- No part of the pattern is the start of the text or a word boundary. -/
def NeverLooksBack (p : Pattern) : Prop :=
  ∀ q ∈ p.parts, q.looksBack = false

/-- No part of the pattern is one of the ends of the text, a word boundary or a lookahead. -/
def NeverLooksAhead (p : Pattern) : Prop :=
  ∀ q ∈ p.parts, q.looksAhead = false

/-- No part of the pattern is an anchor, a word boundary or a lookahead. -/
def Plain (p : Pattern) : Prop :=
  ∀ q ∈ p.parts, q.isAssertion = false

instance (p : Pattern) : Decidable p.NeverLooksBack :=
  inferInstanceAs (Decidable (∀ q ∈ p.parts, q.looksBack = false))

instance (p : Pattern) : Decidable p.NeverLooksAhead :=
  inferInstanceAs (Decidable (∀ q ∈ p.parts, q.looksAhead = false))

instance (p : Pattern) : Decidable p.Plain :=
  inferInstanceAs (Decidable (∀ q ∈ p.parts, q.isAssertion = false))

theorem Plain.neverLooksBack {p : Pattern} (plain : p.Plain) : p.NeverLooksBack := by
  intro q hq
  cases q with
  | anchor a => cases plain _ hq
  | _ => rfl

end Pattern

variable {text : Text} {n i j : Nat}

/-! ### What a cut leaves -/

/-- Forward, what follows a cut looks as the whole text does from the cut on. -/
theorem Direction.embeds_drop (text : Text) (n : Nat) :
    Direction.forward.Embeds (fun _ => True) (n + ·) text (text.drop n) where
  next i _ := by
    simp only [next?, Text.get?_drop, Option.map_map]
    rfl
  closed _ _ _ _ _ := trivial
  room i _ := by simp [room, Nat.sub_add_eq]

/-- Backward, what comes before a cut looks as the whole text does up to the cut. -/
theorem Direction.embeds_take (text : Text) (n : Nat) :
    Direction.backward.Embeds (· ≤ n) id text (text.take n) where
  next i hi := by
    cases i with
    | zero => rfl
    | succ i =>
      have before : i < n := hi
      simp [next?, Text.get?_take, before]
  closed i hi c j next := by
    cases i with
    | zero => cases next
    | succ i =>
      obtain ⟨_, _, ahead⟩ := Option.map_eq_some_iff.mp next
      cases ahead
      exact Nat.le_of_succ_le hi
  room _ _ := rfl

/-- An anchor that does not look back asserts the same behind a cut. -/
theorem Anchor.holds_drop {a : Anchor} (forward : a.looksBack = false) (inside : n ≤ text.size) :
    a.holds (text.drop n) i = a.holds text (n + i) := by
  cases a with
  | textStart | wordBoundary negated => cases forward
  | textEnd =>
    have atEnd : i = text.size - n ↔ n + i = text.size := by omega
    have beforeEnd : i + 1 = text.size - n ↔ n + i + 1 = text.size := by omega
    rw [Bool.eq_iff_iff]
    simp [holds, Text.get?_drop, atEnd, beforeEnd]
  | absoluteEnd =>
    have atEnd : i = text.size - n ↔ n + i = text.size := by omega
    rw [Bool.eq_iff_iff]
    simp [holds, atEnd]

/-- An anchor that does not look ahead asserts the same in front of a cut. -/
theorem Anchor.holds_take {a : Anchor} (backward : a.looksAhead = false) :
    a.holds (text.take n) i = a.holds text i := by
  cases a with
  | textStart => rfl
  | _ => cases backward

/-! ### Matching in a part of a text -/

namespace Pattern

variable {p : Pattern}

/-- Behind a cut, a pattern that never looks back has the ends that it has in the whole text, in
the same order. -/
theorem ends_drop (forward : p.NeverLooksBack) (inside : n ≤ text.size) :
    p.ends text (n + i) = (p.ends (text.drop n) i).map (n + ·) := by
  have alike : ∀ q ∈ p.parts,
      q.AssertsAlike .forward (fun _ => True) (n + ·) text (text.drop n) := by
    intro q hq
    cases q with
    | anchor a => exact fun i _ => (Anchor.holds_drop (forward _ hq) inside).symm
    | look negated body => exact rfl
    | _ => trivial
  have carried := carries_enumerate (Direction.embeds_drop text n) alike
  rw [ends, ends, reach_eq_eraseDups, reach_eq_eraseDups]
  exact carried.eraseDups_eq (fun i j _ _ => Nat.add_left_cancel) trivial

/-- In front of a cut, a pattern that never looks ahead has the starts that it has in the whole
text, in the same order. -/
theorem starts_take (backward : p.NeverLooksAhead) (before : i ≤ n) :
    p.starts (text.take n) i = p.starts text i := by
  have alike : ∀ q ∈ p.parts, q.AssertsAlike .backward (· ≤ n) id text (text.take n) := by
    intro q hq
    cases q with
    | anchor a => exact fun i _ => (Anchor.holds_take (backward _ hq)).symm
    | look negated body => cases backward _ hq
    | _ => trivial
  have carried := carries_enumerate (Direction.embeds_take text n) alike
  rw [starts, starts, reach_eq_eraseDups, reach_eq_eraseDups]
  simpa using (carried.eraseDups_eq (fun i j _ _ => id) before).symm

/-- Behind a cut, a pattern that never looks back matches where it does in the whole text. -/
theorem matches_drop (forward : p.NeverLooksBack) (inside : n ≤ text.size) :
    p.Matches (text.drop n) i j ↔ p.Matches text (n + i) (n + j) := by
  rw [← mem_ends, ← mem_ends, ends_drop forward inside]
  exact (List.mem_map_of_injective fun _ _ => Nat.add_left_cancel).symm

end Pattern

end StringTransform
