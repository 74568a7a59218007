import StringTransform.Position.Basic
import StringTransform.Proofs.Pattern.Cutting
import StringTransform.Proofs.Token.Anchoring

/-!
# Tests on a part of a text

Whether an index counts as a boundary is tested on a part of the text: whether the right token
matches at the start of what follows the index, or the left one at the end of what comes before
it. A token that does not look over the cut gives the answer that it gives in the whole text.
What comes before the index may end with a line feed, and a match that stops in front of that is
accepted as well.

## Main results

* `Token.opens_drop_iff`, `Token.closes_take_iff` — the tests on a part, by matching in the whole
* `matching_in_parts` — the same with the lists that matching gives
-/

namespace StringTransform

variable {t : Token} {text : Text} {n : Nat}

namespace Token

/-- A token that never looks back matches at the start of what follows an index exactly if one
of its matches starts at that index. -/
theorem opens_drop_iff (forward : t.pattern.NeverLooksBack) (inside : n ≤ text.size) :
    t.opens (text.drop n) = true ↔ ∃ j, t.pattern.Matches text n j := by
  have shifted : ∀ j, t.pattern.Matches (text.drop n) 0 j ↔ t.pattern.Matches text n (n + j) :=
    fun j => Pattern.matches_drop forward inside
  rw [opens_iff]
  constructor
  · rintro ⟨j, matched⟩
    exact ⟨n + j, (shifted j).mp matched⟩
  · rintro ⟨j, matched⟩
    have := matched.le
    obtain ⟨k, rfl⟩ : ∃ k, j = n + k := ⟨j - n, by omega⟩
    exact ⟨k, (shifted k).mpr matched⟩

/-- A token that never looks ahead matches at the end of what comes before an index exactly if
one of its matches ends at that index, or in front of a line feed that comes before it. -/
theorem closes_take_iff (backward : t.pattern.NeverLooksAhead) (inside : n ≤ text.size) :
    t.closes (text.take n) = true ↔
      t.pattern.starts text n ≠ [] ∨
        ∃ e, e + 1 = n ∧ text.get? e = some '\n' ∧ t.pattern.starts text e ≠ [] := by
  have size : (text.take n).size = n := by rw [Text.size_take, Nat.min_eq_left inside]
  have whole : ∀ e ≤ n, (!(t.pattern.starts (text.take n) e).isEmpty) = true ↔
      t.pattern.starts text e ≠ [] := by
    intro e before
    rw [Pattern.starts_take backward before]
    simp
  rw [closes, size, Bool.or_eq_true, Bool.and_eq_true, beq_iff_eq, whole n (Nat.le_refl n),
    whole (n - 1) (Nat.sub_le n 1), Text.get?_take]
  refine or_congr_right ⟨?_, ?_⟩
  · rintro ⟨newline, matched⟩
    rw [Option.ite_none_right_eq_some] at newline
    exact ⟨n - 1, Nat.sub_add_cancel (Nat.zero_lt_of_lt newline.1), newline.2, matched⟩
  · rintro ⟨e, rfl, newline, matched⟩
    rw [Nat.add_sub_cancel, if_pos (Nat.lt_succ_self e)]
    exact ⟨newline, matched⟩

end Token

/-- Behind a cut a pattern without the start of the text and word boundaries matches as in the
whole text, with shifted indices and in the same order. In front of a cut a pattern without the
ends of the text, word boundaries and lookaheads matches as in the whole text. So the test of
what follows the cut tells whether a match starts there in the whole text, and the test of what
comes before it whether one ends there, or in front of a line feed that comes before the cut. -/
theorem matching_in_parts (cut : n ≤ text.size) :
    (∀ p : Pattern, p.NeverLooksBack →
        ∀ i, p.ends (text.drop n) i = (p.ends text (n + i)).map (· - n)) ∧
      (∀ p : Pattern, p.NeverLooksAhead →
        ∀ i ≤ n, p.starts (text.take n) i = p.starts text i) ∧
      (∀ t : Token, t.pattern.NeverLooksBack →
        (t.opens (text.drop n) = true ↔ t.pattern.ends text n ≠ [])) ∧
      ∀ t : Token, t.pattern.NeverLooksAhead →
        (t.closes (text.take n) = true ↔ t.pattern.starts text n ≠ [] ∨
          ∃ e, e + 1 = n ∧ text.get? e = some '\n' ∧ t.pattern.starts text e ≠ []) := by
  refine ⟨?_, ?_, ?_, ?_⟩
  · intro p forward i
    rw [Pattern.ends_drop forward cut, List.map_map]
    simp [Function.comp_def]
  · exact fun p backward i before => Pattern.starts_take backward before
  · intro t forward
    rw [Token.opens_drop_iff forward cut, Pattern.ends_ne_nil_iff]
  · exact fun t backward => Token.closes_take_iff backward cut

/-- At the start of the second line of a text of two: a letter and a digit that end the text are
found behind the cut, and a letter and a digit that start the text in front of it, also by the
test that has to pass over a line feed. -/
theorem letter_digit_around_line_feed :
    ∃ last first : Token, Token.ofPattern "\\w\\d\\Z" = .ok last ∧
      Token.ofPattern "\\A\\w\\d" = .ok first ∧ last.pattern.NeverLooksBack ∧
      first.pattern.NeverLooksAhead ∧ 3 ≤ (Text.ofString "a1\nb2").size ∧
      last.pattern.ends ((Text.ofString "a1\nb2").drop 3) 0 = [2] ∧
      last.opens ((Text.ofString "a1\nb2").drop 3) = true ∧
      first.pattern.starts ((Text.ofString "a1\nb2").take 3) 2 = [0] ∧
      first.closes ((Text.ofString "a1\nb2").take 3) = true := by
  let last : Token := ⟨"\\w\\d\\Z",
    .seq [.single (.word false), .single (.digit false), .anchor .textEnd]⟩
  let first : Token := ⟨"\\A\\w\\d",
    .seq [.anchor .textStart, .single (.word false), .single (.digit false)]⟩
  have forward : last.pattern.NeverLooksBack := by decide
  have backward : first.pattern.NeverLooksAhead := by decide
  have cut : 3 ≤ (Text.ofString "a1\nb2").size := by decide
  obtain ⟨ends, starts, opens, closes⟩ := matching_in_parts cut
  have ahead : last.pattern.ends (.ofString "a1\nb2") 3 = [5] := by decide +kernel
  have behind : first.pattern.starts (.ofString "a1\nb2") 2 = [0] := by decide +kernel
  refine ⟨last, first, rfl, rfl, forward, backward, cut, ?_, ?_, ?_, ?_⟩
  · rw [ends _ forward, ahead]
    rfl
  · rw [opens _ forward, ahead]
    exact List.cons_ne_nil _ _
  · rw [starts _ backward 2 (by decide), behind]
  · rw [closes _ backward]
    exact .inr ⟨2, rfl, by decide, behind ▸ List.cons_ne_nil _ _⟩

/-- Behind a letter and a line feed the test of what comes before succeeds, although no match of
the letter ends there in the whole text, and the index counts as a boundary. -/
theorem letter_before_line_feed_closes :
    ∃ letter next : Token, Token.ofPattern "a" = .ok letter ∧ Token.ofPattern "b" = .ok next ∧
      letter.pattern.NeverLooksAhead ∧ 2 ≤ (Text.ofString "a\nb").size ∧
      (Position.boundary letter next .last).locate (.ofString "a\nb") = some 2 ∧
      ¬(letter.closes ((Text.ofString "a\nb").take 2) = true ↔
        letter.pattern.starts (.ofString "a\nb") 2 ≠ []) := by
  let letter : Token := ⟨"a", .seq [.single (.literal 'a')]⟩
  let next : Token := ⟨"b", .seq [.single (.literal 'b')]⟩
  have closes : letter.closes ((Text.ofString "a\nb").take 2) = true := by decide +kernel
  have starts : letter.pattern.starts (.ofString "a\nb") 2 = [] := by decide +kernel
  refine ⟨letter, next, rfl, rfl, by decide, by decide, by decide +kernel, ?_⟩
  intro same
  exact same.mp closes starts

end StringTransform
