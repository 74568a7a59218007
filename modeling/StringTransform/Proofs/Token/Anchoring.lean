import StringTransform.Proofs.Scan.Greedy
import StringTransform.Proofs.Token.Combination
import StringTransform.Token.Catalogue

/-!
# The tests at the ends of a text

Whether a match starts where the text does is a question to matching forward at one index,
and whether one stops where the text does is a question to matching backward at one index or
two. Both can be asked of a scan as well: put behind the start of the text, or in front of its
end, a token is found exactly if the test succeeds.

## Main results

* `Token.opens_iff`, `Token.closes_iff` — the tests, by matching forward
* `Token.matches_start_append`, `Token.matches_append_stop` — a token next to an anchor
* `Token.tests_agree_with_anchors` — the tests against scans
-/

namespace StringTransform.Token

variable {t : Token} {text : Text} {i j : Nat}

theorem opens_iff : t.opens text = true ↔ ∃ j, t.pattern.Matches text 0 j :=
  Pattern.not_isEmpty_ends_iff

/-- A match stops at the end of the text, or before a line feed that ends it, exactly if
forward matching leads there from some index. -/
theorem closes_iff :
    t.closes text = true ↔
      ∃ e ≤ text.size, ∃ s ≤ e, e ∈ t.pattern.ends text s ∧
        (e = text.size ∨ e + 1 = text.size ∧ text.get? e = some '\n') := by
  rw [closes, Bool.or_eq_true, Bool.and_eq_true, beq_iff_eq, Pattern.not_isEmpty_starts_iff,
    Pattern.not_isEmpty_starts_iff]
  constructor
  · rintro (⟨s, atEnd⟩ | ⟨newline, s, beforeEnd⟩)
    · exact ⟨text.size, Nat.le_refl _, s, atEnd.le, Pattern.mem_ends.mpr atEnd, .inl rfl⟩
    · -- A text with a last character is not empty.
      have inside : text.size - 1 < text.size := by
        by_contra outside
        rw [Text.get?_eq_none_iff.mpr (Nat.le_of_not_lt outside)] at newline
        cases newline
      exact ⟨text.size - 1, Nat.sub_le _ _, s, beforeEnd.le, Pattern.mem_ends.mpr beforeEnd,
        .inr ⟨by omega, newline⟩⟩
  · rintro ⟨e, -, s, -, reached, rfl | ⟨last, newline⟩⟩
    · exact .inl ⟨s, Pattern.mem_ends.mp reached⟩
    · obtain rfl : e = text.size - 1 := by omega
      exact .inr ⟨newline, s, Pattern.mem_ends.mp reached⟩

/-! ### Tokens next to an anchor -/

/-- Behind the start of the text a token matches only there. -/
theorem matches_start_append :
    (Catalogue.start.token.append t).pattern.Matches text i j ↔
      i = 0 ∧ t.pattern.Matches text 0 j := by
  have start : ∀ k, Catalogue.start.token.pattern.Matches text i k ↔ i = k ∧ i = 0 := by
    intro k
    apply (Pattern.matchesSeq_singleton (.anchor .textStart)).trans
    simp [Pattern.Matches, Anchor.holds]
  rw [matches_append]
  constructor
  · rintro ⟨k, atStart, matched⟩
    obtain ⟨rfl, rfl⟩ := (start k).mp atStart
    exact ⟨rfl, matched⟩
  · rintro ⟨rfl, matched⟩
    exact ⟨0, (start 0).mpr ⟨rfl, rfl⟩, matched⟩

/-- In front of the end of the text a token matches if it stops there, or before a line feed
that ends the text. -/
theorem matches_append_stop :
    (t.append Catalogue.stop.token).pattern.Matches text i j ↔
      t.pattern.Matches text i j ∧
        (j = text.size ∨ j + 1 = text.size ∧ text.get? j = some '\n') := by
  have stop : ∀ k, Catalogue.stop.token.pattern.Matches text k j ↔
      k = j ∧ (k = text.size ∨ k + 1 = text.size ∧ text.get? k = some '\n') := by
    intro k
    apply (Pattern.matchesSeq_singleton (.anchor .textEnd)).trans
    simp [Pattern.Matches, Anchor.holds]
  rw [matches_append]
  constructor
  · rintro ⟨k, matched, atEnd⟩
    obtain ⟨rfl, last⟩ := (stop k).mp atEnd
    exact ⟨matched, last⟩
  · rintro ⟨matched, last⟩
    exact ⟨j, matched, (stop j).mpr ⟨rfl, last⟩⟩

/-- A match stops at the end of the text exactly if a scan finds the token in front of the end
of the text. -/
theorem closes_iff_spans_append_stop :
    t.closes text = true ↔ (t.append Catalogue.stop.token).spans text ≠ [] := by
  rw [closes_iff, ne_eq, spans_eq_nil_iff]
  constructor
  · rintro ⟨e, inside, s, before, reached, last⟩ nothing
    have matched : (t.append Catalogue.stop.token).pattern.Matches text s e :=
      matches_append_stop.mpr ⟨Pattern.mem_ends.mp reached, last⟩
    exact Pattern.ends_eq_nil_iff.mp (nothing s (Nat.le_trans before inside)) e matched
  · intro something
    obtain ⟨s, inside, opening⟩ : ∃ s ≤ text.size,
        (t.append Catalogue.stop.token).pattern.ends text s ≠ [] := by
      simpa using something
    obtain ⟨e, matched⟩ := Pattern.ends_ne_nil_iff.mp opening
    obtain ⟨matched, last⟩ := matches_append_stop.mp matched
    exact ⟨e, matched.le_size inside, s, matched.le, Pattern.mem_ends.mpr matched, last⟩

/-- A scan finds the token behind the start of the text once if a match starts there, and else
not at all. -/
theorem count_start_append :
    (Catalogue.start.token.append t).count text = if t.opens text then 1 else 0 := by
  have later : ∀ i, 0 < i → (Catalogue.start.token.append t).pattern.ends text i = [] := by
    intro i pos
    apply Pattern.ends_eq_nil_iff.mpr
    intro j matched
    have := (matches_start_append.mp matched).1
    omega
  have opening : t.opens text = true ↔
      (Catalogue.start.token.append t).pattern.ends text 0 ≠ [] := by
    simp only [opens_iff, Pattern.ends_ne_nil_iff, matches_start_append, true_and]
  by_cases opens : t.opens text = true
  · obtain ⟨j, others, found⟩ := List.exists_cons_of_ne_nil (opening.mp opens)
    have first : ((Catalogue.start.token.append t).pattern.ends text 0).head? = some j := by
      rw [found, List.head?_cons]
    -- Behind the match at the start there is none.
    have rest : (Catalogue.start.token.append t).spansFrom text (max j (0 + 1)) = [] :=
      spansFrom_eq_nil_iff.mpr fun i _ behind => later i (by omega)
    rw [if_pos opens, count, spans, spansFrom_of_head? (Nat.zero_le _) first, rest]
    rfl
  · have nothing : (Catalogue.start.token.append t).spans text = [] := by
      apply spans_eq_nil_iff.mpr
      intro i _
      rcases Nat.eq_zero_or_pos i with rfl | pos
      · exact not_not.mp (mt opening.mpr opens)
      · exact later i pos
    rw [if_neg opens, count, nothing, List.length_nil]

/-- The tests at the ends of a text agree with scans for the token next to an anchor: in front
of the end of the text it is found if a match stops there or before a final line feed, and
behind the start it is found once if a match starts there, and else not at all. -/
theorem tests_agree_with_anchors (t : Token) (text : Text) :
    (t.closes text = true ↔ (t.append Catalogue.stop.token).spans text ≠ []) ∧
      (t.closes text = true ↔ ∃ e ≤ text.size, ∃ s ≤ e, e ∈ t.pattern.ends text s ∧
        (e = text.size ∨ e + 1 = text.size ∧ text.get? e = some '\n')) ∧
      (Catalogue.start.token.append t).count text = if t.opens text then 1 else 0 :=
  ⟨closes_iff_spans_append_stop, closes_iff, count_start_append⟩

end StringTransform.Token
