import StringTransform.Proofs.Pattern.Cutting
import StringTransform.Proofs.Position.Boundaries
import StringTransform.Proofs.Token.Anchoring

/-!
# Which indices count as boundaries

Counted from the start, the candidates for a boundary are the stops of the spans of the left
token; counted from the end, they are the starts of the spans of the right token, as the scan
from right to left finds them. Each candidate is tested by itself, and an occurrence chooses
among those that pass.

The candidates come in order, but they need not be different indices. Behind a match that is
not empty the scan resumes where the match stops, and may find an empty match there. Then the
index is a candidate twice, and if it passes it counts as two occurrences. This is the only way
in which two occurrences can be the same index, and no index counts as three.

## Main definitions

* `Position.CountsFromStart`, `Position.CountsFromEnd` — the test of a candidate
* `Position.countedFromStart`, `Position.countedFromEnd` — the spans whose stops, or starts,
  pass it

## Main results

* `Position.locate_boundary_from_start`, `Position.locate_boundary_from_end` — what an
  occurrence chooses
* `Position.consecutive_occurrences` — the indices of an occurrence and of the next one
-/

namespace StringTransform

variable {l r t : Token} {text : Text} {i : Nat}

/-! ### Counted from the start -/

namespace Position

/-- The index counts as a boundary from the start: unless the left token is the one of the
empty text and a span of the right token starts before the index and reaches it, the right
token has to match at the start of what follows. -/
def CountsFromStart (l r : Token) (text : Text) (i : Nat) : Prop :=
  ¬(l.source = "" ∧ ∃ span ∈ r.spans text, span.start < i ∧ i ≤ span.stop) ∧
    r.opens (text.drop i) = true

instance : DecidablePred (CountsFromStart l r text) :=
  fun i => inferInstanceAs (Decidable (¬(l.source = "" ∧
    ∃ span ∈ r.spans text, span.start < i ∧ i ≤ span.stop) ∧ r.opens (text.drop i) = true))

/-- The spans of the left token whose stops count. -/
def countedFromStart (l r : Token) (text : Text) : List Span :=
  (l.spans text).filter fun span => CountsFromStart l r text span.stop

theorem map_stop_countedFromStart :
    (countedFromStart l r text).map (·.stop) =
      ((l.spans text).map (·.stop)).filter (CountsFromStart l r text ·) := by
  rw [List.filter_map]
  rfl

/-- The spans to be avoided are those of the right token, if the left one is empty. -/
theorem decide_countsFromStart (l r : Token) (text : Text) (i : Nat) :
    (r.opens (text.drop i) && !(if l.isEmpty then r.spans text else []).any (·.shadows i)) =
      decide (CountsFromStart l r text i) := by
  have empty : l.isEmpty = true ↔ l.source = "" := String.isEmpty_iff
  rw [Bool.eq_iff_iff, decide_eq_true_iff, CountsFromStart, ← empty, Bool.and_eq_true, and_comm,
    Bool.not_eq_true', ← Bool.not_eq_true]
  refine and_congr_left' (not_congr ?_)
  cases l.isEmpty <;> simp [Span.shadows]

theorem locateFromStart_eq (rank : Nat) :
    locateFromStart l r rank text = ((countedFromStart l r text).map (·.stop))[rank - 1]? := by
  rw [locateFromStart_eq_filter, map_stop_countedFromStart]
  simp only [decide_countsFromStart]

/-- An occurrence from the start chooses among the stops of the left token's spans, in their
order, and only those count that the right token follows and, if the left token is empty, that
no span of the right token covers. There is no boundary if fewer count. -/
theorem locate_boundary_from_start (l r : Token) (text : Text) {k : Occurrence}
    (positive : k.fromStart = true) :
    (boundary l r k).locate text =
      (((l.spans text).map (·.stop)).filter (CountsFromStart l r text ·))[k.rank - 1]? := by
  rw [locate, if_pos positive, locateFromStart_eq, map_stop_countedFromStart]

/-- The start of the second number: the index between the digits of the first one does not
count, although a number starts there as well. -/
theorem second_number_behind_gap :
    ∃ number : Token, Token.ofPattern "\\d\\d?" = .ok number ∧
      (⟨2, by decide, by decide, by decide⟩ : Occurrence).fromStart = true ∧
      number.opens ((Text.ofString "12 34").drop 1) = true ∧
      (boundary .empty number ⟨2, by decide, by decide, by decide⟩).locate (.ofString "12 34") =
        some 3 := by
  let number : Token :=
    ⟨"\\d\\d?", .seq [.single (.digit false), .quantified .zeroOrOne (.single (.digit false))]⟩
  have denoted : Token.ofPattern "\\d\\d?" = .ok number := rfl
  refine ⟨number, denoted, rfl, by decide +kernel, ?_⟩
  rw [locate_boundary_from_start .empty number (.ofString "12 34") rfl]
  decide +kernel

end Position

/-! ### Counted from the end -/

namespace Position

/-- The index counts as a boundary from the end: in what comes before it, taken as a text of
its own, forward matching of the left token leads from some index to the end of this text, or to
the line feed that ends it. -/
def CountsFromEnd (l : Token) (text : Text) (i : Nat) : Prop :=
  ∃ e ≤ i, ∃ s ≤ e, e ∈ l.pattern.ends (text.take i) s ∧
    (e = i ∨ e + 1 = i ∧ text.get? e = some '\n')

instance : DecidablePred (CountsFromEnd l text) :=
  fun i => inferInstanceAs (Decidable (∃ e ≤ i, ∃ s ≤ e, e ∈ l.pattern.ends (text.take i) s ∧
    (e = i ∨ e + 1 = i ∧ text.get? e = some '\n')))

/-- The spans of the right token, from right to left, whose starts count. -/
def countedFromEnd (l r : Token) (text : Text) : List Span :=
  (r.spansBackward text).filter fun span => CountsFromEnd l text span.start

theorem map_start_countedFromEnd :
    (countedFromEnd l r text).map (·.start) =
      ((r.spansBackward text).map (·.start)).filter (CountsFromEnd l text ·) := by
  rw [List.filter_map]
  rfl

/-- Backward matching on what comes before an index decides the test. -/
theorem closes_take (inside : i ≤ text.size) :
    l.closes (text.take i) = decide (CountsFromEnd l text i) := by
  have size : (text.take i).size = i := by rw [Text.size_take, Nat.min_eq_left inside]
  -- The line feed in question stands before the index, so cutting there does not remove it.
  have newline : ∀ e, (e + 1 = i ∧ (text.take i).get? e = some '\n') ↔
      (e + 1 = i ∧ text.get? e = some '\n') := by
    intro e
    refine and_congr_right fun last => ?_
    rw [Text.get?_take, if_pos (by omega)]
  rw [Bool.eq_iff_iff, decide_eq_true_iff, Token.closes_iff, size, CountsFromEnd]
  simp only [newline]

theorem locateFromEnd_eq (rank : Nat) :
    locateFromEnd l r rank text = ((countedFromEnd l r text).map (·.start))[rank - 1]? := by
  have tests : ∀ i ∈ (r.spansBackward text).map (·.start),
      l.closes (text.take i) = decide (CountsFromEnd l text i) := by
    intro i candidate
    obtain ⟨span, member, rfl⟩ := List.mem_map.mp candidate
    have within := Token.within_of_mem_spansBackward span member
    exact closes_take (Nat.le_trans within.1 within.2)
  rw [locateFromEnd_eq_filter, List.filter_congr tests, map_start_countedFromEnd]

/-- An occurrence from the end chooses among the starts of the right token's spans, from right
to left, and only those count that a match of the left token, found by forward matching in what
comes before, leads to. There is no boundary if fewer count. -/
theorem locate_boundary_from_end (l r : Token) (text : Text) {k : Occurrence}
    (negative : k.fromStart = false) :
    (boundary l r k).locate text =
      (((r.spansBackward text).map (·.start)).filter (CountsFromEnd l text ·))[k.rank - 1]? := by
  rw [locate, negative, if_neg Bool.false_ne_true, locateFromEnd_eq, map_start_countedFromEnd]

/-- Behind a letter that ends a line there are two boundaries, one on either side of the line
feed. -/
theorem letter_before_line_feed :
    ∃ letter : Token, Token.ofPattern "a" = .ok letter ∧
      (⟨-1, by decide, by decide, by decide⟩ : Occurrence).fromStart = false ∧
      (boundary letter .empty ⟨-1, by decide, by decide, by decide⟩).locate (.ofString "a\nb") =
        some 2 ∧
      (boundary letter .empty ⟨-2, by decide, by decide, by decide⟩).locate (.ofString "a\nb") =
        some 1 := by
  let letter : Token := ⟨"a", .seq [.single (.literal 'a')]⟩
  have denoted : Token.ofPattern "a" = .ok letter := rfl
  refine ⟨letter, denoted, rfl, ?_, ?_⟩
  · rw [locate_boundary_from_end letter .empty (.ofString "a\nb") rfl]
    decide +kernel
  · rw [locate_boundary_from_end letter .empty (.ofString "a\nb") rfl]
    decide +kernel

end Position

/-! ### From one occurrence to the next -/

namespace Span

variable {a b c : Span}

/-- A span that comes later stops later, unless it is empty and follows directly. -/
theorem Before.stop_le (before : a.Before b) (order : b.start ≤ b.stop) :
    a.stop ≤ b.stop ∧ (a.stop = b.stop ↔ b = ⟨a.stop, a.stop⟩) := by
  obtain ⟨start, stop⟩ := b
  have := before.2
  simp only [mk.injEq] at *
  omega

/-- A span that lies behind starts earlier, unless it is empty and follows directly. -/
theorem Behind.start_le (behind : a.Behind b) (order : b.start ≤ b.stop) :
    b.start ≤ a.start ∧ (a.start = b.start ↔ b = ⟨a.start, a.start⟩) := by
  obtain ⟨start, stop⟩ := b
  have := behind.2
  simp only [mk.injEq] at *
  omega

end Span

/-- What is found at two indices of an ordered list, seen through a function, comes from members
in this order. -/
theorem exists_rel_of_getElem?_map {α : Type} {R : α → α → Prop} {f : α → Nat} {l : List α}
    {m n i j : Nat} (ordered : l.Pairwise R) (less : m < n) (hi : (l.map f)[m]? = some i)
    (hj : (l.map f)[n]? = some j) :
    ∃ a b, l[m]? = some a ∧ l[n]? = some b ∧ f a = i ∧ f b = j ∧ R a b := by
  rw [List.getElem?_map] at hi hj
  obtain ⟨a, ha, rfl⟩ := Option.map_eq_some_iff.mp hi
  obtain ⟨b, hb, rfl⟩ := Option.map_eq_some_iff.mp hj
  refine ⟨a, b, ha, hb, rfl, rfl, ?_⟩
  obtain ⟨hm, rfl⟩ := List.getElem?_eq_some_iff.mp ha
  obtain ⟨hn, rfl⟩ := List.getElem?_eq_some_iff.mp hb
  exact List.pairwise_iff_getElem.mp ordered m n hm hn less

namespace Position

section Order

variable {k m next later : Occurrence} {i j : Nat}

/-- Of two occurrences from the start the one that counts further is the stop of a later
span. -/
theorem exists_before_of_rank_lt (positive : k.fromStart = true) (positive' : m.fromStart = true)
    (less : k.rank < m.rank) (hi : (boundary l r k).locate text = some i)
    (hj : (boundary l r m).locate text = some j) :
    ∃ a b, (countedFromStart l r text)[k.rank - 1]? = some a ∧
      (countedFromStart l r text)[m.rank - 1]? = some b ∧ a.stop = i ∧ b.stop = j ∧
        a.Before b ∧ b.start ≤ b.stop := by
  rw [locate, if_pos positive, locateFromStart_eq] at hi
  rw [locate, if_pos positive', locateFromStart_eq] at hj
  have counts := k.rank_pos
  have ordered : (countedFromStart l r text).Pairwise Span.Before :=
    Token.pairwise_before_spans.filter _
  obtain ⟨a, b, ha, hb, stop, stop', before⟩ :=
    exists_rel_of_getElem?_map ordered (by omega) hi hj
  have member : b ∈ l.spans text := List.mem_of_mem_filter (List.mem_of_getElem? hb)
  exact ⟨a, b, ha, hb, stop, stop', before, (Token.within_of_mem_spans b member).1⟩

/-- Of two occurrences from the end the one that counts further is the start of a span that
lies behind. -/
theorem exists_behind_of_rank_lt (negative : k.fromStart = false)
    (negative' : m.fromStart = false) (less : k.rank < m.rank)
    (hi : (boundary l r k).locate text = some i) (hj : (boundary l r m).locate text = some j) :
    ∃ a b, (countedFromEnd l r text)[k.rank - 1]? = some a ∧
      (countedFromEnd l r text)[m.rank - 1]? = some b ∧ a.start = i ∧ b.start = j ∧
        a.Behind b ∧ b.start ≤ b.stop := by
  rw [locate, negative, if_neg Bool.false_ne_true, locateFromEnd_eq] at hi
  rw [locate, negative', if_neg Bool.false_ne_true, locateFromEnd_eq] at hj
  have counts := k.rank_pos
  have ordered : (countedFromEnd l r text).Pairwise Span.Behind :=
    Token.pairwise_behind_spansBackward.filter _
  obtain ⟨a, b, ha, hb, start, start', behind⟩ :=
    exists_rel_of_getElem?_map ordered (by omega) hi hj
  have member : b ∈ r.spansBackward text := List.mem_of_mem_filter (List.mem_of_getElem? hb)
  exact ⟨a, b, ha, hb, start, start', behind, (Token.within_of_mem_spansBackward b member).1⟩

/-- Three occurrences in a row are never one index: two of its spans would be the same empty
one. -/
theorem locate_ne_of_two_further (step : k.next? = some next) (further : next.next? = some later)
    (hi : (boundary l r k).locate text = some i) (hj : (boundary l r next).locate text = some j) :
    (boundary l r later).locate text ≠ some i := by
  intro again
  have less : k.rank < next.rank := by rw [k.rank_of_next? step]; exact Nat.lt_succ_self _
  have less' : next.rank < later.rank := by
    rw [next.rank_of_next? further]; exact Nat.lt_succ_self _
  have same := k.fromStart_of_next? step
  have same' := (next.fromStart_of_next? further).trans same
  cases direction : k.fromStart with
  | true =>
    rw [direction] at same same'
    obtain ⟨a, b, -, hb, rfl, rfl, before, order⟩ :=
      exists_before_of_rank_lt direction same less hi hj
    obtain ⟨b', c, hb', -, -, stop, before', order'⟩ :=
      exists_before_of_rank_lt same same' less' hj again
    obtain rfl : b = b' := Option.some.inj (hb.symm.trans hb')
    have := before.2
    have := before'.1
    omega
  | false =>
    rw [direction] at same same'
    obtain ⟨a, b, -, hb, rfl, rfl, behind, order⟩ :=
      exists_behind_of_rank_lt direction same less hi hj
    obtain ⟨b', c, hb', -, -, start, behind', order'⟩ :=
      exists_behind_of_rank_lt same same' less' hj again
    obtain rfl : b = b' := Option.some.inj (hb.symm.trans hb')
    have := behind.2
    have := behind'.1
    omega

end Order

/-- If an occurrence from the start and the next one are both found, the first index comes
before the second one, unless the span that counts next is empty and follows directly: then,
and only then, they are the same. Counted from the end the same holds in the opposite
direction. No index counts as three occurrences. -/
theorem consecutive_occurrences (l r : Token) (text : Text) {k next : Occurrence}
    (step : k.next? = some next) {i j : Nat} (hi : (boundary l r k).locate text = some i)
    (hj : (boundary l r next).locate text = some j) :
    (k.fromStart = true →
        ∃ a b, (countedFromStart l r text)[k.rank - 1]? = some a ∧
          (countedFromStart l r text)[next.rank - 1]? = some b ∧ a.stop = i ∧ b.stop = j ∧
            i ≤ j ∧ (i = j ↔ b = ⟨i, i⟩)) ∧
      (k.fromStart = false →
        ∃ a b, (countedFromEnd l r text)[k.rank - 1]? = some a ∧
          (countedFromEnd l r text)[next.rank - 1]? = some b ∧ a.start = i ∧ b.start = j ∧
            j ≤ i ∧ (i = j ↔ b = ⟨i, i⟩)) ∧
      ∀ later : Occurrence, next.next? = some later →
        (boundary l r later).locate text ≠ some i := by
  have less : k.rank < next.rank := by rw [k.rank_of_next? step]; exact Nat.lt_succ_self _
  have same := k.fromStart_of_next? step
  refine ⟨?_, ?_, ?_⟩
  · intro positive
    obtain ⟨a, b, ha, hb, rfl, rfl, before, order⟩ :=
      exists_before_of_rank_lt positive (same.trans positive) less hi hj
    obtain ⟨ordered, equal⟩ := before.stop_le order
    exact ⟨a, b, ha, hb, rfl, rfl, ordered, equal⟩
  · intro negative
    obtain ⟨a, b, ha, hb, rfl, rfl, behind, order⟩ :=
      exists_behind_of_rank_lt negative (same.trans negative) less hi hj
    obtain ⟨ordered, equal⟩ := behind.start_le order
    exact ⟨a, b, ha, hb, rfl, rfl, ordered, equal⟩
  · exact fun later further => locate_ne_of_two_further step further hi hj

/-- Behind the second of two digits the empty match counts next, which stops at the same
index. -/
theorem empty_match_behind_second_digit :
    ∃ digit : Token, Token.ofPattern "\\d?" = .ok digit ∧
      (⟨2, by decide, by decide, by decide⟩ : Occurrence).next? =
        some ⟨3, by decide, by decide, by decide⟩ ∧
      (boundary digit .empty ⟨2, by decide, by decide, by decide⟩).locate (.ofString "12") =
        some 2 ∧
      (boundary digit .empty ⟨3, by decide, by decide, by decide⟩).locate (.ofString "12") =
        some 2 ∧
      (countedFromStart digit .empty (.ofString "12"))[2]? = some ⟨2, 2⟩ := by
  let digit : Token := ⟨"\\d?", .seq [.quantified .zeroOrOne (.single (.digit false))]⟩
  let second : Occurrence := ⟨2, by decide, by decide, by decide⟩
  let third : Occurrence := ⟨3, by decide, by decide, by decide⟩
  have denoted : Token.ofPattern "\\d?" = .ok digit := rfl
  have step : second.next? = some third := rfl
  have hi : (boundary digit .empty second).locate (.ofString "12") = some 2 := by
    decide +kernel
  have hj : (boundary digit .empty third).locate (.ofString "12") = some 2 := by
    decide +kernel
  obtain ⟨a, b, -, hb, -, -, -, empty⟩ :=
    (consecutive_occurrences digit .empty (.ofString "12") step hi hj).1 rfl
  exact ⟨digit, denoted, step, hi, hj, empty.mp rfl ▸ hb⟩

/-- An optional digit in a text of one digit: the first two occurrences are the same index, from
the start as well as from the end. -/
theorem optional_digit_counts_twice :
    ∃ digit : Token, Token.ofPattern "\\d?" = .ok digit ∧
      (boundary digit .empty ⟨1, by decide, by decide, by decide⟩).locate (.ofString "1") =
        some 1 ∧
      (boundary digit .empty ⟨2, by decide, by decide, by decide⟩).locate (.ofString "1") =
        some 1 ∧
      (boundary .empty digit ⟨-1, by decide, by decide, by decide⟩).locate (.ofString "1") =
        some 0 ∧
      (boundary .empty digit ⟨-2, by decide, by decide, by decide⟩).locate (.ofString "1") =
        some 0 := by
  let digit : Token := ⟨"\\d?", .seq [.quantified .zeroOrOne (.single (.digit false))]⟩
  have denoted : Token.ofPattern "\\d?" = .ok digit := rfl
  refine ⟨digit, denoted, ?_, ?_, ?_, ?_⟩
  · decide +kernel
  · decide +kernel
  · decide +kernel
  · decide +kernel

end Position

end StringTransform
