import Mathlib.Data.List.Sort
import StringTransform.Proofs.Strict.Scanning

/-!
# The order of spans

A scan finds spans in order and passes over no match: an index at which a match starts is the
start of a span, or lies inside one. The same holds from right to left, of the indices at
which matches stop. Both scans are recursions that skip stretches of the text, so each has an
induction principle of its own, from which everything else about it is derived.

## Main definitions

* `Span.Before`, `Span.Behind` — the order in which the scans find spans
* `Token.spansBelow` — what a backward scan finds among the matches that stop below an index

## Main results

* `Token.pairwise_before_spans`, `Token.pairwise_behind_spansBackward` — spans come in order
* `Token.exists_span_of_opening`, `Token.exists_span_of_closing` — no match is passed over
* `Token.spans_eq_of_still`, `Token.spansBackward_eq_of_still` — the spans of a token that
  consumes nothing
-/

namespace StringTransform

namespace Span

variable {a b : Span}

/-- The span starts and stops before the other one starts. -/
def Before (a b : Span) : Prop :=
  a.start < b.start ∧ a.stop ≤ b.start

/-- The span starts and stops behind where the other one stops. -/
def Behind (a b : Span) : Prop :=
  b.stop < a.stop ∧ b.stop ≤ a.start

instance : Std.Irrefl Before := ⟨fun _ h => Nat.lt_irrefl _ h.1⟩

instance : Std.Antisymm Before := ⟨fun _ _ h h' => absurd h.1 (Nat.lt_asymm h'.1)⟩

theorem eq_of_empty (ha : a.start = a.stop) (hb : b.start = b.stop) (same : a.stop = b.stop) :
    a = b := by
  obtain ⟨start, stop⟩ := a
  obtain ⟨start', stop'⟩ := b
  obtain rfl : start = stop := ha
  obtain rfl : start' = stop' := hb
  obtain rfl : start = start' := same
  rfl

end Span

/-- Of two members of an ordered list one comes before the other, unless they are the same. -/
theorem rel_or_eq_or_rel_of_pairwise {α : Type} {R : α → α → Prop} {l : List α} {a b : α}
    (ordered : l.Pairwise R) (ha : a ∈ l) (hb : b ∈ l) : R a b ∨ a = b ∨ R b a := by
  obtain ⟨i, hi, rfl⟩ := List.getElem_of_mem ha
  obtain ⟨j, hj, rfl⟩ := List.getElem_of_mem hb
  rw [List.pairwise_iff_getElem] at ordered
  rcases Nat.lt_trichotomy i j with less | rfl | less
  · exact .inl (ordered i j hi hj less)
  · exact .inr (.inl rfl)
  · exact .inr (.inr (ordered j i hj hi less))

namespace Pattern

variable {p : Pattern} {text : Text} {i : Nat}

theorem ends_eq_nil_iff : p.ends text i = [] ↔ ∀ j, ¬p.Matches text i j := by
  simp only [List.eq_nil_iff_forall_not_mem, mem_ends]

theorem starts_eq_nil_iff : p.starts text i = [] ↔ ∀ j, ¬p.Matches text j i := by
  simp only [List.eq_nil_iff_forall_not_mem, mem_starts]

theorem ends_ne_nil_iff : p.ends text i ≠ [] ↔ ∃ j, p.Matches text i j := by
  rw [ne_eq, ends_eq_nil_iff, not_forall_not]

theorem starts_ne_nil_iff : p.starts text i ≠ [] ↔ ∃ j, p.Matches text j i := by
  rw [ne_eq, starts_eq_nil_iff, not_forall_not]

theorem not_isEmpty_ends_iff :
    (!(p.ends text i).isEmpty) = true ↔ ∃ j, p.Matches text i j := by
  rw [← ends_ne_nil_iff, Bool.not_eq_true', List.isEmpty_eq_false_iff]

theorem not_isEmpty_starts_iff :
    (!(p.starts text i).isEmpty) = true ↔ ∃ j, p.Matches text j i := by
  rw [← starts_ne_nil_iff, Bool.not_eq_true', List.isEmpty_eq_false_iff]

end Pattern

namespace Token

variable {t : Token} {text : Text} {i j n : Nat} {span : Span}

/-! ### From left to right -/

/-- Behind a span the scan resumes where the span stops, or one index further on if the span
is empty. -/
theorem spansFrom_of_head? (inside : i ≤ text.size)
    (first : (t.pattern.ends text i).head? = some j) :
    t.spansFrom text i = ⟨i, j⟩ :: t.spansFrom text (max j (i + 1)) := by
  have ahead : i ≤ j ∧ j ≤ text.size := covers_of_head? inside first
  have resume : (if i < j then j else i + 1) = max j (i + 1) := by
    split <;> omega
  rw [spansFrom_eq, if_pos inside, first]
  simp only [resume]

theorem spansFrom_of_head?_eq_none (inside : i ≤ text.size)
    (noMatch : (t.pattern.ends text i).head? = none) :
    t.spansFrom text i = t.spansFrom text (i + 1) := by
  rw [spansFrom_eq, if_pos inside, noMatch]

/-- Induction along a scan from left to right. -/
theorem spansFrom_induction {P : Nat → List Span → Prop}
    (outside : ∀ i, text.size < i → P i [])
    (pass : ∀ i, i ≤ text.size → t.pattern.ends text i = [] →
      P (i + 1) (t.spansFrom text (i + 1)) → P i (t.spansFrom text (i + 1)))
    (take : ∀ i j, i ≤ j → j ≤ text.size → (t.pattern.ends text i).head? = some j →
      P (max j (i + 1)) (t.spansFrom text (max j (i + 1))) →
        P i (⟨i, j⟩ :: t.spansFrom text (max j (i + 1)))) (i : Nat) :
    P i (t.spansFrom text i) := by
  by_cases inside : i ≤ text.size
  · cases first : (t.pattern.ends text i).head? with
    | none =>
      rw [spansFrom_of_head?_eq_none inside first]
      exact pass i inside (List.head?_eq_none_iff.mp first)
        (spansFrom_induction outside pass take (i + 1))
    | some j =>
      have ahead : i ≤ j ∧ j ≤ text.size := covers_of_head? inside first
      rw [spansFrom_of_head? inside first]
      exact take i j ahead.1 ahead.2 first (spansFrom_induction outside pass take _)
  · rw [spansFrom_eq, if_neg inside]
    exact outside i (Nat.lt_of_not_le inside)
termination_by text.size + 1 - i
decreasing_by all_goals omega

theorem pairwise_before_spansFrom (i : Nat) :
    (∀ span ∈ t.spansFrom text i, i ≤ span.start) ∧
      (t.spansFrom text i).Pairwise Span.Before := by
  refine spansFrom_induction (P := fun i spans =>
    (∀ span ∈ spans, i ≤ span.start) ∧ spans.Pairwise Span.Before) ?_ ?_ ?_ i
  · intro i _
    exact ⟨nofun, .nil⟩
  · intro i _ _ ⟨later, ordered⟩
    exact ⟨fun span member => Nat.le_of_succ_le (later span member), ordered⟩
  · intro i j ahead _ _ ⟨later, ordered⟩
    constructor
    · intro span member
      rcases List.mem_cons.mp member with rfl | member
      · exact Nat.le_refl i
      · have := later span member
        omega
    · -- The scan resumes past both the start and the stop of the span.
      refine .cons ?_ ordered
      intro span member
      have := later span member
      exact ⟨by simp only; omega, by simp only; omega⟩

/-- Spans come in order, and none overlaps the next. -/
theorem pairwise_before_spans : (t.spans text).Pairwise Span.Before :=
  (pairwise_before_spansFrom 0).2

/-- A span is the preferred match at its start. -/
theorem head?_ends_of_mem_spans :
    ∀ span ∈ t.spans text, (t.pattern.ends text span.start).head? = some span.stop := by
  refine spansFrom_induction (P := fun _ spans =>
    ∀ span ∈ spans, (t.pattern.ends text span.start).head? = some span.stop) ?_ ?_ ?_ 0
  · exact fun _ _ => nofun
  · exact fun _ _ _ rest => rest
  · intro i j _ _ first rest span member
    rcases List.mem_cons.mp member with rfl | member
    · exact first
    · exact rest span member

theorem matches_of_mem_spans (member : span ∈ t.spans text) :
    t.pattern.Matches text span.start span.stop :=
  Pattern.mem_ends.mp (List.mem_of_head? (head?_ends_of_mem_spans span member))

/-- An index at which a match starts is the start of a span, or lies inside one. -/
theorem exists_span_of_opening (inside : i ≤ text.size)
    (opening : ∃ j, t.pattern.Matches text i j) :
    ∃ span ∈ t.spans text, span.start ≤ i ∧ (i < span.stop ∨ i = span.start) := by
  refine spansFrom_induction (P := fun first spans => ∀ i, first ≤ i → i ≤ text.size →
    t.pattern.ends text i ≠ [] →
      ∃ span ∈ spans, span.start ≤ i ∧ (i < span.stop ∨ i = span.start)) ?_ ?_ ?_ 0
    i (Nat.zero_le i) inside (Pattern.ends_ne_nil_iff.mpr opening)
  · intro first outside i hi inside
    omega
  · intro first _ noMatch rest i hi inside opening
    -- No match starts at the index that is passed over.
    have further : first ≠ i := by
      rintro rfl
      exact opening noMatch
    exact rest i (by omega) inside opening
  · intro first stop ahead _ _ rest i hi inside opening
    by_cases within : i < stop ∨ i = first
    · exact ⟨_, List.mem_cons_self, hi, within⟩
    · obtain ⟨span, member, covers⟩ := rest i (by omega) inside opening
      exact ⟨span, List.mem_cons_of_mem _ member, covers⟩

/-! ### From right to left -/

/-- What a backward scan finds among the matches that stop below an index. -/
def spansBelow (t : Token) (text : Text) : Nat → List Span
  | 0 => []
  | i + 1 => t.spansUpTo text i

/-- Behind a span the backward scan resumes where the span starts, or one index further on if
the span is empty. -/
theorem spansBelow_of_head? (first : (t.pattern.starts text i).head? = some j)
    (ahead : j ≤ i) :
    t.spansBelow text (i + 1) = ⟨j, i⟩ :: t.spansBelow text (min (j + 1) i) := by
  rw [spansBelow, spansUpTo_eq, first]
  -- The matches that stop at the start of the span are still to come, unless the span is empty.
  by_cases less : j < i
  · have resume : min (j + 1) i = j + 1 := by omega
    simp only [if_pos less, resume, spansBelow]
  · have resume : min (j + 1) i = i := by omega
    cases i with
    | zero => simp [spansBelow]
    | succ i => simp [less, resume, spansBelow]

theorem spansBelow_of_head?_eq_none (noMatch : (t.pattern.starts text i).head? = none) :
    t.spansBelow text (i + 1) = t.spansBelow text i := by
  rw [spansBelow, spansUpTo_eq, noMatch]
  cases i <;> simp [spansBelow]

/-- Induction along a scan from right to left. -/
theorem spansBelow_induction {P : Nat → List Span → Prop} (nothing : P 0 [])
    (pass : ∀ i, i ≤ text.size → t.pattern.starts text i = [] →
      P i (t.spansBelow text i) → P (i + 1) (t.spansBelow text i))
    (take : ∀ i j, j ≤ i → i ≤ text.size → (t.pattern.starts text i).head? = some j →
      P (min (j + 1) i) (t.spansBelow text (min (j + 1) i)) →
        P (i + 1) (⟨j, i⟩ :: t.spansBelow text (min (j + 1) i))) (n : Nat)
    (inside : n ≤ text.size + 1) : P n (t.spansBelow text n) := by
  cases n with
  | zero => exact nothing
  | succ i =>
    cases first : (t.pattern.starts text i).head? with
    | none =>
      rw [spansBelow_of_head?_eq_none first]
      exact pass i (by omega) (List.head?_eq_none_iff.mp first)
        (spansBelow_induction nothing pass take i (by omega))
    | some j =>
      have ahead : j ≤ i := covers_of_head? (by omega) first
      rw [spansBelow_of_head? first ahead]
      exact take i j ahead (by omega) first
        (spansBelow_induction nothing pass take _ (by omega))
termination_by n
decreasing_by all_goals omega

theorem pairwise_behind_spansBelow (inside : n ≤ text.size + 1) :
    (∀ span ∈ t.spansBelow text n, span.stop < n) ∧
      (t.spansBelow text n).Pairwise Span.Behind := by
  refine spansBelow_induction (P := fun n spans =>
    (∀ span ∈ spans, span.stop < n) ∧ spans.Pairwise Span.Behind) ?_ ?_ ?_ n inside
  · exact ⟨nofun, .nil⟩
  · intro i _ _ ⟨below, ordered⟩
    exact ⟨fun span member => Nat.lt_succ_of_lt (below span member), ordered⟩
  · intro i j ahead _ _ ⟨below, ordered⟩
    constructor
    · intro span member
      rcases List.mem_cons.mp member with rfl | member
      · exact Nat.lt_succ_self i
      · have := below span member
        omega
    · refine .cons ?_ ordered
      intro span member
      have := below span member
      exact ⟨by simp only; omega, by simp only; omega⟩

/-- From right to left, too, spans come in order, and none overlaps the next. -/
theorem pairwise_behind_spansBackward : (t.spansBackward text).Pairwise Span.Behind :=
  (pairwise_behind_spansBelow (Nat.le_refl (text.size + 1))).2

/-- A span found from right to left is the preferred match that stops where it does. -/
theorem head?_starts_of_mem_spansBackward :
    ∀ span ∈ t.spansBackward text,
      (t.pattern.starts text span.stop).head? = some span.start := by
  refine spansBelow_induction (P := fun _ spans =>
    ∀ span ∈ spans, (t.pattern.starts text span.stop).head? = some span.start) ?_ ?_ ?_
    (text.size + 1) (Nat.le_refl _)
  · exact nofun
  · exact fun _ _ _ rest => rest
  · intro i j _ _ first rest span member
    rcases List.mem_cons.mp member with rfl | member
    · exact first
    · exact rest span member

theorem matches_of_mem_spansBackward (member : span ∈ t.spansBackward text) :
    t.pattern.Matches text span.start span.stop :=
  Pattern.mem_starts.mp (List.mem_of_head? (head?_starts_of_mem_spansBackward span member))

/-- An index at which a match stops is the stop of a span, or lies inside one. -/
theorem exists_span_of_closing (inside : i ≤ text.size)
    (closing : ∃ j, t.pattern.Matches text j i) :
    ∃ span ∈ t.spansBackward text, (span.start < i ∨ i = span.stop) ∧ i ≤ span.stop := by
  refine spansBelow_induction (P := fun n spans => ∀ i, i < n → t.pattern.starts text i ≠ [] →
      ∃ span ∈ spans, (span.start < i ∨ i = span.stop) ∧ i ≤ span.stop) ?_ ?_ ?_
    (text.size + 1) (Nat.le_refl _) i (Nat.lt_succ_of_le inside)
    (Pattern.starts_ne_nil_iff.mpr closing)
  · intro i hi
    exact absurd hi (Nat.not_lt_zero i)
  · intro last _ noMatch rest i hi closing
    have further : i ≠ last := by
      rintro rfl
      exact closing noMatch
    exact rest i (by omega) closing
  · intro last start ahead _ _ rest i hi closing
    by_cases within : start < i ∨ i = last
    · exact ⟨_, List.mem_cons_self, within, Nat.le_of_lt_succ hi⟩
    · obtain ⟨span, member, covers⟩ := rest i (by omega) closing
      exact ⟨span, List.mem_cons_of_mem _ member, covers⟩

/-- The spans found from right to left are a list of spans in reverse if they are the same and
come in order of their starts as well. -/
theorem spansBackward_eq_reverse {spans : List Span} (ordered : spans.Pairwise Span.Before)
    (same : ∀ span, span ∈ t.spansBackward text ↔ span ∈ spans)
    (starts : ∀ a ∈ spans, ∀ b ∈ spans, a.Behind b → b.start < a.start) :
    t.spansBackward text = spans.reverse := by
  have reversed : (t.spansBackward text).reverse.Pairwise Span.Before := by
    rw [List.pairwise_reverse]
    refine pairwise_behind_spansBackward.imp_of_mem ?_
    intro a b ha hb behind
    exact ⟨starts a ((same a).mp ha) b ((same b).mp hb) behind, behind.2⟩
  apply List.reverse_eq_iff.mp
  refine reversed.eq_of_mem_iff ordered ?_
  intro span
  rw [List.mem_reverse]
  exact same span

/-! ### Tokens that consume nothing -/

/-- The empty spans at the indices where a token matches. -/
def stillSpans (t : Token) (text : Text) : List Span :=
  ((List.range (text.size + 1)).filter fun i => !(t.pattern.ends text i).isEmpty).map
    fun i => ⟨i, i⟩

theorem mem_stillSpans :
    span ∈ t.stillSpans text ↔
      span.start = span.stop ∧ span.stop ≤ text.size ∧ ∃ j, t.pattern.Matches text span.stop j := by
  obtain ⟨start, stop⟩ := span
  simp only [stillSpans, List.mem_map, List.mem_filter, List.mem_range, Span.mk.injEq,
    Pattern.not_isEmpty_ends_iff]
  constructor
  · rintro ⟨i, ⟨hi, opening⟩, rfl, rfl⟩
    exact ⟨rfl, Nat.le_of_lt_succ hi, opening⟩
  · rintro ⟨rfl, inside, opening⟩
    exact ⟨_, ⟨Nat.lt_succ_of_le inside, opening⟩, rfl, rfl⟩

theorem pairwise_before_stillSpans : (t.stillSpans text).Pairwise Span.Before := by
  rw [stillSpans, List.pairwise_map]
  refine (List.pairwise_lt_range.filter _).imp ?_
  intro i j less
  exact ⟨less, Nat.le_of_lt less⟩

variable (still : ∀ i j, t.pattern.Matches text i j → i = j)
include still

/-- A token that consumes nothing is found at every index where it matches. -/
theorem spans_eq_of_still : t.spans text = t.stillSpans text := by
  refine pairwise_before_spans.eq_of_mem_iff pairwise_before_stillSpans ?_
  intro span
  rw [mem_stillSpans]
  constructor
  · intro member
    have matched := matches_of_mem_spans member
    have empty := still _ _ matched
    have inside := (within_of_mem_spans span member).2
    exact ⟨empty, inside, _, empty ▸ matched⟩
  · rintro ⟨empty, inside, opening⟩
    obtain ⟨found, member, covers⟩ := exists_span_of_opening inside opening
    have still := still _ _ (matches_of_mem_spans member)
    have same : span = found := Span.eq_of_empty empty still (by omega)
    exact same ▸ member

/-- From right to left it is found at the same indices. -/
theorem spansBackward_eq_of_still : t.spansBackward text = (t.stillSpans text).reverse := by
  apply spansBackward_eq_reverse pairwise_before_stillSpans
  · intro span
    rw [mem_stillSpans]
    constructor
    · intro member
      have matched := matches_of_mem_spansBackward member
      have empty := still _ _ matched
      have inside := (within_of_mem_spansBackward span member).2
      exact ⟨empty, inside, _, empty ▸ matched⟩
    · rintro ⟨empty, inside, j, opening⟩
      obtain rfl := still _ _ opening
      obtain ⟨found, member, covers⟩ := exists_span_of_closing inside ⟨_, opening⟩
      have still := still _ _ (matches_of_mem_spansBackward member)
      have same : span = found := Span.eq_of_empty empty still (by omega)
      exact same ▸ member
  · intro a ha b hb behind
    have := (mem_stillSpans.mp ha).1
    have := (mem_stillSpans.mp hb).1
    have := behind.1
    omega

end Token

end StringTransform
