import StringTransform.Fault

/-!
# Occurrences

Where several places of a text qualify, an occurrence says which of them is meant: the
positive numbers count from the start of the text, the negative ones from its end. It is
a signed number of 32 bits, so there is one more occurrence from the end than there are
from the start.

## Main results

* `Occurrence.rank_pos`, `Occurrence.rank_le` — the range of ranks
* `Occurrence.rank_of_next?`, `Occurrence.fromStart_of_next?` — the next occurrence has the next
  rank, counted from the same end
-/

namespace StringTransform

/-- Which of several places is meant, counted from one end of the text. -/
structure Occurrence where
  count : Int
  count_ne_zero : count ≠ 0
  le_count : -2147483648 ≤ count
  count_le : count ≤ 2147483647
  deriving DecidableEq, Repr

namespace Occurrence

variable {k l : Occurrence}

/-- The first from the start. -/
def first : Occurrence := ⟨1, by decide, by decide, by decide⟩

/-- The first from the end. -/
def last : Occurrence := ⟨-1, by decide, by decide, by decide⟩

instance : Inhabited Occurrence := ⟨first⟩

/-- The occurrence of a number, unless the number is zero. -/
def ofInt32 (n : Int32) : Except BuildFault Occurrence :=
  if h : n.toInt = 0 then .error .zeroOccurrence
  else .ok ⟨n.toInt, h, n.le_toInt, Int.le_of_lt_add_one n.toInt_lt⟩

/-- Whether it counts from the start of the text. -/
def fromStart (k : Occurrence) : Bool :=
  0 < k.count

/-- How many places it counts. -/
def rank (k : Occurrence) : Nat :=
  k.count.natAbs

/-- The next occurrence in counting order, if 32 bits hold it. -/
def next? (k : Occurrence) : Option Occurrence :=
  let count := if k.fromStart then k.count + 1 else k.count - 1
  if h : count ≠ 0 ∧ -2147483648 ≤ count ∧ count ≤ 2147483647 then
    some ⟨count, h.1, h.2.1, h.2.2⟩
  else none

instance : ToString Occurrence := ⟨fun k => toString k.count⟩

/-- The number tells the occurrence. -/
theorem eq_of_count_eq (same : k.count = l.count) : k = l := by
  cases k
  cases l
  cases same
  rfl

theorem rank_pos (k : Occurrence) : 0 < k.rank := by
  have := k.count_ne_zero
  simp only [rank]
  omega

theorem rank_le (k : Occurrence) : k.rank ≤ 2147483648 := by
  have := k.le_count
  have := k.count_le
  simp only [rank]
  omega

/-- The next occurrence has the next rank. -/
theorem rank_of_next? (h : k.next? = some l) : l.rank = k.rank + 1 := by
  have := k.count_ne_zero
  simp only [next?, Option.dite_none_right_eq_some, Option.some.injEq] at h
  obtain ⟨_, rfl⟩ := h
  simp only [rank, fromStart, decide_eq_true_eq]
  split <;> omega

/-- The next occurrence counts from the same end. -/
theorem fromStart_of_next? (h : k.next? = some l) : l.fromStart = k.fromStart := by
  have := k.count_ne_zero
  simp only [next?, Option.dite_none_right_eq_some, Option.some.injEq] at h
  obtain ⟨_, rfl⟩ := h
  rw [Bool.eq_iff_iff]
  simp only [fromStart, decide_eq_true_eq]
  split <;> omega

end Occurrence

end StringTransform
