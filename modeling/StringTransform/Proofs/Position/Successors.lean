import Mathlib.Algebra.Order.Group.Unbundled.Int
import StringTransform.Proofs.Position.Boundaries

/-!
# Counting on from an occurrence

Counting on goes from an occurrence to the one of the next rank, counted from the same end, as
long as 32 bits hold its number. There is one more rank from the end than from the start, and
behind the last one there is nothing.

Among the boundaries between two tokens, the occurrences that count from one end choose by
their ranks from one list. So if there is a boundary for the next occurrence, there is one for
the occurrence itself, and the occurrences that find a boundary come before those that do not.

## Main definitions

* `Occurrence.shifted` — the number of the occurrence so many places on, if there is one
* `Occurrence.after` — the occurrence so many places on

## Main results

* `Occurrence.next?_eq_some_iff`, `Occurrence.after_eq_some_iff` — one place on, and any number
* `Position.isSome_locate_of_rank_le` — boundaries of lower ranks exist if one of a higher does
* `Position.counting_is_exact` — both together
-/

namespace StringTransform

namespace Occurrence

variable {k l : Occurrence} {m n : Nat}

/-- A signed number of 32 bits. -/
def Representable (n : Int) : Prop :=
  -2147483648 ≤ n ∧ n ≤ 2147483647

/-- The number with the sign of the occurrence whose distance from zero is its rank and `m`
more. -/
def shifted (k : Occurrence) (m : Nat) : Int :=
  if k.fromStart then k.rank + m else -(k.rank + m)

/-- The occurrence that counting on `m` times leads to. -/
def after (k : Occurrence) : Nat → Option Occurrence
  | 0 => some k
  | m + 1 => (after k m).bind next?

theorem fromStart_iff : k.fromStart = true ↔ 0 < k.count := by
  rw [fromStart, decide_eq_true_iff]

theorem shifted_zero (k : Occurrence) : k.shifted 0 = k.count := by
  have := k.count_ne_zero
  simp only [shifted, fromStart_iff, rank]
  split <;> omega

/-- The number so many places on tells the direction and the rank. -/
theorem count_eq_shifted_iff :
    l.count = k.shifted m ↔ l.fromStart = k.fromStart ∧ l.rank = k.rank + m := by
  have := l.count_ne_zero
  have := k.count_ne_zero
  rw [Bool.eq_iff_iff]
  simp only [shifted, fromStart_iff, rank]
  split <;> omega

/-- If 32 bits hold a number further on, they hold those on the way. -/
theorem Representable.of_le (fits : Representable (k.shifted n)) (le : m ≤ n) :
    Representable (k.shifted m) := by
  cases direction : k.fromStart <;>
    simp only [Representable, shifted, direction, Bool.false_eq_true, if_true, if_false] at * <;>
    omega

/-- There is an occurrence for every number so many places on that 32 bits hold. -/
theorem exists_count_eq_shifted (fits : Representable (k.shifted m)) :
    ∃ l : Occurrence, l.count = k.shifted m := by
  have nonzero : k.shifted m ≠ 0 := by
    have := k.rank_pos
    simp only [shifted]
    split <;> omega
  exact ⟨⟨k.shifted m, nonzero, fits.1, fits.2⟩, rfl⟩

theorem representable_count (l : Occurrence) : Representable l.count :=
  ⟨l.le_count, l.count_le⟩

/-- One place on is the occurrence of the next number, if there is one. -/
theorem next?_eq_some_iff : k.next? = some l ↔ l.count = k.shifted 1 := by
  constructor
  · intro step
    exact count_eq_shifted_iff.mpr ⟨fromStart_of_next? step, rank_of_next? step⟩
  · intro count
    have number : (if k.fromStart then k.count + 1 else k.count - 1) = l.count := by
      have := k.count_ne_zero
      simp only [count, shifted, fromStart_iff, rank]
      split <;> omega
    simp only [next?, number]
    rw [dif_pos ⟨l.count_ne_zero, l.representable_count⟩]

/-- So many places on is the occurrence of that number, if there is one. -/
theorem after_eq_some_iff : k.after m = some l ↔ l.count = k.shifted m := by
  induction m generalizing l with
  | zero =>
    rw [after, Option.some_inj, shifted_zero]
    exact ⟨fun same => same ▸ rfl, fun same => (eq_of_count_eq same).symm⟩
  | succ m ih =>
    rw [after, Option.bind_eq_some_iff]
    simp only [ih, next?_eq_some_iff]
    constructor
    · rintro ⟨before, hbefore, count⟩
      rw [count_eq_shifted_iff] at *
      exact ⟨count.1.trans hbefore.1, by omega⟩
    · intro count
      -- The number one place before is held by 32 bits as well.
      have fits : Representable (k.shifted (m + 1)) := count ▸ l.representable_count
      obtain ⟨before, hbefore⟩ := exists_count_eq_shifted (fits.of_le (Nat.le_succ m))
      refine ⟨before, hbefore, ?_⟩
      rw [count_eq_shifted_iff] at *
      exact ⟨count.1.trans hbefore.1.symm, by omega⟩

end Occurrence

namespace Position

open Occurrence

variable {l r : Token} {text : Text} {k k' : Occurrence}

/-! ### Boundaries of consecutive ranks -/

/-- The occurrences that count from one end choose by their ranks from one list. -/
theorem exists_choices (l r : Token) (text : Text) (direction : Bool) :
    ∃ choices : List Nat, ∀ k : Occurrence, k.fromStart = direction →
      (boundary l r k).locate text = choices[k.rank - 1]? := by
  cases direction with
  | true =>
    have fromStart : ∀ k : Occurrence, k.fromStart = true →
        (boundary l r k).locate text = locateFromStart l r k.rank text :=
      fun k positive => if_pos positive
    exact ⟨_, fun k positive => (fromStart k positive).trans (locateFromStart_eq_filter k.rank)⟩
  | false =>
    have fromEnd : ∀ k : Occurrence, k.fromStart = false →
        (boundary l r k).locate text = locateFromEnd l r k.rank text :=
      fun k negative => if_neg (ne_true_of_eq_false negative)
    exact ⟨_, fun k negative => (fromEnd k negative).trans (locateFromEnd_eq_filter k.rank)⟩

/-- If there is a boundary of some rank, there is one of every lower rank. -/
theorem isSome_locate_of_rank_le (direction : k.fromStart = k'.fromStart) (le : k.rank ≤ k'.rank)
    (found : ((boundary l r k').locate text).isSome) :
    ((boundary l r k).locate text).isSome := by
  obtain ⟨choices, chosen⟩ := exists_choices l r text k'.fromStart
  rw [chosen k' rfl, isSome_getElem?] at found
  rw [chosen k direction, isSome_getElem?]
  omega

/-- Counting on from an occurrence keeps its direction and adds to its rank, and goes on exactly
as long as 32 bits hold the number; and if there is a boundary for the next occurrence, there is
one for the occurrence itself. -/
theorem counting_is_exact (k : Occurrence) :
    (∀ m, Representable (k.shifted m) →
        ∃ k', k.after m = some k' ∧ k'.fromStart = k.fromStart ∧ k'.rank = k.rank + m) ∧
      (∀ m, ¬Representable (k.shifted m) → ∀ n, m ≤ n → k.after n = none) ∧
      (∀ m k', k.after m = some k' → k'.count ≠ 0 ∧ k'.fromStart = k.fromStart) ∧
      (k.rank = |k.count| ∧ k.rank < UInt32.size) ∧
      ∀ (l r : Token) (text : Text) (next : Occurrence), k.next? = some next →
        ((boundary l r next).locate text).isSome → ((boundary l r k).locate text).isSome := by
  refine ⟨?_, ?_, ?_, ⟨?_, ?_⟩, ?_⟩
  · intro m fits
    obtain ⟨k', count⟩ := exists_count_eq_shifted fits
    exact ⟨k', after_eq_some_iff.mpr count, count_eq_shifted_iff.mp count⟩
  · intro m unfit n le
    refine Option.eq_none_iff_forall_ne_some.mpr fun k' reached => unfit ?_
    have count := after_eq_some_iff.mp reached
    exact Representable.of_le (count ▸ k'.representable_count) le
  · intro m k' reached
    exact ⟨k'.count_ne_zero, (count_eq_shifted_iff.mp (after_eq_some_iff.mp reached)).1⟩
  · exact Int.natCast_natAbs k.count
  · exact Nat.lt_of_le_of_lt k.rank_le (by decide)
  · intro l r text next step
    have rank := rank_of_next? step
    exact isSome_locate_of_rank_le (fromStart_of_next? step).symm (by omega)

/-- From the end there is one rank more than from the start. -/
example :
    (⟨-2147483648, by decide, by decide, by decide⟩ : Occurrence).rank = 2147483648 ∧
      (⟨-2147483647, by decide, by decide, by decide⟩ : Occurrence).after 2 = none ∧
      (⟨2147483647, by decide, by decide, by decide⟩ : Occurrence).after 1 = none := by
  decide

end Position

end StringTransform
