import StringTransform.Pattern.Matching
import StringTransform.Proofs.Pattern.Search

/-!
# What a pattern means

A pattern relates the indices where its matches start to those where they end. The
relation knows neither a direction nor an order of preference: a sequence composes the
relations of its members, alternatives unite them, and a repetition closes a relation
under composition. Forward and backward matching both compute this one relation, each
from its own end.

## Main definitions

* `Pattern.Matches` — a match of the pattern starts at one index and ends at another
* `Onward` — an index does not lie behind another, nor outside the text if they differ
* `Direction.orient` — a relation as it is seen in one of the directions

## Main results

* `Pattern.Matches.onward` — no match ends before it starts, or outside the text
* `Pattern.mem_reach` — matching in either direction computes the relation
* `Pattern.mem_ends_iff_mem_starts` — the two directions find the same matches
-/

namespace StringTransform

open Relation

/-- The repetitions of a relation that a quantifier allows. -/
def Quantifier.Relates (q : Quantifier) (R : Nat → Nat → Prop) (i j : Nat) : Prop :=
  match q with
  | .zeroOrOne => R i j ∨ i = j
  | .zeroOrMore => ReflTransGen R i j
  | .oneOrMore => TransGen R i j

/-- A relation between starts and ends, read from the end where matching begins. -/
def Direction.orient : Direction → (Nat → Nat → Prop) → Nat → Nat → Prop
  | .forward, R => R
  | .backward, R => Function.swap R

/-- The index `j` is `i` or lies ahead of it without leaving the text. -/
def Onward (text : Text) (i j : Nat) : Prop :=
  i = j ∨ i < j ∧ j ≤ text.size

theorem Onward.refl {text : Text} (i : Nat) : Onward text i i := .inl rfl

theorem Onward.trans {text : Text} {i j k : Nat} (hij : Onward text i j) (hjk : Onward text j k) :
    Onward text i k := by
  simp only [Onward] at *
  omega

namespace Pattern

mutual

/-- A match of the pattern starts at `i` and ends at `j`. -/
def Matches (text : Text) : Pattern → Nat → Nat → Prop
  | .seq ps, i, j => MatchesSeq text ps i j
  | .alt ps, i, j => MatchesAlt text ps i j
  | .quantified q p, i, j => q.Relates (Matches text p) i j
  | .group p, i, j => Matches text p i j
  | .look negated p, i, j => i = j ∧ ((∃ k, Matches text p i k) ↔ negated = false)
  | .anchor a, i, j => i = j ∧ a.holds text i = true
  | .single t, i, j => i + 1 = j ∧ ∃ c, text.get? i = some c ∧ t.holds c = true

/-- Matches of all members, one behind the other, start at `i` and end at `j`. -/
def MatchesSeq (text : Text) : List Pattern → Nat → Nat → Prop
  | [], i, j => i = j
  | p :: ps, i, j => ∃ k, Matches text p i k ∧ MatchesSeq text ps k j

/-- A match of one of the branches starts at `i` and ends at `j`. -/
def MatchesAlt (text : Text) : List Pattern → Nat → Nat → Prop
  | [], _, _ => False
  | p :: ps, i, j => Matches text p i j ∨ MatchesAlt text ps i j

end

end Pattern

/-! ### No match runs backwards or leaves the text -/

section Onward

variable {text : Text} {i j : Nat}

theorem Quantifier.Relates.onward {q : Quantifier} {R : Nat → Nat → Prop}
    (body : ∀ i j, R i j → Onward text i j) (h : q.Relates R i j) : Onward text i j := by
  cases q with
  | zeroOrOne => exact h.elim (body i j) .inl
  | zeroOrMore =>
    change ReflTransGen R i j at h
    induction h with
    | refl => exact .refl i
    | tail _ last ih => exact ih.trans (body _ _ last)
  | oneOrMore =>
    change TransGen R i j at h
    induction h with
    | single first => exact body _ _ first
    | tail _ last ih => exact ih.trans (body _ _ last)

/-- No match ends before it starts, and one that is not empty ends inside the text. -/
theorem Pattern.Matches.onward {p : Pattern} (h : p.Matches text i j) : Onward text i j := by
  induction p using Pattern.induct
    (L := fun ps => ∀ i j, (MatchesSeq text ps i j → Onward text i j) ∧
      (MatchesAlt text ps i j → Onward text i j)) generalizing i j with
  | seq ps ih => exact (ih i j).1 h
  | alt ps ih => exact (ih i j).2 h
  | quantified q p ih => exact Quantifier.Relates.onward (fun _ _ => ih) h
  | group p ih => exact ih h
  | look negated p ih => exact .inl h.1
  | anchor a => exact .inl h.1
  | single t =>
    obtain ⟨rfl, c, hc, _⟩ := h
    have inside : i < text.size := by
      by_contra outside
      rw [Text.get?_eq_none_iff.mpr (Nat.le_of_not_lt outside)] at hc
      exact absurd hc (by simp)
    exact .inr ⟨Nat.lt_succ_self i, inside⟩
  | nil i j => exact ⟨.inl, False.elim⟩
  | cons p ps ih ihs i j =>
    constructor
    · rintro ⟨k, first, others⟩
      exact (ih first).trans ((ihs k j).1 others)
    · rintro (first | others)
      · exact ih first
      · exact (ihs i j).2 others

theorem Pattern.Matches.le {p : Pattern} (h : p.Matches text i j) : i ≤ j := by
  rcases h.onward with rfl | ⟨less, -⟩
  · exact Nat.le_refl i
  · exact Nat.le_of_lt less

theorem Pattern.Matches.le_size {p : Pattern} (h : p.Matches text i j) (inside : i ≤ text.size) :
    j ≤ text.size := by
  rcases h.onward with rfl | ⟨-, within⟩
  · exact inside
  · exact within

end Onward

/-! ### Matching computes the relation -/

namespace Direction

variable {text : Text} {d : Direction} {R : Nat → Nat → Prop} {i j : Nat}

@[simp] theorem orient_forward : orient .forward R i j ↔ R i j := Iff.rfl

@[simp] theorem orient_backward : orient .backward R i j ↔ R j i := Iff.rfl

/-- What is asserted about a single index looks the same from both ends. -/
theorem orient_eq_and (d : Direction) (P : Nat → Prop) :
    d.orient (fun i j => i = j ∧ P i) i j ↔ i = j ∧ P i := by
  cases d with
  | forward => rfl
  | backward => exact ⟨fun ⟨h, hp⟩ => ⟨h.symm, h ▸ hp⟩, fun ⟨h, hp⟩ => ⟨h.symm, h ▸ hp⟩⟩

theorem orient_relates (d : Direction) (q : Quantifier) (R : Nat → Nat → Prop) :
    q.Relates (d.orient R) = d.orient (q.Relates R) := by
  cases d with
  | forward => rfl
  | backward =>
    funext i j
    cases q with
    | zeroOrOne => exact propext (or_congr .rfl eq_comm)
    | zeroOrMore => exact propext reflTransGen_swap
    | oneOrMore => exact propext transGen_swap

theorem next?_eq_some_iff {c : Char} :
    d.next? text i = some (c, j) ↔
      d.orient (fun i j => i + 1 = j ∧ text.get? i = some c) i j := by
  cases d with
  | forward => simp [next?, and_comm]
  | backward =>
    cases i with
    | zero => simp [next?]
    | succ i =>
      simp only [next?, Option.map_eq_some_iff, Prod.mk.injEq, orient_backward, Nat.succ.injEq]
      constructor
      · rintro ⟨_, hc, rfl, rfl⟩
        exact ⟨rfl, hc⟩
      · rintro ⟨rfl, hc⟩
        exact ⟨c, hc, rfl, rfl⟩

/-- A relation that runs onward leaves less room in either direction. -/
theorem room_lt_of_onward (onward : ∀ i j, R i j → Onward text i j) (h : d.orient R i j)
    (moves : j ≠ i) : d.room text j < d.room text i := by
  cases d with
  | forward =>
    have := onward i j h
    simp only [Onward, room] at *
    omega
  | backward =>
    have := onward j i h
    simp only [Onward, room] at *
    omega

end Direction

/-- The indices that a quantified body reaches are those that its steps lead to, if every
step that moves at all leaves less room. -/
theorem Quantifier.mem_reach {q : Quantifier} {room : Nat → Nat} {step : Nat → List Nat}
    (progress : ∀ i, ∀ j ∈ step i, j ≠ i → room j < room i) {i j : Nat} :
    j ∈ q.reach room step i ↔ q.Relates (fun i j => j ∈ step i) i j := by
  -- The steps that the search refuses do not move, so they lead nowhere else.
  have reaches : ∀ i, ReflTransGen (Leads room step) i j ↔
      ReflTransGen (fun i j => j ∈ step i) i j := by
    intro i
    constructor
    · exact fun h => ReflTransGen.mono (fun _ _ => And.left) _ _ h
    · intro h
      induction h with
      | refl => exact .refl
      | @tail k l _ last ih =>
        by_cases stays : l = k
        · exact stays ▸ ih
        · exact ih.tail ⟨last, progress k l last stays⟩
  rw [reach_eq_eraseDups, List.mem_eraseDups]
  cases q with
  | zeroOrOne => simp [ways, Relates, eq_comm]
  | zeroOrMore => exact mem_again.trans (reaches i)
  | oneOrMore =>
    rw [ways, Relates, List.mem_flatMap, TransGen.head'_iff]
    exact exists_congr fun k => and_congr .rfl (mem_again.trans (reaches k))

namespace Pattern

variable {text : Text} {d : Direction} {i j : Nat}

/-- A pattern that consumes nothing reaches its own index, if its assertion holds there. -/
private theorem mem_ite_singleton {b : Bool} : j ∈ (if b then [i] else []) ↔ i = j ∧ b = true := by
  cases b <;> simp [eq_comm]

private theorem isEmpty_beq_iff {is : List Nat} {R : Nat → Prop} {negated : Bool}
    (h : ∀ k, k ∈ is ↔ R k) : (is.isEmpty == negated) = true ↔ ((∃ k, R k) ↔ negated = false) := by
  have something : (∃ k, R k) ↔ is.isEmpty = false := by
    simp only [← h]
    exact List.isEmpty_eq_false_iff_exists_mem.symm
  rw [something]
  cases is.isEmpty <;> cases negated <;> decide

/-- Matching in either direction computes the relation of the pattern. -/
theorem mem_reach {p : Pattern} : j ∈ p.reach text d i ↔ d.orient (p.Matches text) i j := by
  -- A sequence hands on a list of indices, so its members are followed from several at once.
  induction p using Pattern.induct
    (L := fun ps => (∀ d is j, j ∈ reachSeq text d ps is ↔
        ∃ i ∈ is, d.orient (MatchesSeq text ps) i j) ∧
      ∀ d i j, j ∈ reachAlt text d ps i ↔ d.orient (MatchesAlt text ps) i j)
    generalizing d i j with
  | seq ps ih =>
    rw [reach, ih.1]
    cases d <;> simp [Matches]
  | alt ps ih =>
    rw [reach, mem_distinct, ih.2]
    cases d <;> simp [Matches]
  | quantified q p ih =>
    have progress : ∀ i, ∀ j ∈ p.reach text d i, j ≠ i → d.room text j < d.room text i :=
      fun i j hj => Direction.room_lt_of_onward (fun _ _ => Matches.onward) (ih.mp hj)
    have body : (fun i j => j ∈ p.reach text d i) = d.orient (p.Matches text) :=
      funext fun i => funext fun j => propext ih
    rw [reach, Quantifier.mem_reach progress, body, Direction.orient_relates]
    cases d <;> simp [Matches]
  | group p ih =>
    rw [reach, ih]
    cases d <;> simp [Matches]
  | look negated p ih =>
    -- Whatever the direction is, the body of a lookahead is matched forward.
    have forward : ∀ k, k ∈ p.reach text .forward i ↔ p.Matches text i k := fun k => ih
    rw [reach, mem_ite_singleton, isEmpty_beq_iff forward]
    exact (d.orient_eq_and fun i => (∃ k, p.Matches text i k) ↔ negated = false).symm
  | anchor a =>
    rw [reach, mem_ite_singleton]
    exact (d.orient_eq_and fun i => a.holds text i = true).symm
  | single t =>
    have step : j ∈ reach text d (.single t) i ↔
        ∃ c, d.next? text i = some (c, j) ∧ t.holds c = true := by
      rw [reach]
      cases next : d.next? text i with
      | none => simp
      | some ahead => by_cases holds : t.holds ahead.1 <;> grind
    rw [step]
    simp only [Direction.next?_eq_some_iff]
    cases d <;> simp [Matches, and_assoc]
  | nil =>
    constructor
    · intro d is j
      cases d <;> simp [reachSeq, MatchesSeq]
    · intro d i j
      cases d <;> simp [reachAlt, MatchesAlt]
  | cons p ps ih ihs =>
    constructor
    · intro d is j
      cases d with
      | forward =>
        -- The first member is followed first, and the others from where it leads.
        simp only [reachSeq, ihs.1, mem_distinct, List.mem_flatMap, ih, Direction.orient_forward,
          MatchesSeq]
        constructor
        · rintro ⟨k, ⟨i, hi, first⟩, others⟩
          exact ⟨i, hi, k, first, others⟩
        · rintro ⟨i, hi, k, first, others⟩
          exact ⟨k, ⟨i, hi, first⟩, others⟩
      | backward =>
        -- The other way round, which composes the same two relations.
        simp only [reachSeq, ihs.1, mem_distinct, List.mem_flatMap, ih, Direction.orient_backward,
          MatchesSeq]
        constructor
        · rintro ⟨k, ⟨i, hi, others⟩, first⟩
          exact ⟨i, hi, k, first, others⟩
        · rintro ⟨i, hi, k, first, others⟩
          exact ⟨k, ⟨i, hi, others⟩, first⟩
    · intro d i j
      rw [reachAlt, List.mem_append, ih, ihs.2]
      cases d <;> simp [MatchesAlt]

theorem mem_ends {p : Pattern} : j ∈ p.ends text i ↔ p.Matches text i j :=
  mem_reach

theorem mem_starts {p : Pattern} : j ∈ p.starts text i ↔ p.Matches text j i :=
  mem_reach

/-- Forward and backward matching find the same matches: a match that starts at `s` can
end at `e` if and only if a match that ends at `e` can start at `s`. -/
theorem mem_ends_iff_mem_starts (p : Pattern) (text : Text) (s e : Nat) :
    e ∈ p.ends text s ↔ s ∈ p.starts text e := by
  rw [mem_ends, mem_starts]

end Pattern

end StringTransform
