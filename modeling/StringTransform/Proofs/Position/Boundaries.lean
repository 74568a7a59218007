import Mathlib.Data.List.TakeWhile
import StringTransform.Position.Basic
import StringTransform.Proofs.Scan.Order

/-!
# Choosing among boundaries

The choice of a candidate walks along the candidates and the spans to be avoided at once, and
drops the spans that it has left behind. Since both come in order it chooses among all
candidates that qualify and lie in none of the spans. Where one of the two tokens of a
boundary is the empty one, which matches everywhere, the other one alone decides.

## Main definitions

* `Span.shadows` — an index lies inside the span or at its stop

## Main results

* `nthOutside_eq` — the choice, without the walk
* `Position.locateFromStart_eq_filter`, `Position.locateFromEnd_eq_filter` — the same for the
  candidates that two tokens give
* `Position.locateFromStart_empty_left`, `Position.locateFromStart_empty_right` — boundaries of
  a single token, counted from the start
* `Position.locateFromEnd_empty_left`, `Position.locateFromEnd_empty_right` — the same, counted
  from the end
-/

namespace StringTransform

variable {t : Token} {text : Text} {i : Nat}

/-- The index lies inside the span or at its stop. -/
def Span.shadows (span : Span) (i : Nat) : Bool :=
  span.start < i && i ≤ span.stop

section Choice

variable {qualifies : Nat → Bool} {spans : List Span}

/-- Spans that stop before an index shadow nothing from there on. -/
theorem any_shadows_dropWhile {j : Nat} (later : i ≤ j) :
    (spans.dropWhile (·.stop < i)).any (·.shadows j) = spans.any (·.shadows j) := by
  have passed : (spans.takeWhile (·.stop < i)).any (·.shadows j) = false := by
    rw [List.any_eq_false]
    intro span member
    have stops : span.stop < i := by simpa using List.mem_takeWhile_imp member
    simp only [Span.shadows, Bool.and_eq_true, decide_eq_true_eq]
    omega
  calc (spans.dropWhile (·.stop < i)).any (·.shadows j)
      = ((spans.takeWhile (·.stop < i)) ++ spans.dropWhile (·.stop < i)).any (·.shadows j) := by
        rw [List.any_append, passed, Bool.false_or]
    _ = spans.any (·.shadows j) := by rw [List.takeWhile_append_dropWhile]

/-- If spans that stop before the index are gone, the first span alone tells whether one of
them shadows it, because the others start later. -/
theorem any_shadows_head? (starts : spans.Pairwise (·.start ≤ ·.start))
    (reaches : ∀ span ∈ spans.head?, i ≤ span.stop) :
    spans.head?.any (·.shadows i) = spans.any (·.shadows i) := by
  cases spans with
  | nil => rfl
  | cons first others =>
    have stops : i ≤ first.stop := reaches first rfl
    rw [List.head?_cons, Option.any_some, List.any_cons, Bool.eq_iff_iff, Bool.or_eq_true]
    constructor
    · exact .inl
    · rintro (shadowed | shadowed)
      · exact shadowed
      · obtain ⟨span, member, shadowed⟩ := List.any_eq_true.mp shadowed
        -- It starts before the index, and so does the first one.
        have order := List.rel_of_pairwise_cons starts member
        simp only [Span.shadows, Bool.and_eq_true, decide_eq_true_eq] at shadowed ⊢
        omega

/-- The choice is among all candidates that qualify and are not shadowed. -/
theorem nthOutside_eq {is : List Nat} (starts : spans.Pairwise (·.start ≤ ·.start))
    (candidates : is.Pairwise (· ≤ ·)) (skip : Nat) :
    nthOutside qualifies spans skip is =
      (is.filter fun i => qualifies i && !spans.any (·.shadows i))[skip]? := by
  induction is generalizing spans skip with
  | nil => rfl
  | cons i is ih =>
    obtain ⟨later, candidates⟩ := List.pairwise_cons.mp candidates
    let left : List Span := spans.dropWhile (·.stop < i)
    have ordered : left.Pairwise (·.start ≤ ·.start) :=
      starts.sublist (List.dropWhile_sublist _)
    have reaches : ∀ span ∈ left.head?, i ≤ span.stop := by
      intro span first
      have kept := List.head?_dropWhile_not (fun span : Span => decide (span.stop < i)) spans
      rw [Option.mem_def.mp first] at kept
      simpa using kept
    have shadowed : left.head?.any (·.shadows i) = spans.any (·.shadows i) :=
      (any_shadows_head? ordered reaches).trans (any_shadows_dropWhile (Nat.le_refl i))
    -- The spans that have been dropped do not matter to the candidates that follow.
    have rest : ∀ skip, nthOutside qualifies left skip is =
        (is.filter fun i => qualifies i && !spans.any (·.shadows i))[skip]? := by
      intro skip
      rw [ih ordered candidates]
      congr 1
      refine List.filter_congr fun j hj => ?_
      rw [any_shadows_dropWhile (later j hj)]
    let accepted : Bool := qualifies i && !spans.any (·.shadows i)
    have test : (left.head?.any (·.shadows i) || !qualifies i) = !accepted := by
      rw [shadowed, Bool.not_and, Bool.not_not, Bool.or_comm]
    rw [List.filter_cons]
    cases chosen : accepted with
    | false =>
      have passed : (left.head?.any (·.shadows i) || !qualifies i) = true := by
        rw [test, chosen, Bool.not_false]
      have step : nthOutside qualifies spans skip (i :: is) = nthOutside qualifies left skip is :=
        if_pos passed
      rw [step, rest, if_neg (ne_true_of_eq_false chosen)]
    | true =>
      have counted : ¬(left.head?.any (·.shadows i) || !qualifies i) = true := by
        rw [test, chosen, Bool.not_true]
        exact Bool.false_ne_true
      rw [if_pos chosen]
      cases skip with
      | zero => exact if_neg counted
      | succ skip =>
        have step : nthOutside qualifies spans (skip + 1) (i :: is) =
            nthOutside qualifies left skip is := if_neg counted
        rw [step, rest, List.getElem?_cons_succ]

end Choice

/-! ### The empty token -/

namespace Token

theorem still_empty (i j : Nat) (h : empty.pattern.Matches text i j) : i = j := h

theorem ends_empty : empty.pattern.ends text i = [i] := rfl

@[simp] theorem opens_empty : empty.opens text = true := rfl

@[simp] theorem closes_empty : empty.closes text = true := rfl

theorem stillSpans_empty :
    empty.stillSpans text = (List.range (text.size + 1)).map fun i => ⟨i, i⟩ := by
  simp [stillSpans, ends_empty]

/-- The empty token is found at every index. -/
theorem spans_empty : empty.spans text = (List.range (text.size + 1)).map fun i => ⟨i, i⟩ := by
  rw [spans_eq_of_still still_empty, stillSpans_empty]

theorem spansBackward_empty :
    empty.spansBackward text = ((List.range (text.size + 1)).map fun i => ⟨i, i⟩).reverse := by
  rw [spansBackward_eq_of_still still_empty, stillSpans_empty]

theorem pairwise_start_le_spans : (t.spans text).Pairwise (·.start ≤ ·.start) :=
  pairwise_before_spans.imp fun before => Nat.le_of_lt before.1

theorem pairwise_stop_le_spans : ((t.spans text).map (·.stop)).Pairwise (· ≤ ·) := by
  rw [List.pairwise_map]
  refine pairwise_before_spans.imp_of_mem ?_
  intro a b _ hb before
  exact Nat.le_trans before.2 (within_of_mem_spans b hb).1

end Token

/-! ### Boundaries without the walk -/

namespace Position

section Choice

variable {l r : Token}

/-- An occurrence from the start is an index into the stops that qualify. -/
theorem locateFromStart_eq_filter (rank : Nat) :
    locateFromStart l r rank text =
      (((l.spans text).map (·.stop)).filter fun i =>
        r.opens (text.drop i) &&
          !(if l.isEmpty then r.spans text else []).any (·.shadows i))[rank - 1]? := by
  have starts : (if l.isEmpty then r.spans text else []).Pairwise (·.start ≤ ·.start) := by
    split
    · exact Token.pairwise_start_le_spans
    · exact .nil
  exact nthOutside_eq starts Token.pairwise_stop_le_spans (rank - 1)

/-- An occurrence from the end is an index into the starts that qualify. -/
theorem locateFromEnd_eq_filter (rank : Nat) :
    locateFromEnd l r rank text =
      (((r.spansBackward text).map (·.start)).filter fun i => l.closes (text.take i))[rank - 1]? :=
  nthOutside_nil _ _ _

end Choice

/-! ### Boundaries of a single token -/

/-- Boundaries before a token, counted from the start: the indices at which the token matches
what follows, apart from those inside its spans and at their stops. -/
theorem locateFromStart_empty_left (rank : Nat) :
    locateFromStart .empty t rank text =
      ((List.range (text.size + 1)).filter fun i =>
        t.opens (text.drop i) && !(t.spans text).any (·.shadows i))[rank - 1]? := by
  have candidates : (Token.empty.spans text).map (·.stop) = List.range (text.size + 1) := by
    simp [Token.spans_empty, Function.comp_def]
  rw [locateFromStart_eq_filter, candidates]
  rfl

/-- Boundaries behind a token, counted from the start: the stops of its spans. -/
theorem locateFromStart_empty_right (rank : Nat) :
    locateFromStart t .empty rank text = ((t.spans text).map (·.stop))[rank - 1]? := by
  -- Whichever spans are avoided, they are empty and shadow nothing.
  have nothing : ∀ i, (if t.isEmpty then Token.empty.spans text else []).any (·.shadows i) =
      false := by
    intro i
    split
    · simp [Token.spans_empty, Span.shadows]
    · rfl
  rw [locateFromStart_eq_filter]
  simp [nothing]

/-- Boundaries before a token, counted from the end: the starts of its spans. -/
theorem locateFromEnd_empty_left (rank : Nat) :
    locateFromEnd .empty t rank text = ((t.spansBackward text).map (·.start))[rank - 1]? := by
  rw [locateFromEnd_eq_filter]
  simp

/-- Boundaries behind a token, counted from the end: the indices at which the token matches
what comes before. -/
theorem locateFromEnd_empty_right (rank : Nat) :
    locateFromEnd t .empty rank text =
      ((List.range (text.size + 1)).reverse.filter fun i => t.closes (text.take i))[rank - 1]? := by
  have candidates : (Token.empty.spansBackward text).map (·.start) =
      (List.range (text.size + 1)).reverse := by
    simp [Token.spansBackward_empty, ← List.map_reverse, Function.comp_def]
  rw [locateFromEnd_eq_filter, candidates]

end Position

end StringTransform
