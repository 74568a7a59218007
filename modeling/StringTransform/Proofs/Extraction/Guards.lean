import StringTransform.Formula.Choice
import StringTransform.Proofs.Extraction.FromEnd

/-!
# Guards of an extraction

A guard asks how often a token matches, and the formula behind it cuts out the match of some
rank. The guard counts what one scan finds. Counted from the start, the formula looks for the
beginning of the match and for its end in two different ways; counted from the end, it scans
in the other direction, and takes every index for an end at which the token matches what comes
before. For the tokens of runs they all agree on how many matches there are, and wherever
there is a match of a rank, something is cut out. So what is guarded by the count of matches
does not fail.

## Main results

* `Run.isSome_cut_from_end_iff`, `Formula.nth_isSome_iff` — something is cut out exactly if
  there are as many matches as the occurrence counts
* `Choice.eval_of_first` — the first branch that holds decides
* `Formula.guard_agrees_with_extraction` — a guard holds exactly if the extraction succeeds
-/

namespace StringTransform

namespace Run

variable {r : Run} {text : Text} {k : Occurrence}

/-- From right to left the scan finds as many matches as from left to right. -/
theorem length_spansBackward (r : Run) (text : Text) :
    (r.token.spansBackward text).length = r.token.count text := by
  rw [Token.count, spans_eq_runs, spansBackward_eq_runs, List.length_reverse]

/-- Counted from the end, something is cut out exactly if there are so many matches. -/
theorem isSome_cut_from_end_iff (negative : k.fromStart = false) :
    (text.cut (.boundary .empty r.token k) (.boundary r.token .empty k)).isSome ↔
      k.rank ≤ r.token.count text := by
  have positive := k.rank_pos
  rw [cut_from_end r text negative, ← length_spansBackward]
  cases found : (r.token.spansBackward text)[k.rank - 1]? with
  | none =>
    have fewer := List.getElem?_eq_none_iff.mp found
    simp only [Option.bind_none, Option.isSome_none, Bool.false_eq_true, false_iff]
    omega
  | some run =>
    obtain ⟨inside, -⟩ := List.getElem?_eq_some_iff.mp found
    -- The ends are counted over more indices than the beginnings, so there is one of this rank.
    obtain ⟨stop, hstop, -⟩ := Text.closing_of_rank (spansBackward_eq_runs r text ▸ found)
    simp only [hstop, Option.bind_some, Option.map_some, Option.isSome_some, true_iff]
    omega

end Run

namespace Formula

variable {row : Row} {v : Var} {s : String}

/-- The match of a run's token that an occurrence chooses is found exactly if there are as many
matches as the occurrence counts, from either end. -/
theorem nth_isSome_iff (r : Run) (present : row.text? v = some s) (k : Occurrence) :
    ((Formula.nth v r.token k).eval row).isSome ↔ k.rank ≤ r.token.count (.ofString s) := by
  cases direction : k.fromStart with
  | true =>
    -- The run of this rank is what is cut out.
    have positive := k.rank_pos
    rw [nth_eval_of_run r present direction, isSome_getElem?, List.length_map,
      ← Run.spans_eq_runs, Token.count]
    omega
  | false =>
    rw [eval, present, Option.bind_some]
    exact Run.isSome_cut_from_end_iff direction

end Formula

/-- The first branch whose condition holds decides. -/
theorem Choice.eval_of_first {row : Row} {earlier later : List (Condition × Formula)}
    {guard : Condition} (e : Formula) (skipped : ∀ branch ∈ earlier, branch.1.holds row = false)
    (holds : guard.holds row = true) :
    (Choice.mk (earlier ++ (guard, e) :: later)).eval row = e.eval row := by
  have passed : earlier.find? (·.1.holds row) = none := by
    rw [List.find?_eq_none]
    intro branch member
    exact ne_true_of_eq_false (skipped branch member)
  have decides : ((guard, e) :: later).find? (·.1.holds row) = some (guard, e) :=
    List.find?_cons_of_pos holds
  rw [eval, List.find?_append, passed, Option.none_or, decides, Option.bind_some]

namespace Formula

/-- A guard that asks for as many matches of a run's token as an occurrence counts, be it from
the start or from the end, holds exactly if the match that the occurrence chooses is found. So
a branch that cuts out this match behind such a guard does not fail if it decides. -/
theorem guard_agrees_with_extraction (r : Run) (row : Row) (v : Var) (k : Occurrence) :
    ((Condition.occurs ⟨v, r.token, k.rank⟩).holds row = true ↔
        ((Formula.nth v r.token k).eval row).isSome) ∧
      ∀ earlier later : List (Condition × Formula),
        (∀ branch ∈ earlier, branch.1.holds row = false) →
        (Condition.occurs ⟨v, r.token, k.rank⟩).holds row = true →
        ((Choice.mk (earlier ++ (.occurs ⟨v, r.token, k.rank⟩, .nth v r.token k) :: later)).eval
          row).isSome := by
  have agree : (Condition.occurs ⟨v, r.token, k.rank⟩).holds row = true ↔
      ((Formula.nth v r.token k).eval row).isSome := by
    cases present : row.text? v with
    | none => simp [Condition.holds, Occurs.holds, eval, present]
    | some s => simp [Condition.holds, Occurs.holds, nth_isSome_iff r present, present]
  refine ⟨agree, ?_⟩
  intro earlier later skipped holds
  rw [Choice.eval_of_first _ skipped holds]
  exact agree.mp holds

end Formula

end StringTransform
