import StringTransform.Proofs.Extraction.RunLoop

/-!
# The first failure of a loop's body

A loop without limit ends where its body fails for the first time. If that is at the first
occurrence, the loop fails; if it is later, the loop puts together what the body has given at
the occurrences before; and if the body never fails, the loop fails when it runs out of
occurrences. What the body does behind its first failure does not matter. In any case the loop
ends.

## Main definitions

* `Loop.results` — a loop with its bodies evaluated
* `Loop.FailsFirst` — the body fails at an occurrence and at none before it

## Main results

* `Loop.run_of_failsFirst` — a loop gathers the parts in front of the first failure
* `Formula.unlimited_loop_result` — the result of a loop without limit
-/

namespace StringTransform

/-- The loop with its bodies evaluated on a row. -/
def Loop.results (l : Loop Formula) (row : Row) : Loop (Option String) :=
  ⟨fun k => (l.body k).eval row, l.limit⟩

/-- A loop runs on what its bodies give. -/
theorem Formula.eval_loop (l : Loop Formula) (row : Row) :
    (loop l).eval row = (l.results row).run := by
  rw [eval]
  rfl

namespace Loop

variable {l : Loop (Option String)} {n : Occurrence}

/-- The body fails at the occurrence, and at none before it. -/
structure FailsFirst (l : Loop (Option String)) (n : Occurrence) : Prop where
  positive : n.fromStart = true
  fails : l.body n = none
  succeeds : ∀ k : Occurrence, k.fromStart = true → k.rank < n.rank → l.body k ≠ none

/-- There is only one occurrence at which the body fails first. -/
theorem FailsBehind.eq_of_failsFirst {parts : List String} {m : Occurrence}
    (behind : l.FailsBehind parts m) (first : l.FailsFirst n) : m = n := by
  refine Occurrence.eq_of_rank_eq behind.positive first.positive ?_
  rcases Nat.lt_trichotomy m.rank n.rank with before | same | later
  · exact absurd behind.fails (first.succeeds m behind.positive before)
  · exact same
  · exact absurd first.fails (behind.succeeds first.positive later)

/-- A loop without limit gathers the parts in front of the first failure, unless there are
none. -/
theorem run_of_failsFirst (unlimited : l.limit = none) (first : l.FailsFirst n)
    (later : 1 < n.rank) :
    ∃ parts, l.FailsBehind parts n ∧ l.run = some (String.join parts) := by
  rcases run_cases unlimited with ⟨fails, -⟩ | ⟨parts, m, -, behind, result⟩ | ⟨succeeds, -⟩
  · exact absurd fails (first.succeeds .first rfl later)
  · obtain rfl := behind.eq_of_failsFirst first
    exact ⟨parts, behind, result⟩
  · exact absurd first.fails (succeeds n first.positive)

/-- A loop without limit fails if its body never does. -/
theorem run_of_succeeds (unlimited : l.limit = none)
    (succeeds : ∀ k : Occurrence, k.fromStart = true → l.body k ≠ none) : l.run = none := by
  rcases run_cases unlimited with ⟨-, result⟩ | ⟨_, m, -, behind, -⟩ | ⟨-, result⟩
  · exact result
  · exact absurd behind.fails (succeeds m behind.positive)
  · exact result

end Loop

namespace Formula

/-- A loop without limit fails if its body fails at the first occurrence. If the body fails first
at a later one, the loop puts together, in order, the parts that the body has given at the
occurrences before. If the body fails at no occurrence from the start, the loop fails. Once the
first body has succeeded, the loop comes to this result within as many turns as there are
occurrences. -/
theorem unlimited_loop_result {l : Loop Formula} (unlimited : l.limit = none) (row : Row) :
    ((l.body .first).eval row = none → (loop l).eval row = none) ∧
      (∀ n, (l.results row).FailsFirst n → 1 < n.rank →
        ∃ parts, (l.results row).FailsBehind parts n ∧
          (loop l).eval row = some (String.join parts)) ∧
      ((∀ k : Occurrence, k.fromStart = true → (l.body k).eval row ≠ none) →
        (loop l).eval row = none) ∧
      ∀ part, (l.body .first).eval row = some part →
        (l.results row).EndsWithin 2147483647 .first part ((loop l).eval row) := by
  rw [eval_loop]
  refine ⟨?_, ?_, ?_, ?_⟩
  · intro fails
    have first : (l.results row).body .first = none := fails
    rw [Loop.run, first, Option.bind_none]
  · exact fun n first later => Loop.run_of_failsFirst unlimited first later
  · exact fun succeeds => Loop.run_of_succeeds unlimited succeeds
  · intro part success
    have first : (l.results row).body .first = some part := success
    rw [Loop.run, first, Option.bind_some]
    exact Loop.endsWithin_resume rfl (by decide)

/-- The capitals of a sentence: the body fails first at the fourth occurrence. -/
theorem acronym_before_fourth_capital :
    (Loop.mk (fun k => Formula.nth .subject Run.upper.token k) none).limit = none ∧
      ((Loop.mk (fun k => Formula.nth .subject Run.upper.token k) none).results
        (.ofSubject "My Taylor is Rich")).FailsFirst ⟨4, by decide, by decide, by decide⟩ ∧
      (Formula.loop ⟨fun k => .nth .subject Run.upper.token k, none⟩).eval
        (.ofSubject "My Taylor is Rich") = some "MTR" := by
  let l : Loop Formula := ⟨fun k => .nth .subject Run.upper.token k, none⟩
  let row : Row := .ofSubject "My Taylor is Rich"
  let fourth : Occurrence := ⟨4, by decide, by decide, by decide⟩
  have runs : ((Text.ofString "My Taylor is Rich").runs Run.upper.contains).map
      (Text.ofString "My Taylor is Rich").stretch = ["M", "T", "R"] := by decide +kernel
  have present : row.text? .subject = some "My Taylor is Rich" := rfl
  have capitals : ∀ k : Occurrence, k.fromStart = true →
      (l.results row).body k = ["M", "T", "R"][k.rank - 1]? := by
    intro k positive
    rw [← runs]
    exact nth_eval_of_run .upper present positive
  have first : (l.results row).FailsFirst fourth := by
    refine ⟨rfl, capitals fourth rfl, ?_⟩
    intro k positive before
    have rank : k.rank - 1 < 3 := by
      have := k.rank_pos
      have : k.rank < 4 := before
      omega
    rw [capitals k positive, List.getElem?_eq_getElem rank]
    exact Option.some_ne_none _
  obtain ⟨-, gathers, -, -⟩ := unlimited_loop_result (l := l) rfl row
  obtain ⟨parts, behind, result⟩ := gathers fourth first (by decide)
  rw [behind.eq_of_body capitals] at result
  exact ⟨rfl, first, result⟩

end Formula

end StringTransform
