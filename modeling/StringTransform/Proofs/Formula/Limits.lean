import StringTransform.Proofs.Formula.FirstFailure

/-!
# Limits of loops

A limit does not change what a loop does as long as the limit is not exceeded. Only the turns
are held against it: the first success comes before all turns, and no limit asks for it. So a
loop that ends by itself after some successes gives the same result under every limit that is
not below their number, and under the limit zero too if there is only one of them. Under any
other limit it fails. A loop that fails by itself fails under every limit.

## Main definitions

* `Loop.SucceedsTimes` — the body succeeds exactly so many times before it fails
* `Formula.entry` — a body that gives the parts of a list one after the other

## Main results

* `Loop.resume_limitedTo_of_success` — a turn at which the body succeeds
* `Loop.resume_limitedTo`, `Loop.run_limitedTo` — what a limited loop does if its body fails at
  last
* `Formula.limited_loop_result` — the result of a loop with a limit
-/

namespace StringTransform

namespace Loop

variable {l : Loop (Option String)} {limit times : Nat} {k n next : Occurrence}
  {done part : String}

/-- The body succeeds at the first `times` occurrences and fails at the one behind them. -/
def SucceedsTimes (l : Loop (Option String)) (times : Nat) : Prop :=
  ∃ n, l.FailsFirst n ∧ n.rank = times + 1

theorem resume_limitedTo_of_failure (step : k.next? = some next) (failure : l.body next = none) :
    (l.limitedTo limit).resume k done = some done := by
  have failure' : (l.limitedTo limit).body next = none := failure
  rw [resume_of_next? done step, failure']

/-- A success at an occurrence above the limit is one too many. -/
theorem resume_limitedTo_of_success (step : k.next? = some next)
    (success : l.body next = some part) :
    (l.limitedTo limit).resume k done =
      if limit < next.rank then none else (l.limitedTo limit).resume next (done ++ part) := by
  have success' : (l.limitedTo limit).body next = some part := success
  rw [resume_of_next? done step, success']
  simp [limitedTo]

/-- A body that succeeds does not fail first. -/
theorem FailsFirst.rank_ne (first : l.FailsFirst n) (positive : k.fromStart = true)
    (success : l.body k = some part) : k.rank ≠ n.rank := by
  intro same
  rw [Occurrence.eq_of_rank_eq positive first.positive same, first.fails] at success
  cases success

/-- A loop that goes on from occurrence `k` has succeeded as often as the rank of `k` says, and
the limit does not ask for these successes any more. -/
theorem resume_limitedTo (unlimited : l.limit = none) (first : l.FailsFirst n)
    (positive : k.fromStart = true) (before : k.rank < n.rank) :
    (l.limitedTo limit).resume k done =
      if n.rank - 1 ≤ max limit k.rank then l.resume k done else none := by
  -- The induction follows the loop without a limit, which takes all turns of the other one.
  fun_induction resume l k done with
  | case1 k done last => rw [resume_last done last, ite_self]
  | case2 k done next step failure =>
    have rank := k.rank_of_next? step
    have positive' := (k.fromStart_of_next? step).trans positive
    have reached : n.rank ≤ next.rank :=
      Nat.le_of_not_lt fun later => first.succeeds next positive' later failure
    rw [resume_limitedTo_of_failure step failure, if_pos (by omega)]
  | case3 k done next step part success beyond =>
    rw [unlimited] at beyond
    cases beyond
  | case4 k done next step part success under ih =>
    have rank := k.rank_of_next? step
    have positive' := (k.fromStart_of_next? step).trans positive
    have other := first.rank_ne positive' success
    rw [resume_limitedTo_of_success step success]
    by_cases exceeded : limit < next.rank
    · rw [if_pos exceeded, if_neg (by omega)]
    · -- The limit allows the next occurrence, so it is above both ranks.
      have same : max limit next.rank = max limit k.rank := by omega
      rw [if_neg exceeded, ih positive' (by omega), same]

/-- A limited loop does what the loop does by itself, or it fails. -/
theorem resume_limitedTo_eq_or (unlimited : l.limit = none) :
    (l.limitedTo limit).resume k done = l.resume k done ∨
      (l.limitedTo limit).resume k done = none := by
  fun_induction resume l k done with
  | case1 k done last => exact .inr (resume_last done last)
  | case2 k done next step failure => exact .inl (resume_limitedTo_of_failure step failure)
  | case3 k done next step part success beyond =>
    rw [unlimited] at beyond
    cases beyond
  | case4 k done next step part success under ih =>
    rw [resume_limitedTo_of_success step success]
    split
    · exact .inr rfl
    · exact ih

/-- If the body fails at last, the limit has to allow every success but the first. -/
theorem run_limitedTo (unlimited : l.limit = none) (succeeds : l.SucceedsTimes times) :
    (l.limitedTo limit).run = if times ≤ max limit 1 then l.run else none := by
  obtain ⟨n, first, rank⟩ := succeeds
  have same : (l.limitedTo limit).body .first = l.body .first := rfl
  rw [run, run, same]
  cases success : l.body .first with
  | none => rw [Option.bind_none, Option.bind_none, ite_self]
  | some part =>
    have one : Occurrence.first.rank = 1 := rfl
    have other := first.rank_ne rfl success
    rw [Option.bind_some, Option.bind_some, resume_limitedTo unlimited first rfl (by omega), one,
      rank, Nat.add_sub_cancel]

theorem run_limitedTo_of_run_eq_none (unlimited : l.limit = none) (fails : l.run = none) :
    (l.limitedTo limit).run = none := by
  have same : (l.limitedTo limit).body .first = l.body .first := rfl
  rw [run, same]
  cases success : l.body .first with
  | none => rfl
  | some part =>
    rw [run, success, Option.bind_some] at fails
    rw [Option.bind_some]
    rcases resume_limitedTo_eq_or unlimited with resumed | failed
    · rw [resumed, fails]
    · exact failed

/-- A loop without limit that gives a result succeeds a certain number of times. -/
theorem exists_succeedsTimes (unlimited : l.limit = none) {s : String} (result : l.run = some s) :
    ∃ times, 0 < times ∧ l.SucceedsTimes times := by
  rcases run_cases unlimited with ⟨-, fails⟩ | ⟨parts, n, later, behind, -⟩ | ⟨-, fails⟩
  · rw [fails] at result
    cases result
  · have length := behind.length
    refine ⟨parts.length, by omega, n, ⟨behind.positive, behind.fails, ?_⟩, length.symm⟩
    exact fun k positive before => behind.succeeds positive before
  · rw [fails] at result
    cases result

end Loop

namespace Formula

/-- The part of a list that belongs to an occurrence, if there is one. -/
def entry (parts : List String) (k : Occurrence) : Formula :=
  (parts[k.rank - 1]?).elim fail const

theorem eval_entry (row : Row) (parts : List String) (k : Occurrence) :
    (entry parts k).eval row = parts[k.rank - 1]? := by
  unfold entry
  cases parts[k.rank - 1]? with
  | none => rw [Option.elim_none, eval]
  | some s => rw [Option.elim_some, eval]

/-- A loop over the parts of a list succeeds once for each of them. -/
theorem succeedsTimes_entry (row : Row) {parts : List String} (few : parts.length < 2147483647) :
    ((Loop.mk (entry parts) none).results row).SucceedsTimes parts.length := by
  let n : Occurrence := .ofRank (parts.length + 1) (Nat.succ_pos _) few
  have body : ∀ k, ((Loop.mk (entry parts) none).results row).body k = parts[k.rank - 1]? :=
    fun k => eval_entry row parts k
  refine ⟨n, ⟨Occurrence.fromStart_ofRank, ?_, ?_⟩, Occurrence.rank_ofRank⟩
  · rw [body, Occurrence.rank_ofRank, Nat.add_sub_cancel, List.getElem?_eq_none_iff]
  · intro k _ before
    have inside := k.rank_pos
    rw [Occurrence.rank_ofRank] at before
    rw [body, ne_eq, List.getElem?_eq_none_iff]
    omega

theorem eval_loop_entry (row : Row) {parts : List String} (present : 0 < parts.length)
    (few : parts.length < 2147483647) :
    (loop ⟨entry parts, none⟩).eval row = some (String.join parts) := by
  rw [eval_loop, Loop.run_of_parts rfl fun k _ => eval_entry row parts k, if_pos ⟨present, few⟩]

/-- A loop that gives a result without a limit does so after a certain number of successes of its
body. With a limit it gives the same result if there are not more successes than the limit
allows, or only one, and it fails if there are more. A loop that fails without a limit fails
with every limit. -/
theorem limited_loop_result {l : Loop Formula} (unlimited : l.limit = none) (row : Row)
    (limit : Nat) :
    (∀ s, (loop l).eval row = some s → ∃ times, 0 < times ∧ (l.results row).SucceedsTimes times) ∧
      (∀ s times, (loop l).eval row = some s → (l.results row).SucceedsTimes times →
        (loop (l.limitedTo limit)).eval row = if times ≤ max limit 1 then some s else none) ∧
      ((loop l).eval row = none → (loop (l.limitedTo limit)).eval row = none) := by
  have limited : (l.limitedTo limit).results row = (l.results row).limitedTo limit := rfl
  rw [eval_loop, eval_loop, limited]
  refine ⟨?_, ?_, ?_⟩
  · exact fun s result => Loop.exists_succeedsTimes unlimited result
  · intro s times result succeeds
    rw [Loop.run_limitedTo unlimited succeeds, result]
  · exact fun fails => Loop.run_limitedTo_of_run_eq_none unlimited fails

/-- Three successes keep to the limit three, and exceed the limit two. -/
theorem three_successes_under_limits :
    (Loop.mk (entry ["A", "B", "C"]) none).limit = none ∧
      (loop ⟨entry ["A", "B", "C"], none⟩).eval ∅ = some "ABC" ∧
      ((Loop.mk (entry ["A", "B", "C"]) none).results ∅).SucceedsTimes 3 ∧
      (loop ((Loop.mk (entry ["A", "B", "C"]) none).limitedTo 3)).eval ∅ = some "ABC" ∧
      (loop ((Loop.mk (entry ["A", "B", "C"]) none).limitedTo 2)).eval ∅ = none := by
  have result : (loop ⟨entry ["A", "B", "C"], none⟩).eval ∅ = some "ABC" :=
    eval_loop_entry ∅ (by decide) (by decide)
  have succeeds : ((Loop.mk (entry ["A", "B", "C"]) none).results ∅).SucceedsTimes 3 :=
    succeedsTimes_entry ∅ (by decide)
  have limited : ∀ limit, (loop ((Loop.mk (entry ["A", "B", "C"]) none).limitedTo limit)).eval ∅ =
      if 3 ≤ max limit 1 then some "ABC" else none :=
    fun limit => (limited_loop_result rfl ∅ limit).2.1 "ABC" 3 result succeeds
  exact ⟨rfl, result, succeeds, limited 3, limited 2⟩

/-- One success exceeds the limit zero, and yet the loop does not fail. -/
theorem single_success_over_limit_zero :
    (loop ⟨entry ["A"], none⟩).eval (.ofSubject "") = some "A" ∧
      ((Loop.mk (entry ["A"]) none).results (.ofSubject "")).SucceedsTimes 1 ∧ 0 < 1 ∧
      (loop ((Loop.mk (entry ["A"]) none).limitedTo 0)).eval (.ofSubject "") ≠ none := by
  let l : Loop Formula := ⟨entry ["A"], none⟩
  let row : Row := .ofSubject ""
  have result : (loop l).eval row = some "A" := eval_loop_entry row (by decide) (by decide)
  have succeeds : (l.results row).SucceedsTimes 1 := succeedsTimes_entry row (by decide)
  have limited : (loop (l.limitedTo 0)).eval row = ((l.results row).limitedTo 0).run :=
    eval_loop (l.limitedTo 0) row
  refine ⟨result, succeeds, by decide, ?_⟩
  rw [limited, Loop.run_limitedTo rfl succeeds, if_pos (by decide), ← eval_loop, result]
  exact Option.some_ne_none _

end Formula

end StringTransform
