import StringTransform.Formula.Loop

/-!
# Loops and their bodies

A loop reaches only occurrences counted from the start, one after the other, so its bodies at
these occurrences determine what it does. It goes on turn by turn. As long as it does, its body
has given a part for each occurrence so far, and what is done is made of these. It ends with the
first failure of the body, or else when there is no further occurrence, which happens after a
number of turns that is known beforehand.

The body often succeeds for as many occurrences as there are parts of some list, and gives the
part of that rank. Such a loop puts all parts together, provided that there is one and that an
occurrence is left for which the body fails.

## Main definitions

* `Occurrence.ofRank` — the occurrence of a rank, counted from the start
* `Loop.turn` — one turn of a loop
* `Loop.EndsWithin` — turn after turn, the loop comes to its end
* `Loop.Gathered`, `Loop.FailsBehind` — the parts that the body has given so far, and those in
  front of its first failure

## Main results

* `Occurrence.next?_eq_none_iff` — the greatest occurrence counted from the start has no next
  one
* `Loop.resume_of_next?` — how a loop goes on while there is a next occurrence
* `Loop.run_congr` — loops with the same bodies do the same
* `Loop.turn_eq_inl_iff`, `Loop.turn_eq_inr_iff` — when a turn goes on and when it ends the loop
* `Loop.endsWithin_resume` — a loop ends within the turns that the occurrences allow
* `Loop.Gathered.snoc` — a turn that goes on gathers one more part
* `Loop.EndsWithin.result_eq`, `Loop.run_cases` — what a loop without limit ends with
* `Loop.run_of_parts` — what a loop over a list of parts does
-/

namespace StringTransform

namespace Occurrence

variable {k m : Occurrence}

theorem count_eq_rank (positive : k.fromStart = true) : k.count = k.rank := by
  simp only [fromStart, decide_eq_true_eq] at positive
  simp only [rank]
  omega

/-- Counted from the start, only the greatest occurrence has no next one. -/
theorem next?_eq_none_iff (positive : k.fromStart = true) :
    k.next? = none ↔ k.rank = 2147483647 := by
  have count := count_eq_rank positive
  have bound := k.count_le
  simp only [fromStart, decide_eq_true_eq] at positive
  simp only [next?, fromStart, positive, decide_true, if_true, dite_eq_right_iff, reduceCtorEq,
    imp_false]
  omega

/-- The occurrence of a rank, counted from the start. -/
def ofRank (rank : Nat) (pos : 0 < rank) (le : rank ≤ 2147483647) : Occurrence :=
  ⟨rank, by omega, by omega, by omega⟩

@[simp] theorem fromStart_ofRank {rank : Nat} {pos : 0 < rank} {le : rank ≤ 2147483647} :
    (ofRank rank pos le).fromStart = true :=
  decide_eq_true (Int.natCast_pos.mpr pos)

@[simp] theorem rank_ofRank {rank : Nat} {pos : 0 < rank} {le : rank ≤ 2147483647} :
    (ofRank rank pos le).rank = rank := rfl

/-- Occurrences from the start are the same if they have the same rank. -/
theorem eq_of_rank_eq (hk : k.fromStart = true) (hm : m.fromStart = true)
    (same : k.rank = m.rank) : k = m := by
  have count : k.count = m.count := by rw [count_eq_rank hk, count_eq_rank hm, same]
  exact eq_of_count_eq count

theorem rank_le_of_fromStart (hk : k.fromStart = true) : k.rank ≤ 2147483647 := by
  have := count_eq_rank hk
  have := k.count_le
  omega

end Occurrence

namespace Loop

variable {l : Loop (Option String)}

theorem resume_last {k : Occurrence} (done : String) (last : k.next? = none) :
    l.resume k done = none := by
  rw [resume]
  split
  · rfl
  · next next step => cases last.symm.trans step

/-- While there is a next occurrence, its body decides how the loop goes on. -/
theorem resume_of_next? {k next : Occurrence} (done : String) (step : k.next? = some next) :
    l.resume k done =
      match l.body next with
      | none => some done
      | some part =>
        if l.limit.any (· < next.rank) then none else l.resume next (done ++ part) := by
  rw [resume]
  split
  · next last => cases last.symm.trans step
  · next next step' =>
    cases step.symm.trans step'
    rfl

/-! ### Loops with the same bodies -/

section Congruence

variable {m : Loop (Option String)} (limit : l.limit = m.limit)
  (body : ∀ k : Occurrence, k.fromStart = true → l.body k = m.body k)
include limit body

theorem resume_congr {k : Occurrence} (positive : k.fromStart = true) (done : String) :
    l.resume k done = m.resume k done := by
  fun_induction resume l k done with
  | case1 k done last => rw [resume_last done last]
  | case2 k done next step stop =>
    have same := body next ((k.fromStart_of_next? step).trans positive)
    rw [resume_of_next? done step, ← same, stop]
  | case3 k done next step part success beyond =>
    have same := body next ((k.fromStart_of_next? step).trans positive)
    rw [resume_of_next? done step, ← same, success, ← limit]
    exact (if_pos beyond).symm
  | case4 k done next step part success under ih =>
    have positive' := (k.fromStart_of_next? step).trans positive
    rw [resume_of_next? done step, ← body next positive', success, ← limit]
    exact (ih positive').trans (if_neg under).symm

/-- What a loop does depends on its bodies at the occurrences counted from the start, since it
reaches no others. -/
theorem run_congr : l.run = m.run := by
  rw [run, run, body .first rfl]
  apply Option.bind_congr
  intro part _
  exact resume_congr limit body rfl part

end Congruence

/-! ### Turn by turn -/

section Turns

variable {parts : List String} {k : Occurrence} {done : String} {state : Occurrence × String}
  {result : Option String}

/-- One turn of a loop that has succeeded up to an occurrence, with results that make up a text:
either it succeeds at the next occurrence as well, or it ends with a result. -/
def turn (l : Loop (Option String)) (k : Occurrence) (done : String) :
    (Occurrence × String) ⊕ Option String :=
  match k.next? with
  | none => .inr none
  | some next =>
    match l.body next with
    | none => .inr (some done)
    | some part => if l.limit.any (· < next.rank) then .inr none else .inl (next, done ++ part)

/-- A turn goes on if the body succeeds at the next occurrence, which the limit has to allow. -/
theorem turn_eq_inl_iff :
    l.turn k done = .inl state ↔
      ∃ next part, k.next? = some next ∧ l.body next = some part ∧
        l.limit.any (· < next.rank) = false ∧ state = (next, done ++ part) := by
  rw [turn]
  cases k.next? with
  | none => simp
  | some next =>
    cases body : l.body next with
    | none => simp [body]
    | some part =>
      cases limit : l.limit.any (· < next.rank) with
      | true => simp [body, limit]
      | false => simpa [body, limit] using eq_comm

/-- Without a limit, a turn ends the loop if there is no next occurrence or the body fails at
it. -/
theorem turn_eq_inr_iff (unlimited : l.limit = none) :
    l.turn k done = .inr result ↔
      (k.next? = none ∧ result = none) ∨
        ∃ next, k.next? = some next ∧ l.body next = none ∧ result = some done := by
  rw [turn]
  cases k.next? with
  | none => simp [eq_comm]
  | some next =>
    cases body : l.body next with
    | none => simp [body, eq_comm]
    | some part => simp [body, unlimited]

/-- Turn after turn, the loop ends with a result after at most so many turns. -/
inductive EndsWithin (l : Loop (Option String)) :
    Nat → Occurrence → String → Option String → Prop where
  | stop {turns k done result} (ends : l.turn k done = .inr result) :
      EndsWithin l (turns + 1) k done result
  | go {turns k done next more result} (goes : l.turn k done = .inl (next, more))
      (rest : EndsWithin l turns next more result) : EndsWithin l (turns + 1) k done result

/-- If nothing else ends a loop, it runs out of occurrences. -/
theorem endsWithin_resume {turns : Nat} (positive : k.fromStart = true)
    (enough : 2147483648 ≤ k.rank + turns) : l.EndsWithin turns k done (l.resume k done) := by
  obtain ⟨turns, rfl⟩ : ∃ n, turns = n + 1 := by
    have := Occurrence.rank_le_of_fromStart positive
    exact ⟨turns - 1, by omega⟩
  fun_induction resume l k done generalizing turns with
  | case1 k done last => exact .stop (by simp [turn, last])
  | case2 k done next step stop => exact .stop (by simp [turn, step, stop])
  | case3 k done next step part success beyond =>
    exact .stop (by simp [turn, step, success, beyond])
  | case4 k done next step part success under ih =>
    have positive' := (k.fromStart_of_next? step).trans positive
    have rank := k.rank_of_next? step
    have := Occurrence.rank_le_of_fromStart positive'
    obtain ⟨fewer, rfl⟩ : ∃ n, turns = n + 1 := ⟨turns - 1, by omega⟩
    refine .go (by simp [turn, step, success, under]) (ih positive' fewer ?_)
    omega

/-- The body has given the parts, one for each occurrence up to `k`, and they make up the text
that is done. -/
structure Gathered (l : Loop (Option String)) (parts : List String) (k : Occurrence)
    (done : String) : Prop where
  positive : k.fromStart = true
  length : parts.length = k.rank
  gives : ∀ m : Occurrence, m.fromStart = true → m.rank ≤ k.rank → l.body m = parts[m.rank - 1]?
  joined : done = String.join parts

/-- The body gives the parts, one for each occurrence, and fails at the occurrence behind them. -/
structure FailsBehind (l : Loop (Option String)) (parts : List String) (n : Occurrence) :
    Prop where
  positive : n.fromStart = true
  length : parts.length + 1 = n.rank
  gives : ∀ k : Occurrence, k.fromStart = true → k.rank < n.rank → l.body k = parts[k.rank - 1]?
  fails : l.body n = none

theorem Gathered.first {part : String} (success : l.body .first = some part) :
    l.Gathered [part] .first part where
  positive := rfl
  length := rfl
  gives m positive before := by
    have single := Nat.le_antisymm before m.rank_pos
    rw [Occurrence.eq_of_rank_eq positive rfl single, success]
    rfl
  joined := by simp

/-- Success at the next occurrence gathers one more part. -/
theorem Gathered.snoc (gathered : l.Gathered parts k done) {next : Occurrence} {part : String}
    (step : k.next? = some next) (success : l.body next = some part) :
    l.Gathered (parts ++ [part]) next (done ++ part) := by
  have rank := k.rank_of_next? step
  have length := gathered.length
  have positive := (k.fromStart_of_next? step).trans gathered.positive
  refine ⟨positive, by simp [length, rank], ?_, by simp [gathered.joined]⟩
  intro m counts before
  rcases Nat.lt_or_eq_of_le before with earlier | last
  · have inside := m.rank_pos
    rw [gathered.gives m counts (by omega), List.getElem?_append_left (by omega)]
  · rw [Occurrence.eq_of_rank_eq counts positive last, success, rank, ← length]
    simp

/-- What the body has given so far shows that it has not failed. -/
theorem Gathered.succeeds (gathered : l.Gathered parts k done) {m : Occurrence}
    (positive : m.fromStart = true) (before : m.rank ≤ k.rank) : l.body m ≠ none := by
  have inside := m.rank_pos
  rw [gathered.gives m positive before, ne_eq, List.getElem?_eq_none_iff, gathered.length]
  omega

theorem FailsBehind.succeeds {n m : Occurrence} (behind : l.FailsBehind parts n)
    (positive : m.fromStart = true) (before : m.rank < n.rank) : l.body m ≠ none := by
  have inside := m.rank_pos
  have length := behind.length
  rw [behind.gives m positive before, ne_eq, List.getElem?_eq_none_iff]
  omega

/-- The parts in front of the first failure are those of a list, if the body gives these and no
more. -/
theorem FailsBehind.eq_of_body {all : List String} {n : Occurrence} (behind : l.FailsBehind all n)
    (body : ∀ k : Occurrence, k.fromStart = true → l.body k = parts[k.rank - 1]?) :
    all = parts := by
  have length := behind.length
  have bound := Occurrence.rank_le_of_fromStart behind.positive
  have last : parts.length ≤ n.rank - 1 :=
    List.getElem?_eq_none_iff.mp ((body n behind.positive).symm.trans behind.fails)
  apply List.ext_getElem?
  intro i
  rcases Nat.lt_or_ge i all.length with inside | outside
  · -- Every index of the list is that of an occurrence.
    let k : Occurrence := .ofRank (i + 1) (Nat.succ_pos i) (by omega)
    have counts : k.fromStart = true := Occurrence.fromStart_ofRank
    have before : k.rank < n.rank := by
      rw [Occurrence.rank_ofRank]
      omega
    exact (behind.gives k counts before).symm.trans (body k counts)
  · rw [List.getElem?_eq_none_iff.mpr outside, List.getElem?_eq_none_iff.mpr (by omega)]

/-- A run without limit either gathers the parts in front of the first failure, or runs out of
occurrences. -/
theorem EndsWithin.result_eq (unlimited : l.limit = none) {turns : Nat}
    (ends : l.EndsWithin turns k done result) (gathered : l.Gathered parts k done) :
    (∃ all n, 1 < n.rank ∧ l.FailsBehind all n ∧ result = some (String.join all)) ∨
      ((∀ m : Occurrence, m.fromStart = true → l.body m ≠ none) ∧ result = none) := by
  induction ends generalizing parts with
  | @stop turns k done result ends =>
    rcases (turn_eq_inr_iff unlimited).mp ends with ⟨last, rfl⟩ | ⟨next, step, fails, rfl⟩
    · -- There is no occurrence that the body has not succeeded at.
      have greatest := (Occurrence.next?_eq_none_iff gathered.positive).mp last
      refine .inr ⟨fun m positive => gathered.succeeds positive ?_, rfl⟩
      exact greatest ▸ Occurrence.rank_le_of_fromStart positive
    · have rank := k.rank_of_next? step
      have pos := k.rank_pos
      have length := gathered.length
      refine .inl ⟨parts, next, by omega, ⟨?_, by omega, ?_, fails⟩, ?_⟩
      · exact (k.fromStart_of_next? step).trans gathered.positive
      · exact fun m positive before => gathered.gives m positive (by omega)
      · rw [gathered.joined]
  | @go turns k done next more result goes rest ih =>
    obtain ⟨next, part, step, success, -, same⟩ := turn_eq_inl_iff.mp goes
    cases same
    exact ih (gathered.snoc step success)

/-- A loop without limit fails if its body fails at once, gathers the parts in front of the
first failure if that comes later, and fails if no failure comes. -/
theorem run_cases (unlimited : l.limit = none) :
    (l.body .first = none ∧ l.run = none) ∨
      (∃ parts n, 1 < n.rank ∧ l.FailsBehind parts n ∧ l.run = some (String.join parts)) ∨
      ((∀ m : Occurrence, m.fromStart = true → l.body m ≠ none) ∧ l.run = none) := by
  cases success : l.body .first with
  | none => exact .inl ⟨rfl, by rw [run, success, Option.bind_none]⟩
  | some part =>
    have ends : l.EndsWithin 2147483647 .first part (l.resume .first part) :=
      endsWithin_resume rfl (by decide)
    rw [run, success, Option.bind_some]
    exact .inr (ends.result_eq unlimited (.first success))

end Turns

/-! ### Loops over a list of parts -/

/-- A loop whose body gives the parts of a list puts them all together. -/
theorem run_of_parts {parts : List String} (unlimited : l.limit = none)
    (body : ∀ k : Occurrence, k.fromStart = true → l.body k = parts[k.rank - 1]?) :
    l.run = if 0 < parts.length ∧ parts.length < 2147483647 then some (String.join parts)
      else none := by
  rcases run_cases unlimited with ⟨fails, result⟩ | ⟨all, n, later, behind, result⟩ |
    ⟨succeeds, result⟩
  · have empty : parts.length ≤ 0 :=
      List.getElem?_eq_none_iff.mp ((body .first rfl).symm.trans fails)
    rw [result, if_neg (by omega)]
  · have length := behind.length
    have bound := Occurrence.rank_le_of_fromStart behind.positive
    have same : all = parts := behind.eq_of_body body
    rw [result, ← same, if_pos (by omega)]
  · have many : 2147483647 ≤ parts.length := by
      have success := succeeds (.ofRank 2147483647 (by decide) (Nat.le_refl _))
        Occurrence.fromStart_ofRank
      rw [body _ Occurrence.fromStart_ofRank, ne_eq, List.getElem?_eq_none_iff,
        Occurrence.rank_ofRank] at success
      omega
    rw [result, if_neg (by omega)]

end Loop

end StringTransform
