import StringTransform.Pattern.Enumeration
import StringTransform.Proofs.Pattern.FirstOccurrences
import Mathlib.Logic.Relation

/-!
# The search of a repetition

The search drops every index that has been found before, with all that lies behind it.
Nothing is lost by that as long as what has been found is settled: with an index it holds
everything that the steps from there lead to. Under this invariant the search from an
index adds what plain enumeration from there would add, in the same order.

The search looks at the room in order to end whatever its steps are. A search that only
refuses to step from an index to itself may run forever, but it does not if every step
that moves at all leaves less room.

## Main definitions

* `Leads` — one step of a repetition that makes progress
* `Settled` — the invariant of what has been found
* `Quantifier.ways` — all ways to follow a quantified body, by the index they lead to
* `turn?`, `RunsTo` — the search that does not look at the room, turn by turn

## Main results

* `mem_again` — plain enumeration finds what can be reached
* `closure_eq_insertAll` — the search adds what plain enumeration finds
* `Quantifier.reach_eq_eraseDups` — the same for each of the three quantifiers
* `runsTo_explore` — without looking at the room, the search ends in the same way
-/

namespace StringTransform

open Relation

variable {room : Nat → Nat} {step : Nat → List Nat} {found : Positions} {i j : Nat}

/-- A step from `i` leads to `j` and makes progress. -/
def Leads (room : Nat → Nat) (step : Nat → List Nat) (i j : Nat) : Prop :=
  j ∈ step i ∧ room j < room i

/-- With an index, everything that the steps from it lead to has been found. -/
def Settled (room : Nat → Nat) (step : Nat → List Nat) (found : Positions) : Prop :=
  ∀ i ∈ found, ∀ j, Leads room step i j → j ∈ found

/-- Plain enumeration finds exactly what can be reached by steps that make progress. -/
theorem mem_again : j ∈ again room step i ↔ ReflTransGen (Leads room step) i j := by
  constructor
  · intro h
    -- On the room left at `i`, of which every step that makes progress leaves less.
    induction hroom : room i using Nat.strongRecOn generalizing i with
    | _ n ih =>
      rw [again_eq, List.mem_append, List.mem_flatMap, List.mem_singleton] at h
      rcases h with ⟨k, hk, hj⟩ | rfl
      · obtain ⟨mem, less⟩ := List.mem_filter.mp hk
        have less : room k < room i := of_decide_eq_true less
        exact .head ⟨mem, less⟩ (ih (room k) (hroom ▸ less) hj rfl)
      · exact .refl
  · intro h
    induction h using ReflTransGen.head_induction_on with
    | refl => rw [again_eq]; simp
    | head first _ ih =>
      rw [again_eq, List.mem_append, List.mem_flatMap]
      exact .inl ⟨_, List.mem_filter.mpr ⟨first.1, decide_eq_true first.2⟩, ih⟩

namespace Settled

theorem empty : Settled room step ∅ := fun _ h => absurd h Positions.notMem_empty

theorem mem_of_reaches (settled : Settled room step found) (hi : i ∈ found)
    (h : ReflTransGen (Leads room step) i j) : j ∈ found := by
  induction h with
  | refl => exact hi
  | tail _ last ih => exact settled _ ih _ last

/-- Plain enumeration from any indices keeps what has been found settled. -/
theorem insertAll_flatMap_again (settled : Settled room step found) (is : List Nat) :
    Settled room step (found.insertAll (is.flatMap (again room step))) := by
  intro i hi j hij
  rw [Positions.mem_insertAll] at hi ⊢
  rcases hi with hi | hi
  · exact .inl (settled i hi j hij)
  · obtain ⟨k, hk, hi⟩ := List.mem_flatMap.mp hi
    exact .inr (List.mem_flatMap.mpr ⟨k, hk, mem_again.mpr ((mem_again.mp hi).tail hij)⟩)

theorem insertAll_again (settled : Settled room step found) (i : Nat) :
    Settled room step (found.insertAll (again room step i)) := by
  simpa using settled.insertAll_flatMap_again [i]

end Settled

/-- The search works off a visit by adding what plain enumeration finds from the steps
ahead, and at last the index of the visit. -/
theorem explore_cons (settled : Settled room step found) (js : List Nat) (rest : List Visit) :
    explore room step (⟨i, js⟩ :: rest) found =
      explore room step rest
        ((found.insertAll ((js.filter (room · < room i)).flatMap (again room step))).insert i) := by
  -- Outside on the room of the visit, which bounds the visits entered from it; inside on
  -- the steps ahead of it, each of which finds what the ones before it have added.
  induction hroom : room i using Nat.strongRecOn generalizing i js rest found with
  | _ n ihRoom =>
    induction js generalizing found with
    | nil => rw [explore]; rfl
    | cons j js ihAhead =>
      rw [explore]
      by_cases less : room j < room i
      · rw [← hroom, List.filter_cons_of_pos (by simpa using less), List.flatMap_cons,
          Positions.insertAll_append]
        -- If `j` has been found, so has all that it leads to; otherwise it is worked off first.
        by_cases known : j ∈ found
        · have nothingNew : found.insertAll (again room step j) = found :=
            Positions.insertAll_of_subset fun k hk =>
              settled.mem_of_reaches known (mem_again.mp hk)
          rw [dif_neg fun h => h.2 known, nothingNew, ihAhead settled, hroom]
        · have whole : ((found.insertAll (((step j).filter (room · < room j)).flatMap
              (again room step))).insert j) = found.insertAll (again room step j) := by
            rw [again_eq room step j, Positions.insertAll_append, Positions.insertAll_singleton]
          rw [dif_pos ⟨less, known⟩, ihRoom (room j) (hroom ▸ less) settled _ _ rfl, whole,
            ihAhead (settled.insertAll_again j), hroom]
      · rw [dif_neg fun h => less h.1, ihAhead settled,
          List.filter_cons_of_neg (by simpa [← hroom] using less)]

/-- The search from an index adds what plain enumeration from there finds. -/
theorem closure_eq_insertAll (settled : Settled room step found) (i : Nat) :
    closure room step i found = found.insertAll (again room step i) := by
  rw [closure]
  split
  next known =>
    exact (Positions.insertAll_of_subset fun k hk =>
      settled.mem_of_reaches known (mem_again.mp hk)).symm
  next =>
    rw [explore_cons settled, explore, again_eq, Positions.insertAll_append,
      Positions.insertAll_singleton]

/-- Searching from one index after the other adds what plain enumeration from all of them
finds. -/
theorem foldl_closure_eq_insertAll (settled : Settled room step found) (is : List Nat) :
    is.foldl (fun found i => closure room step i found) found =
      found.insertAll (is.flatMap (again room step)) := by
  induction is generalizing found with
  | nil => rfl
  | cons i is ih =>
    rw [List.foldl_cons, List.flatMap_cons, Positions.insertAll_append,
      closure_eq_insertAll settled, ih (settled.insertAll_again i)]

/-- Steps with the same first occurrences are enumerated with the same first occurrences. -/
theorem eraseDups_again_congr {step' : Nat → List Nat}
    (h : ∀ i, (step i).eraseDups = (step' i).eraseDups) (i : Nat) :
    (again room step i).eraseDups = (again room step' i).eraseDups := by
  induction hroom : room i using Nat.strongRecOn generalizing i with
  | _ n ih =>
    rw [again, again]
    refine eraseDups_append_congr (eraseDups_flatMap_congr (h i) fun j _ => ?_) rfl
    split
    next less => exact ih (room j) (hroom ▸ less) j rfl
    next => rfl

namespace Quantifier

/-- Where all ways to follow a quantified body lead, longer ones first. -/
def ways (q : Quantifier) (room : Nat → Nat) (step : Nat → List Nat) (i : Nat) : List Nat :=
  match q with
  | .zeroOrOne => step i ++ [i]
  | .zeroOrMore => again room step i
  | .oneOrMore => (step i).flatMap (again room step)

/-- A quantified body reaches the first occurrences among where all ways lead. -/
theorem reach_eq_eraseDups (q : Quantifier) (room : Nat → Nat) (step : Nat → List Nat) (i : Nat) :
    q.reach room step i = (q.ways room step i).eraseDups := by
  cases q with
  | zeroOrOne =>
    rw [reach, ways, ← Positions.insertAll_singleton, ← Positions.insertAll_append,
      Positions.toList_empty_insertAll]
  | zeroOrMore =>
    rw [reach, ways, closure_eq_insertAll .empty, Positions.toList_empty_insertAll]
  | oneOrMore =>
    rw [reach, ways, foldl_closure_eq_insertAll .empty, Positions.toList_empty_insertAll]

theorem eraseDups_ways_congr (q : Quantifier) {step' : Nat → List Nat}
    (h : ∀ i, (step i).eraseDups = (step' i).eraseDups) (i : Nat) :
    (q.ways room step i).eraseDups = (q.ways room step' i).eraseDups := by
  cases q with
  | zeroOrOne => exact eraseDups_append_congr (h i) rfl
  | zeroOrMore => exact eraseDups_again_congr h i
  | oneOrMore => exact eraseDups_flatMap_congr (h i) fun j _ => eraseDups_again_congr h j

end Quantifier

/-! ### Searching without looking at the room -/

/-- The indices `js` may lie ahead of `i`: they are admissible, and those other than `i`
leave less room. -/
def Advances (room : Nat → Nat) (admissible : Nat → Prop) (i : Nat) (js : List Nat) : Prop :=
  ∀ j ∈ js, admissible j ∧ (j ≠ i → room j < room i)

/-- Whatever is ahead of a visit on the stack may lie ahead of its index. -/
def Ahead (room : Nat → Nat) (admissible : Nat → Prop) (stack : List Visit) : Prop :=
  ∀ visit ∈ stack, Advances room admissible visit.index visit.ahead

section Ahead

variable {admissible : Nat → Prop} {js : List Nat} {rest : List Visit}

theorem Ahead.leave (ahead : Ahead room admissible (⟨i, js⟩ :: rest)) :
    Ahead room admissible rest :=
  (List.forall_mem_cons.mp ahead).2

theorem Ahead.enter (advances : Advances room admissible i js)
    (ahead : Ahead room admissible rest) : Ahead room admissible (⟨i, js⟩ :: rest) :=
  List.forall_mem_cons.mpr ⟨advances, ahead⟩

/-- The next step ahead of the visit on top is admissible, and leaves less room if it moves. -/
theorem Ahead.drop (ahead : Ahead room admissible (⟨i, j :: js⟩ :: rest)) :
    (admissible j ∧ (j ≠ i → room j < room i)) ∧ Ahead room admissible (⟨i, js⟩ :: rest) := by
  obtain ⟨top, below⟩ := List.forall_mem_cons.mp ahead
  obtain ⟨next, others⟩ := List.forall_mem_cons.mp top
  exact ⟨next, .enter others below⟩

end Ahead

/-- A step that leaves less room if it moves at all is followed unless it does not move or
leads to an index found before. -/
theorem followed_iff (advances : j ≠ i → room j < room i) :
    (room j < room i ∧ j ∉ found) ↔ ¬(j = i ∨ j ∈ found) := by
  rw [not_or]
  refine and_congr_left fun _ => ⟨?_, advances⟩
  rintro less rfl
  exact Nat.lt_irrefl _ less

/-- One turn of a search that refuses only to step from an index to itself or to an index
found before. With nothing left on the stack there is no turn. -/
def turn? (step : Nat → List Nat) : List Visit × Positions → Option (List Visit × Positions)
  | ([], _) => none
  | (⟨i, []⟩ :: rest, found) => some (rest, found.insert i)
  | (⟨i, j :: js⟩ :: rest, found) =>
    if j = i ∨ j ∈ found then some (⟨i, js⟩ :: rest, found)
    else some (⟨j, step j⟩ :: ⟨i, js⟩ :: rest, found)

/-- Turn after turn, the search comes to its end, with `result` found. -/
def RunsTo (step : Nat → List Nat) (state : List Visit × Positions) (result : Positions) : Prop :=
  ReflTransGen (fun s s' => turn? step s = some s') state ([], result)

/-- If all steps advance, the search that does not look at the room runs to what the other
search finds. -/
theorem runsTo_explore {admissible : Nat → Prop}
    (advances : ∀ i, admissible i → Advances room admissible i (step i))
    {stack : List Visit} (ahead : Ahead room admissible stack) (found : Positions) :
    RunsTo step (stack, found) (explore room step stack found) := by
  -- Both searches make the same turns, one for each case of the recursion.
  fun_induction explore room step stack found with
  | case1 found => exact .refl
  | case2 found i rest ih => exact .head rfl (ih ahead.leave)
  | case3 found i j js rest followed ih =>
    obtain ⟨next, below⟩ := ahead.drop
    have enters : ¬(j = i ∨ j ∈ found) := (followed_iff next.2).mp followed
    exact .head (if_neg enters) (ih (.enter (advances j next.1) below))
  | case4 found i j js rest refused ih =>
    obtain ⟨next, below⟩ := ahead.drop
    have stays : j = i ∨ j ∈ found := not_not.mp (mt (followed_iff next.2).mpr refused)
    exact .head (if_pos stays) (ih below)

end StringTransform
