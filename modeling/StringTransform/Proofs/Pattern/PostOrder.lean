import StringTransform.Proofs.Pattern.Search

/-!
# The order of a depth-first search

A depth-first search from some indices, one after the other, passes over what it has seen. It
lists any other index behind all that it lists from the steps of this index, which it follows in
their order. This determines the list. If what has been seen is closed under steps, then the list
holds just what can be reached and has not been seen, and each of its beginnings is closed
together with what has been seen: an index comes behind everything that can be reached from it.

The search of a repetition keeps a stack instead of descending, and puts every index that it
finds at the end of what it has found before. It lists the same indices in the same order.

## Main definitions

* `Reaches` — repeated steps lead from one index to the other
* `ClosedUnder` — steps do not lead out of a list
* `PostOrder` — what a depth-first search lists
* `SearchedFrom` — what the search of a repetition does to what has been found before

## Main results

* `PostOrder.unique` — the list is determined
* `PostOrder.closedUnder_beginning` — its beginnings are closed
* `PostOrder.mem_iff` — what it holds
* `exists_postOrder_explore` — the stack works off a visit in this order
* `exists_postOrder_closure`, `exists_postOrder_foldl_closure` — so does the search of a
  repetition, from one index or from several
* `Quantifier.postOrder_reach` — the order in which a repetition lists what it reaches
* `closure_searches_depth_first` — the search with all that it guarantees
-/

namespace StringTransform

open Relation

variable {room : Nat → Nat} {step : Nat → List Nat} {i j k : Nat} {is seen new : List Nat}

/-- Repeated steps lead from one index to the other. -/
def Reaches (step : Nat → List Nat) : Nat → Nat → Prop :=
  ReflTransGen fun i j => j ∈ step i

/-- With an index, the list holds everything that steps lead to from there. -/
def ClosedUnder (step : Nat → List Nat) (is : List Nat) : Prop :=
  ∀ i ∈ is, ∀ j ∈ step i, j ∈ is

theorem ClosedUnder.mem_of_reaches (closed : ClosedUnder step is) (hi : i ∈ is)
    (reached : Reaches step i j) : j ∈ is := by
  induction reached with
  | refl => exact hi
  | tail _ last ih => exact closed _ ih _ last

theorem ClosedUnder.snoc (closed : ClosedUnder step is) (h : ∀ j ∈ step i, j ∈ is ∨ j = i) :
    ClosedUnder step (is ++ [i]) := by
  intro j hj k hk
  rcases List.mem_append.mp hj with hj | hj
  · exact List.mem_append_left _ (closed j hj k hk)
  · rw [List.mem_singleton.mp hj] at hk
    exact List.mem_append.mpr ((h k hk).imp_right List.mem_singleton.mpr)

/-- What a depth-first search lists that starts from the indices of the second list, one after
the other, and has seen those of the first. -/
inductive PostOrder (step : Nat → List Nat) : List Nat → List Nat → List Nat → Prop where
  | done {seen : List Nat} : PostOrder step seen [] []
  /-- What has been seen is passed over. -/
  | pass {seen is new : List Nat} {i : Nat} (known : i ∈ seen)
      (others : PostOrder step seen is new) : PostOrder step seen (i :: is) new
  /-- Any other index is listed behind what its steps lead to. -/
  | visit {seen is below later : List Nat} {i : Nat} (fresh : i ∉ seen)
      (steps : PostOrder step seen ((step i).filter (· ≠ i)) below)
      (others : PostOrder step (seen ++ below ++ [i]) is later) :
      PostOrder step seen (i :: is) (below ++ i :: later)

namespace PostOrder

/-- A depth-first search has one list only. -/
theorem unique {new' : List Nat} (h : PostOrder step seen is new)
    (h' : PostOrder step seen is new') : new = new' := by
  induction h generalizing new' with
  | done =>
    cases h' with
    | done => rfl
  | pass known _ ih =>
    cases h' with
    | pass _ others => exact ih others
    | visit fresh => exact absurd known fresh
  | visit fresh _ _ ihSteps ihOthers =>
    cases h' with
    | pass known => exact absurd known fresh
    | visit _ steps others =>
      obtain rfl := ihSteps steps
      rw [ihOthers others]

/-- Searching from one index and then from others is a search. -/
theorem cons {later : List Nat} (first : PostOrder step seen [i] new)
    (others : PostOrder step (seen ++ new) is later) :
    PostOrder step seen (i :: is) (new ++ later) := by
  cases first with
  | pass known nothing =>
    cases nothing
    exact .pass known (by simpa using others)
  | visit fresh steps nothing =>
    cases nothing
    have behind := visit fresh steps (by simpa using others)
    simpa using behind

/-- Every index that the search starts from has been seen or is listed. -/
theorem mem_of_start (h : PostOrder step seen is new) (hi : i ∈ is) : i ∈ seen ++ new := by
  induction h with
  | done => exact absurd hi List.not_mem_nil
  | pass known _ ih =>
    rcases List.mem_cons.mp hi with rfl | hi
    · exact List.mem_append_left _ known
    · exact ih hi
  | visit _ _ _ _ ih =>
    rcases List.mem_cons.mp hi with rfl | hi
    · simp
    · simpa using ih hi

/-- What is listed can be reached. -/
theorem exists_reaches_of_mem (h : PostOrder step seen is new) (hj : j ∈ new) :
    ∃ i ∈ is, Reaches step i j := by
  induction h with
  | done => exact absurd hj List.not_mem_nil
  | pass _ _ ih =>
    obtain ⟨i, hi, reached⟩ := ih hj
    exact ⟨i, List.mem_cons_of_mem _ hi, reached⟩
  | @visit _ _ _ _ start _ _ _ ihSteps ihOthers =>
    rcases List.mem_append.mp hj with hj | hj
    · obtain ⟨i, hi, reached⟩ := ihSteps hj
      exact ⟨start, List.mem_cons_self, .head (List.mem_filter.mp hi).1 reached⟩
    · rcases List.mem_cons.mp hj with rfl | hj
      · exact ⟨j, List.mem_cons_self, .refl⟩
      · obtain ⟨i, hi, reached⟩ := ihOthers hj
        exact ⟨i, List.mem_cons_of_mem _ hi, reached⟩

/-- Together with what has been seen, every beginning of the list is closed under steps. -/
theorem closedUnder_beginning (h : PostOrder step seen is new) (closed : ClosedUnder step seen)
    {as bs : List Nat} (split : new = as ++ bs) : ClosedUnder step (seen ++ as) := by
  induction h generalizing as bs with
  | done =>
    obtain ⟨rfl, -⟩ := List.nil_eq_append_iff.mp split
    rwa [List.append_nil]
  | pass _ _ ih => exact ih closed split
  | @visit seen _ below later i _ steps _ ihSteps ihOthers =>
    -- The beginning ends within what the steps of the index lead to, or behind that.
    rcases List.append_eq_append_iff.mp split.symm with ⟨cs, inside, -⟩ | ⟨cs, rfl, behind⟩
    · exact ihSteps closed inside
    · have upTo : ClosedUnder step (seen ++ below) :=
        ihSteps closed (List.append_nil below).symm
      cases cs with
      | nil => rwa [List.append_nil]
      | cons c cs =>
        obtain ⟨rfl, rest⟩ := List.cons.inj behind
        have further := ihOthers (upTo.snoc fun j hj => ?_) rest
        · simpa using further
        · -- A step of the index leads to itself, or else the search has started from there.
          by_cases same : j = i
          · exact .inr same
          · exact .inl (steps.mem_of_start (List.mem_filter.mpr ⟨hj, decide_eq_true same⟩))

/-- The list holds what can be reached and has not been seen. -/
theorem mem_iff (h : PostOrder step seen is new) (closed : ClosedUnder step seen) :
    j ∈ seen ++ new ↔ j ∈ seen ∨ ∃ i ∈ is, Reaches step i j := by
  constructor
  · intro hj
    exact (List.mem_append.mp hj).imp_right h.exists_reaches_of_mem
  · rintro (hj | ⟨i, hi, reached⟩)
    · exact List.mem_append_left _ hj
    · have whole : ClosedUnder step (seen ++ new) :=
        h.closedUnder_beginning closed (List.append_nil new).symm
      exact whole.mem_of_reaches (h.mem_of_start hi) reached

/-- An index is listed behind everything else that can be reached from it. -/
theorem mem_of_reaches (h : PostOrder step seen is new) (closed : ClosedUnder step seen)
    {as bs : List Nat} (split : new = as ++ j :: bs) (reached : Reaches step j k) (other : k ≠ j) :
    k ∈ seen ++ as := by
  have upTo : new = as ++ [j] ++ bs := by rw [split, List.append_cons]
  have beginning : ClosedUnder step (seen ++ (as ++ [j])) := h.closedUnder_beginning closed upTo
  have member : k ∈ seen ++ (as ++ [j]) := beginning.mem_of_reaches (by simp) reached
  simpa [other] using member

end PostOrder

/-! ### The stack -/

section Search

variable {admissible : Nat → Prop}

/-- If all steps advance, whatever can be reached from an admissible index is admissible, and
leaves no more room. -/
theorem Reaches.room_le (advances : ∀ i, admissible i → Advances room admissible i (step i))
    (hi : admissible i) (reached : Reaches step i j) : admissible j ∧ room j ≤ room i := by
  induction reached with
  | refl => exact ⟨hi, Nat.le_refl _⟩
  | @tail j k _ last ih =>
    obtain ⟨next, less⟩ := advances j ih.1 k last
    refine ⟨next, ?_⟩
    by_cases moves : k = j
    · exact moves ▸ ih.2
    · exact Nat.le_trans (Nat.le_of_lt (less moves)) ih.2

/-- What is listed from steps ahead of an index is not the index again. -/
theorem PostOrder.notMem_of_advances
    (advances : ∀ i, admissible i → Advances room admissible i (step i)) {js below : List Nat}
    (ahead : Advances room admissible i js)
    (h : PostOrder step seen (js.filter (· ≠ i)) below) : i ∉ below := by
  intro hi
  obtain ⟨j, hj, reached⟩ := h.exists_reaches_of_mem hi
  obtain ⟨mem, moves⟩ := List.mem_filter.mp hj
  obtain ⟨admitted, less⟩ := ahead j mem
  have noMore : room i ≤ room j := (reached.room_le advances admitted).2
  exact absurd (less (of_decide_eq_true moves)) (Nat.not_lt.mpr noMore)

/-- Inserted behind what is listed from its steps, a new index comes last. -/
theorem PostOrder.toList_insert
    (advances : ∀ i, admissible i → Advances room admissible i (step i)) {js below : List Nat}
    (ahead : Advances room admissible i js) {found between : Positions} (fresh : i ∉ found)
    (steps : PostOrder step found.toList (js.filter (· ≠ i)) below)
    (listed : between.toList = found.toList ++ below) :
    (between.insert i).toList = found.toList ++ below ++ [i] := by
  have new : i ∉ between := by
    rw [← Positions.mem_toList, listed, List.mem_append, not_or, Positions.mem_toList]
    exact ⟨fresh, steps.notMem_of_advances advances ahead⟩
  rw [Positions.toList_insert_of_notMem new, listed]

/-- The stack works off a visit by listing, in the order of a depth-first search, what the steps
ahead lead to, and at last the index of the visit. -/
theorem exists_postOrder_explore
    (advances : ∀ i, admissible i → Advances room admissible i (step i)) {js : List Nat}
    (ahead : Advances room admissible i js) (rest : List Visit) (found : Positions) :
    ∃ below, ∃ between : Positions,
      PostOrder step found.toList (js.filter (· ≠ i)) below ∧
      between.toList = found.toList ++ below ∧
      explore room step (⟨i, js⟩ :: rest) found = explore room step rest (between.insert i) := by
  -- Outside on the room of the visit, which bounds the visits entered from it; inside on the
  -- steps ahead of it.
  induction hroom : room i using Nat.strongRecOn generalizing i js rest found with
  | _ n ihRoom =>
    induction js generalizing found with
    | nil => exact ⟨[], found, .done, (List.append_nil _).symm, by rw [explore]⟩
    | cons j js ihAhead =>
      obtain ⟨⟨admitted, less⟩, others⟩ := List.forall_mem_cons.mp ahead
      rw [explore]
      by_cases followed : room j < room i ∧ j ∉ found
      · have moves : j ≠ i := by
          rintro rfl
          exact Nat.lt_irrefl _ followed.1
        obtain ⟨below, between, steps, listed, worked⟩ := ihRoom (room j) (hroom ▸ followed.1)
          (advances j admitted) (⟨i, js⟩ :: rest) found rfl
        have listedNext : (between.insert j).toList = found.toList ++ below ++ [j] :=
          steps.toList_insert advances (advances j admitted) followed.2 listed
        obtain ⟨more, last, later, listedLast, workedLast⟩ := ihAhead others (between.insert j)
        refine ⟨below ++ j :: more, last, ?_, ?_, ?_⟩
        · rw [List.filter_cons_of_pos (by simpa using moves)]
          exact .visit (mt Positions.mem_toList.mp followed.2) steps (listedNext ▸ later)
        · rw [listedLast, listedNext]
          simp
        · rw [dif_pos followed, worked, workedLast]
      · obtain ⟨below, between, steps, listed, worked⟩ := ihAhead others found
        refine ⟨below, between, ?_, listed, by rw [dif_neg followed, worked]⟩
        by_cases moves : j = i
        · rwa [List.filter_cons_of_neg (by simpa using moves)]
        · have known : j ∈ found := not_not.mp fun fresh => followed ⟨less moves, fresh⟩
          rw [List.filter_cons_of_pos (by simpa using moves)]
          exact .pass (Positions.mem_toList.mpr known) steps

/-- The search of a repetition from an index is a depth-first search. -/
theorem exists_postOrder_closure
    (advances : ∀ i, admissible i → Advances room admissible i (step i)) (hi : admissible i)
    (found : Positions) :
    ∃ new, PostOrder step found.toList [i] new ∧
      (closure room step i found).toList = found.toList ++ new := by
  by_cases known : i ∈ found
  · refine ⟨[], .pass (Positions.mem_toList.mpr known) .done, ?_⟩
    rw [closure, if_pos known, List.append_nil]
  · obtain ⟨below, between, steps, listed, worked⟩ :=
      exists_postOrder_explore advances (advances i hi) [] found
    refine ⟨below ++ [i], .visit (mt Positions.mem_toList.mp known) steps .done, ?_⟩
    rw [closure, if_neg known, worked, explore,
      steps.toList_insert advances (advances i hi) known listed, List.append_assoc]

/-- Searching from one index after the other is a depth-first search from all of them. -/
theorem exists_postOrder_foldl_closure
    (advances : ∀ i, admissible i → Advances room admissible i (step i))
    (his : ∀ i ∈ is, admissible i) (found : Positions) :
    ∃ new, PostOrder step found.toList is new ∧
      (is.foldl (fun found i => closure room step i found) found).toList = found.toList ++ new := by
  induction is generalizing found with
  | nil => exact ⟨[], .done, (List.append_nil _).symm⟩
  | cons i is ih =>
    obtain ⟨hi, his⟩ := List.forall_mem_cons.mp his
    obtain ⟨new, first, listed⟩ := exists_postOrder_closure advances hi found
    obtain ⟨later, others, listedLater⟩ := ih his (closure room step i found)
    refine ⟨new ++ later, first.cons (listed ▸ others), ?_⟩
    rw [List.foldl_cons, listedLater, listed, List.append_assoc]

/-- A repetition lists what it reaches in the order of a depth-first search, from the index
itself or from each step of it if there has to be one. -/
theorem Quantifier.postOrder_reach
    (advances : ∀ i, admissible i → Advances room admissible i (step i)) (hi : admissible i) :
    PostOrder step [] [i] (reach .zeroOrMore room step i) ∧
      PostOrder step [] (step i) (reach .oneOrMore room step i) := by
  constructor
  · obtain ⟨new, order, listed⟩ := exists_postOrder_closure advances hi ∅
    rw [reach, listed]
    exact order
  · have starts : ∀ j ∈ step i, admissible j := fun j hj => (advances i hi j hj).1
    obtain ⟨new, order, listed⟩ := exists_postOrder_foldl_closure advances starts ∅
    rw [reach, listed]
    exact order

/-! ### What the search guarantees -/

/-- The search of a repetition from an index, on top of what has been found before, ends with
`result`, which has the indices `new` behind those found before. -/
structure SearchedFrom (step : Nat → List Nat) (i : Nat) (found result : Positions)
    (new : List Nat) : Prop where
  /-- There is nothing to do for an index that has been found before. -/
  stays : i ∈ found → result = found
  /-- Otherwise the stack is worked off, turn after turn. -/
  ends : i ∉ found → RunsTo step ([⟨i, step i⟩], found) result
  appended : result.toList = found.toList ++ new
  postOrder : PostOrder step found.toList [i] new
  nodup : new.Nodup
  mem_iff : ∀ j, j ∈ new ↔ Reaches step i j ∧ j ∉ found
  /-- An index comes behind everything else that can be reached from it. -/
  behind : ∀ as j bs, new = as ++ j :: bs → ∀ k, Reaches step j k → k ≠ j → k ∈ found.toList ++ as
  closed : ClosedUnder step result.toList

/-- If all steps advance and what has been found is closed under them, the search of a
repetition has these properties. -/
theorem exists_searchedFrom_closure
    (advances : ∀ i, admissible i → Advances room admissible i (step i)) (hi : admissible i)
    {found : Positions} (closed : ClosedUnder step found.toList) :
    ∃ new, SearchedFrom step i found (closure room step i found) new := by
  obtain ⟨new, order, listed⟩ := exists_postOrder_closure advances hi found
  -- What is found is never listed twice, so what is new has not been found before.
  have apart : (found.toList ++ new).Nodup := listed ▸ Positions.nodup_toList _
  have members : ∀ j, j ∈ new ↔ Reaches step i j ∧ j ∉ found := by
    intro j
    have either := order.mem_iff (j := j) closed
    simp only [List.mem_append, List.mem_singleton, exists_eq_left, Positions.mem_toList] at either
    constructor
    · intro hj
      have unseen : j ∉ found := fun known =>
        (List.nodup_append.mp apart).2.2 j (Positions.mem_toList.mpr known) j hj rfl
      exact ⟨(either.mp (.inr hj)).resolve_left unseen, unseen⟩
    · rintro ⟨reached, unseen⟩
      exact (either.mpr (.inr reached)).resolve_left unseen
  refine ⟨new, ?_, ?_, listed, order, ?_, members, ?_, ?_⟩
  · intro known
    rw [closure, if_pos known]
  · intro fresh
    rw [closure, if_neg fresh]
    exact runsTo_explore advances (List.forall_mem_singleton.mpr (advances i hi)) found
  · exact (List.nodup_append.mp apart).2.1
  · intro as j bs split k
    exact order.mem_of_reaches closed split
  · rw [listed]
    exact order.closedUnder_beginning closed (List.append_nil new).symm

end Search

/-- Let all steps from indices up to a bound lead onwards within the bound, or all of them lead
back. Then the search of a repetition, from an index within the bound and on top of a closed set
of indices, ends: it adds just what can be reached and has not been found, each index once and in
the order of a depth-first search, and the set is closed again. -/
theorem closure_searches_depth_first (bound : Nat) (step : Nat → List Nat) {i : Nat}
    (inside : i ≤ bound) {found : Positions} (closed : ClosedUnder step found.toList) :
    ((∀ p ≤ bound, ∀ q ∈ step p, p ≤ q ∧ q ≤ bound) →
        ∃ new, SearchedFrom step i found (closure (bound - ·) step i found) new) ∧
      ((∀ p ≤ bound, ∀ q ∈ step p, q ≤ p) →
        ∃ new, SearchedFrom step i found (closure (fun p => p) step i found) new) := by
  constructor
  · intro onwards
    have advances : ∀ p, p ≤ bound → Advances (bound - ·) (· ≤ bound) p (step p) := by
      intro p hp q hq
      obtain ⟨le, within⟩ := onwards p hp q hq
      have less : q ≠ p → bound - q < bound - p := by omega
      exact ⟨within, less⟩
    exact exists_searchedFrom_closure advances inside closed
  · intro back
    have advances : ∀ p, p ≤ bound → Advances (fun p => p) (· ≤ bound) p (step p) := by
      intro p hp q hq
      have le := back p hp q hq
      exact ⟨Nat.le_trans le hp, fun moves => Nat.lt_of_le_of_ne le moves⟩
    exact exists_searchedFrom_closure advances inside closed

/-- Two ways lead from 0 to 3, which has been found before: the way over 1 is followed first, and
0 comes last although it leads to itself. -/
theorem search_over_two_ways :
    let step := fun p => if p = 0 then [1, 0, 2] else if p < 3 then [3] else []
    let found := (∅ : Positions).insert 3
    0 ≤ 3 ∧ ClosedUnder step found.toList ∧ (∀ p ≤ 3, ∀ q ∈ step p, p ≤ q ∧ q ≤ 3) ∧
      (closure (3 - ·) step 0 found).toList = [3, 1, 2, 0] := by
  intro step found
  have closed : ClosedUnder step found.toList := by
    unfold ClosedUnder
    decide
  have onwards : ∀ p ≤ 3, ∀ q ∈ step p, p ≤ q ∧ q ≤ 3 := by decide
  obtain ⟨new, searched⟩ := (closure_searches_depth_first 3 step (Nat.zero_le 3) closed).1 onwards
  have last : ∀ seen, 3 ∈ seen → PostOrder step seen [3] [] := fun _ known => .pass known .done
  have afterOne : PostOrder step [3, 1] [2] [2] := by
    have fresh : 2 ∉ [3, 1] := by decide
    exact .visit fresh (last [3, 1] (by decide)) .done
  have steps : PostOrder step [3] [1, 2] [1, 2] := by
    have fresh : 1 ∉ [3] := by decide
    exact .visit fresh (last [3] (by decide)) afterOne
  have order : PostOrder step [3] [0] [1, 2, 0] := by
    have fresh : 0 ∉ [3] := by decide
    exact .visit fresh steps .done
  refine ⟨Nat.zero_le 3, closed, onwards, ?_⟩
  rw [searched.appended, searched.postOrder.unique order]
  rfl

end StringTransform
