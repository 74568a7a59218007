import StringTransform.Proofs.Text.Runs

/-!
# Where runs can be said to end

An index counts as an end of a class if a character of the class stands before it, or before
a line feed there. That is so at every index inside a run, at its stop, and behind a line feed
that follows it. So each run contributes as many ends as it has characters, and one more if a
line feed follows. Counted from the last one on, the ends fall behind the runs: the end of a
given rank belongs to the run of that rank or to a later one.

## Main definitions

* `Text.closesAt`, `Text.closings` — the indices that count as ends
* `Text.closingsOf` — the ends that a run contributes
* `Text.reach` — their number

## Main results

* `Text.closings_eq_flatMap` — the ends, run by run
* `Text.closing_of_rank` — the end of a given rank lies at the stop of the run or behind it
-/

namespace StringTransform

/-! ### Lists of blocks -/

section Blocks

variable {α β : Type} {f : α → List β} {l : List α}

/-- Blocks that are not empty make a list at least as long as there are blocks, and longer
unless each block has one member. -/
theorem length_flatMap_eq_iff (nonempty : ∀ a ∈ l, 1 ≤ (f a).length) :
    l.length ≤ (l.flatMap f).length ∧
      ((l.flatMap f).length = l.length ↔ ∀ a ∈ l, (f a).length = 1) := by
  induction l with
  | nil => simp
  | cons a l ih =>
    obtain ⟨first, others⟩ := List.forall_mem_cons.mp nonempty
    obtain ⟨longer, tight⟩ := ih others
    rw [List.flatMap_cons, List.length_append, List.length_cons, List.forall_mem_cons, ← tight]
    omega

/-- A member of a block is found behind the blocks before it. -/
theorem getElem?_flatMap {a : α} {b : β} {n m : Nat} (block : l[n]? = some a)
    (member : (f a)[m]? = some b) :
    (l.flatMap f)[((l.take n).flatMap f).length + m]? = some b := by
  obtain ⟨inside, getBlock⟩ := List.getElem?_eq_some_iff.mp block
  obtain ⟨within, -⟩ := List.getElem?_eq_some_iff.mp member
  have split : l.flatMap f = (l.take n).flatMap f ++ (f a ++ (l.drop (n + 1)).flatMap f) := by
    calc l.flatMap f
        = (l.take n ++ a :: l.drop (n + 1)).flatMap f := by
          rw [← getBlock, ← List.drop_eq_getElem_cons inside, List.take_append_drop]
      _ = _ := by rw [List.flatMap_append, List.flatMap_cons]
  rw [split, List.getElem?_append_right (Nat.le_add_right _ _), Nat.add_sub_cancel_left,
    List.getElem?_append_left within]
  exact member

end Blocks

namespace Text

variable {text : Text} {C : Char → Bool} {i n : Nat} {run : Span}

/-- Whether a character of the class stands before the index, or before a line feed there. -/
def closesAt (text : Text) (C : Char → Bool) : Nat → Bool
  | 0 => false
  | i + 1 => text.hasAt C i || (text.get? i == some '\n' && text.hasBefore C i)

/-- The indices that count as ends of a class, in order. -/
def closings (text : Text) (C : Char → Bool) : List Nat :=
  (List.range (text.size + 1)).filter (text.closesAt C)

/-- One more if a line feed follows the stretch. -/
def newlineAfter (text : Text) (span : Span) : Nat :=
  if text.get? span.stop = some '\n' then 1 else 0

/-- The number of ends that a run contributes. -/
def reach (text : Text) (span : Span) : Nat :=
  span.length + text.newlineAfter span

/-- The ends that a run contributes, in order. -/
def closingsOf (text : Text) (span : Span) : List Nat :=
  List.range' (span.start + 1) (text.reach span)

/-- Every character of the class belongs to a run. -/
theorem exists_run_of_hasAt (has : text.hasAt C i = true) :
    ∃ run ∈ text.runs C, run.start ≤ i ∧ i < run.stop := by
  obtain ⟨behind, earlier, before⟩ := text.runStart_spec C i
  obtain ⟨ahead, later, after⟩ := text.runStop_spec C i
  have further : i ≠ text.runStop C i := by
    intro same
    rw [← same, has] at after
    cases after
  refine ⟨⟨text.runStart C i, text.runStop C i⟩, mem_runs_iff.mpr ?_, behind, by simp only; omega⟩
  refine ⟨by simp only; omega, ?_, before, after⟩
  intro j hj hj'
  rcases Nat.lt_or_ge j i with less | more
  · exact earlier j hj less
  · exact later j more hj'

theorem mem_closingsOf_iff (run : Span) (ordered : run.start ≤ run.stop) :
    i ∈ text.closingsOf run ↔ run.start < i ∧ i ≤ run.stop + text.newlineAfter run := by
  simp only [closingsOf, reach, Span.length, List.mem_range'_1]
  omega

theorem newlineAfter_eq_one (newline : text.get? run.stop = some '\n') :
    text.newlineAfter run = 1 := if_pos newline

theorem newlineAfter_eq_zero_iff :
    text.newlineAfter run = 0 ↔ text.get? run.stop ≠ some '\n' := by
  simp [newlineAfter]

theorem exists_run_of_closesAt (closes : text.closesAt C i = true) :
    ∃ run ∈ text.runs C, i ∈ text.closingsOf run := by
  cases i with
  | zero => cases closes
  | succ n =>
    cases has : text.hasAt C n with
    | true =>
      obtain ⟨run, member, start, stop⟩ := exists_run_of_hasAt has
      have ordered : run.start ≤ run.stop := by omega
      refine ⟨run, member, (mem_closingsOf_iff run ordered).mpr ?_⟩
      omega
    | false =>
      -- The character before the line feed is the last one of its run.
      have newline : text.get? n = some '\n' ∧ text.hasBefore C n = true := by
        simpa [closesAt, has] using closes
      cases n with
      | zero => cases newline.2
      | succ m =>
        obtain ⟨run, member, start, stop⟩ := exists_run_of_hasAt newline.2
        have last : run.stop = m + 1 := by
          by_contra further
          have inside := (mem_runs_iff.mp member).members (m + 1) (by omega) (by omega)
          rw [has] at inside
          cases inside
        have one : text.newlineAfter run = 1 := newlineAfter_eq_one (last ▸ newline.1)
        have ordered : run.start ≤ run.stop := by omega
        refine ⟨run, member, (mem_closingsOf_iff run ordered).mpr ?_⟩
        omega

theorem closesAt_of_mem_closingsOf (isRun : text.IsRun C run) (member : i ∈ text.closingsOf run) :
    i ≤ text.size ∧ text.closesAt C i = true := by
  have nonempty := isRun.nonempty
  have bounds := (mem_closingsOf_iff run (Nat.le_of_lt nonempty)).mp member
  obtain ⟨n, rfl⟩ : ∃ n, i = n + 1 := ⟨i - 1, by omega⟩
  by_cases inside : n < run.stop
  · have has := isRun.members n (by omega) inside
    exact ⟨lt_size_of_hasAt has, by simp [closesAt, has]⟩
  · have newline : text.get? run.stop = some '\n' := by
      by_contra other
      have := newlineAfter_eq_zero_iff.mpr other
      omega
    have one : text.newlineAfter run = 1 := newlineAfter_eq_one newline
    obtain rfl : n = run.stop := by omega
    obtain ⟨m, hm⟩ : ∃ m, run.stop = m + 1 := ⟨run.stop - 1, by omega⟩
    have before : text.hasBefore C run.stop = true := by
      rw [hm]
      exact isRun.members m (by omega) (by omega)
    constructor
    · by_contra outside
      rw [get?_eq_none_iff.mpr (by omega)] at newline
      cases newline
    · simp [closesAt, newline, before]

/-- The ends are those that the runs contribute, run by run. -/
theorem closings_eq_flatMap : text.closings C = (text.runs C).flatMap text.closingsOf := by
  have ordered : ((text.runs C).flatMap text.closingsOf).Pairwise (· < ·) := by
    rw [List.pairwise_flatMap]
    refine ⟨fun run _ => List.pairwise_lt_range', ?_⟩
    refine pairwise_before_runs.imp_of_mem ?_
    intro a b ha hb before i hi j hj
    have aRun := mem_runs_iff.mp ha
    have bRun := mem_runs_iff.mp hb
    have hi := (mem_closingsOf_iff a (Nat.le_of_lt aRun.nonempty)).mp hi
    have hj := (mem_closingsOf_iff b (Nat.le_of_lt bRun.nonempty)).mp hj
    -- A line feed between two runs lies before the start of the second one.
    have apart : a.stop ≠ b.start := by
      intro touches
      have has := bRun.members b.start (Nat.le_refl _) bRun.nonempty
      rw [← touches, aRun.after] at has
      cases has
    have most : text.newlineAfter a ≤ 1 := by
      unfold newlineAfter
      split <;> omega
    have := before.2
    omega
  refine (List.pairwise_lt_range.filter _).eq_of_mem_iff ordered fun i => ?_
  rw [List.mem_flatMap, List.mem_filter, List.mem_range]
  constructor
  · rintro ⟨-, closes⟩
    exact exists_run_of_closesAt closes
  · rintro ⟨run, member, contributed⟩
    obtain ⟨inside, closes⟩ := closesAt_of_mem_closingsOf (mem_runs_iff.mp member) contributed
    exact ⟨Nat.lt_succ_of_le inside, closes⟩

theorem length_closingsOf (run : Span) : (text.closingsOf run).length = text.reach run := by
  simp [closingsOf]

/-- A run contributes a single end exactly if it is a single character and no line feed
follows. -/
theorem reach_eq_one_iff (nonempty : run.start < run.stop) :
    text.reach run = 1 ↔ run.length = 1 ∧ text.get? run.stop ≠ some '\n' := by
  rw [← newlineAfter_eq_zero_iff, reach, Span.length]
  omega

/-- The ends from the last one on, run by run. -/
theorem reverse_closings (text : Text) (C : Char → Bool) :
    (text.closings C).reverse =
      (text.runs C).reverse.flatMap fun run => (text.closingsOf run).reverse := by
  rw [closings_eq_flatMap, List.reverse_flatMap]
  rfl

/-- Of the ends of one run, as many lie behind its stop as line feeds follow it. -/
theorem getElem?_reverse_closingsOf (nonempty : run.start < run.stop) :
    (text.closingsOf run).reverse[text.newlineAfter run]? = some run.stop := by
  have inside : text.newlineAfter run < (text.closingsOf run).length := by
    rw [length_closingsOf, reach, Span.length]
    omega
  rw [List.getElem?_reverse inside, length_closingsOf, closingsOf, reach, Span.length,
    List.getElem?_range' (by omega)]
  congr 1
  omega

theorem pairwise_reverse_closings : (text.closings C).reverse.Pairwise (· > ·) :=
  List.pairwise_reverse.mpr (List.pairwise_lt_range.filter _)

theorem le_size_of_getElem?_reverse_closings {stop : Nat}
    (found : (text.closings C).reverse[n]? = some stop) : stop ≤ text.size := by
  have member := List.mem_reverse.mp (List.mem_of_getElem? found)
  exact Nat.le_of_lt_succ (List.mem_range.mp (List.mem_of_mem_filter member))

/-- Counted from the end, the end of a given rank lies at the stop of the run of that rank or
behind it. It is that stop if every later run has a single end, and no line feed follows. -/
theorem closing_of_rank (found : (text.runs C).reverse[n]? = some run) :
    ∃ stop, (text.closings C).reverse[n]? = some stop ∧ run.stop ≤ stop ∧
      (stop = run.stop ↔
        (∀ a ∈ (text.runs C).reverse.take n, text.reach a = 1) ∧ text.newlineAfter run = 0) := by
  obtain ⟨inside, -⟩ := List.getElem?_eq_some_iff.mp found
  have isRun : ∀ a ∈ (text.runs C).reverse, text.IsRun C a :=
    fun a member => mem_runs_iff.mp (List.mem_reverse.mp member)
  have runIs : text.IsRun C run := isRun run (List.mem_of_getElem? found)
  let ends : Span → List Nat := fun run => (text.closingsOf run).reverse
  let later : List Nat := ((text.runs C).reverse.take n).flatMap ends
  have length_ends : ∀ a, (ends a).length = text.reach a := by
    intro a
    rw [List.length_reverse, length_closingsOf]
  obtain ⟨longer, tight⟩ : n ≤ later.length ∧
      (later.length = n ↔ ∀ a ∈ (text.runs C).reverse.take n, text.reach a = 1) := by
    have nonempty : ∀ a ∈ (text.runs C).reverse.take n, 1 ≤ (ends a).length := by
      intro a member
      have := (isRun a (List.mem_of_mem_take member)).nonempty
      rw [length_ends, reach, Span.length]
      omega
    have counts := length_flatMap_eq_iff nonempty
    simp only [length_ends] at counts
    rwa [List.length_take_of_le (Nat.le_of_lt inside)] at counts
  -- The stop of the run is found behind the ends of the later runs and its own line feed.
  have position : (text.closings C).reverse[later.length + text.newlineAfter run]? =
      some run.stop := by
    rw [reverse_closings]
    exact getElem?_flatMap found (getElem?_reverse_closingsOf runIs.nonempty)
  obtain ⟨hposition, getStop⟩ := List.getElem?_eq_some_iff.mp position
  have rank : n < (text.closings C).reverse.length := by omega
  have decreasing : (text.closings C).reverse.Pairwise (· > ·) := pairwise_reverse_closings
  have ordered := List.pairwise_iff_getElem.mp decreasing
  refine ⟨(text.closings C).reverse[n], List.getElem?_eq_getElem rank, ?_⟩
  rcases Nat.eq_or_lt_of_le (by omega : n ≤ later.length + text.newlineAfter run) with
    same | before
  · have stop : (text.closings C).reverse[n] = run.stop := by
      rw [← getStop]
      simp only [same]
    refine ⟨Nat.le_of_eq stop.symm, fun _ => ⟨tight.mp (by omega), by omega⟩, fun _ => stop⟩
  · have beyond := ordered n _ rank hposition before
    rw [getStop] at beyond
    refine ⟨Nat.le_of_lt beyond, ?_⟩
    constructor
    · intro stop
      omega
    · rintro ⟨single, noNewline⟩
      have := tight.mpr single
      omega

end Text

end StringTransform
