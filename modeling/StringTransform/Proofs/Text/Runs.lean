import StringTransform.Proofs.Scan.Order

/-!
# Runs of a class of characters

A run is a stretch of characters of a class that cannot be extended on either side. Two runs
never touch: between them stands a character that does not belong to the class. So the runs
of a text are determined by where they start, and the indices at which they start can be
listed.

## Main definitions

* `Text.hasAt`, `Text.hasBefore` — a character of the class stands at an index, or before it
* `Text.IsRun` — a stretch is a run
* `Text.runs` — the runs of a text in order
* `Text.runStop`, `Text.runStart` — how far the class goes from an index, in either direction

## Main results

* `Text.mem_runs_iff`, `Text.pairwise_before_runs` — the list holds the runs, in order
* `Text.IsRun.stop_le_start`, `Text.IsRun.eq_of_start_eq` — runs do not overlap
-/

namespace StringTransform

namespace Text

variable {text : Text} {C : Char → Bool} {i j k : Nat} {span a b : Span}

/-- A character of the class stands at the index. -/
def hasAt (text : Text) (C : Char → Bool) (i : Nat) : Bool :=
  (text.get? i).any C

/-- A character of the class stands before the index. -/
def hasBefore (text : Text) (C : Char → Bool) : Nat → Bool
  | 0 => false
  | i + 1 => text.hasAt C i

theorem lt_size_of_hasAt (has : text.hasAt C i = true) : i < text.size := by
  by_contra outside
  rw [hasAt, get?_eq_none_iff.mpr (Nat.le_of_not_lt outside)] at has
  cases has

/-- The stretch consists of characters of the class, and no such character stands before it or
behind it. -/
structure IsRun (text : Text) (C : Char → Bool) (span : Span) : Prop where
  nonempty : span.start < span.stop
  members : ∀ i, span.start ≤ i → i < span.stop → text.hasAt C i = true
  before : text.hasBefore C span.start = false
  after : text.hasAt C span.stop = false

/-- The end of the characters of the class in a row from an index on. -/
def runStop (text : Text) (C : Char → Bool) (i : Nat) : Nat :=
  i + ((text.toList.drop i).takeWhile C).length

/-- Whether a run starts at the index. -/
def startsRun (text : Text) (C : Char → Bool) (i : Nat) : Bool :=
  text.hasAt C i && !text.hasBefore C i

/-- The runs of a text in order. -/
def runs (text : Text) (C : Char → Bool) : List Span :=
  ((List.range text.size).filter (text.startsRun C)).map fun i => ⟨i, text.runStop C i⟩

theorem hasAt_eq : text.hasAt C i = (text.toList.drop i).head?.any C := by
  rw [hasAt, get?_eq_getElem?, List.head?_drop]

theorem drop_eq_cons_of_hasAt (has : text.hasAt C i = true) :
    ∃ c, C c = true ∧ text.toList.drop i = c :: text.toList.drop (i + 1) := by
  rw [hasAt_eq] at has
  cases rest : text.toList.drop i with
  | nil =>
    rw [rest] at has
    cases has
  | cons c cs =>
    rw [rest] at has
    have tail : text.toList.drop (i + 1) = cs := by
      rw [← List.tail_drop, rest, List.tail_cons]
    exact ⟨c, has, by rw [tail]⟩

theorem takeWhile_eq_nil_of_not_hasAt (outside : text.hasAt C i = false) :
    (text.toList.drop i).takeWhile C = [] := by
  rw [hasAt_eq] at outside
  cases rest : text.toList.drop i with
  | nil => rfl
  | cons c cs =>
    rw [rest] at outside
    exact List.takeWhile_cons_of_neg (ne_true_of_eq_false outside)

theorem runStop_of_not_hasAt (outside : text.hasAt C i = false) : text.runStop C i = i := by
  rw [runStop, takeWhile_eq_nil_of_not_hasAt outside, List.length_nil, Nat.add_zero]

theorem runStop_of_hasAt (has : text.hasAt C i = true) :
    text.runStop C i = text.runStop C (i + 1) := by
  obtain ⟨c, member, drop⟩ := drop_eq_cons_of_hasAt has
  rw [runStop, drop, List.takeWhile_cons_of_pos member, List.length_cons, runStop]
  omega

/-- From an index on, characters of the class stand up to where the run stops. -/
theorem runStop_spec (text : Text) (C : Char → Bool) (i : Nat) :
    i ≤ text.runStop C i ∧ (∀ j, i ≤ j → j < text.runStop C i → text.hasAt C j = true) ∧
      text.hasAt C (text.runStop C i) = false := by
  cases has : text.hasAt C i with
  | false =>
    rw [runStop_of_not_hasAt has]
    exact ⟨Nat.le_refl i, fun j h h' => absurd h (Nat.not_le.mpr h'), has⟩
  | true =>
    have inside := lt_size_of_hasAt has
    obtain ⟨ahead, members, after⟩ := runStop_spec text C (i + 1)
    rw [runStop_of_hasAt has]
    refine ⟨Nat.le_of_succ_le ahead, ?_, after⟩
    intro j h h'
    rcases Nat.eq_or_lt_of_le h with rfl | later
    · exact has
    · exact members j later h'
termination_by text.size - i

/-- The start of the characters of the class in a row before an index. -/
def runStart (text : Text) (C : Char → Bool) : Nat → Nat
  | 0 => 0
  | i + 1 => if text.hasAt C i then text.runStart C i else i + 1

/-- Before an index, characters of the class stand from where the run starts. -/
theorem runStart_spec (text : Text) (C : Char → Bool) (i : Nat) :
    text.runStart C i ≤ i ∧ (∀ j, text.runStart C i ≤ j → j < i → text.hasAt C j = true) ∧
      text.hasBefore C (text.runStart C i) = false := by
  induction i with
  | zero => exact ⟨Nat.le_refl 0, fun j _ h => absurd h (Nat.not_lt_zero j), rfl⟩
  | succ i ih =>
    rw [runStart]
    cases has : text.hasAt C i with
    | false => exact ⟨Nat.le_refl _, fun j h h' => absurd h (Nat.not_le.mpr h'), has⟩
    | true =>
      obtain ⟨behind, members, before⟩ := ih
      refine ⟨Nat.le_succ_of_le behind, ?_, before⟩
      intro j h h'
      rcases Nat.eq_or_lt_of_le (Nat.le_of_lt_succ h') with rfl | earlier
      · exact has
      · exact members j h earlier

/-- Of two runs, the one that starts first is over before the other one starts. -/
theorem IsRun.stop_le_start (ha : text.IsRun C a) (hb : text.IsRun C b)
    (less : a.start < b.start) : a.stop ≤ b.start := by
  by_contra overlap
  -- The character before the second run would belong to the first one.
  obtain ⟨i, hi⟩ : ∃ i, b.start = i + 1 := ⟨b.start - 1, by omega⟩
  have has := ha.members i (by omega) (by omega)
  have outside : text.hasAt C i = false := by
    have := hb.before
    rwa [hi] at this
  rw [outside] at has
  cases has

/-- Where two runs start at the same index, they are the same. -/
theorem IsRun.eq_of_start_eq (ha : text.IsRun C a) (hb : text.IsRun C b)
    (same : a.start = b.start) : a = b := by
  obtain ⟨start, stop⟩ := a
  obtain ⟨start', stop'⟩ := b
  obtain rfl : start = start' := same
  have hnonempty := ha.nonempty
  have hnonempty' := hb.nonempty
  rcases Nat.lt_trichotomy stop stop' with less | rfl | less
  · have has := hb.members stop (Nat.le_of_lt hnonempty) less
    rw [ha.after] at has
    cases has
  · rfl
  · have has := ha.members stop' (Nat.le_of_lt hnonempty') less
    rw [hb.after] at has
    cases has

theorem startsRun_iff : text.startsRun C i = true ↔
    text.hasAt C i = true ∧ text.hasBefore C i = false := by
  simp [startsRun]

/-- Where a run starts, it stops where characters of the class in a row do. -/
theorem isRun_runStop (starts : text.startsRun C i = true) :
    text.IsRun C ⟨i, text.runStop C i⟩ := by
  obtain ⟨ahead, members, after⟩ := text.runStop_spec C i
  obtain ⟨has, before⟩ := startsRun_iff.mp starts
  refine ⟨Nat.lt_of_le_of_ne ahead ?_, members, before, after⟩
  intro same
  have same : i = text.runStop C i := same
  rw [← same, has] at after
  cases after

theorem mem_runs_iff : span ∈ text.runs C ↔ text.IsRun C span := by
  simp only [runs, List.mem_map, List.mem_filter, List.mem_range]
  constructor
  · rintro ⟨i, ⟨-, starts⟩, rfl⟩
    exact isRun_runStop starts
  · intro run
    have has := run.members span.start (Nat.le_refl _) run.nonempty
    have starts := startsRun_iff.mpr ⟨has, run.before⟩
    refine ⟨span.start, ⟨lt_size_of_hasAt has, starts⟩, ?_⟩
    exact (isRun_runStop starts).eq_of_start_eq run rfl

theorem pairwise_before_runs : (text.runs C).Pairwise Span.Before := by
  have starts : (text.runs C).Pairwise (·.start < ·.start) := by
    rw [runs, List.pairwise_map]
    exact List.pairwise_lt_range.filter _
  refine starts.imp_of_mem ?_
  intro a b ha hb less
  exact ⟨less, (mem_runs_iff.mp ha).stop_le_start (mem_runs_iff.mp hb) less⟩

end Text

end StringTransform
