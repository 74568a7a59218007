import StringTransform.Proofs.Pattern.Backtracking
import StringTransform.Proofs.Text.Runs
import StringTransform.Token.Catalogue

/-!
# The spans of runs

The tokens of the catalogue that match one character of a class or more prefer as many as
possible, from either end, and the scans look at every index. So what they find in a text are
its runs, all of them, in order.

## Main definitions

* `Run.stepOver` — where one character of a class leads

## Main results

* `Run.reach_classPattern` — the pattern of one character tests for the class
* `Run.head?_ends`, `Run.head?_starts` — the preferred match reaches as far as the class does
* `Run.spans_eq_runs`, `Run.spansBackward_eq_runs` — the spans are the runs, in either
  direction
-/

namespace StringTransform

/-! ### The preferred match of a run -/

theorem head?_eraseDups (l : List Nat) : l.eraseDups.head? = l.head? := by
  cases l <;> simp [List.eraseDups_cons]

/-- A list that has a first member under a condition is empty under the opposite one. -/
theorem isEmpty_of_head? {l : List Nat} {b : Bool} {i : Nat}
    (first : l.head? = if b then some i else none) : l.isEmpty = !b := by
  rw [Bool.eq_iff_iff, List.isEmpty_iff, ← List.head?_eq_none_iff, first]
  cases b <;> simp

namespace Run

variable {r : Run} {text : Text} {d : Direction} {i : Nat}

/-- Where a character of the class leads from an index. -/
def stepOver (text : Text) (d : Direction) (C : Char → Bool) (i : Nat) : List Nat :=
  match d.next? text i with
  | none => []
  | some (c, j) => if C c then [j] else []

theorem contains_lower (c : Char) : (Item.range 'a' 'z').contains c = c.isLower := rfl

theorem contains_upper (c : Char) : (Item.range 'A' 'Z').contains c = c.isUpper :=
  (Bool.decide_and ('A' ≤ c) (c ≤ 'Z')).symm

theorem contains_digit (c : Char) : (Item.range '0' '9').contains c = c.isDigit := rfl

theorem isAlpha_eq (c : Char) : c.isAlpha = (c.isUpper || c.isLower) := rfl

/-- All classes but that of the slashes are given by one test. -/
theorem exists_single_of_ne_slash (other : r ≠ .slash) :
    ∃ t : CharTest, r.classPattern = .single t ∧ ∀ c, t.holds c = r.contains c := by
  cases r with
  | slash => exact absurd rfl other
  | alpha =>
    refine ⟨_, rfl, fun c => ?_⟩
    simp [CharTest.holds, contains_lower, contains_upper, contains, isAlpha_eq, Bool.or_comm]
  | upper | lower =>
    refine ⟨_, rfl, fun c => ?_⟩
    simp [CharTest.holds, contains_lower, contains_upper, contains]
  | alphanumeric =>
    refine ⟨_, rfl, fun c => ?_⟩
    simp only [CharTest.holds, List.any_cons, List.any_nil, contains_lower, contains_upper,
      contains_digit, contains, Char.isAlphanum, isAlpha_eq]
    cases c.isLower <;> cases c.isUpper <;> cases c.isDigit <;> rfl
  | comma | hyphen | leftParen | rightParen | dot =>
    refine ⟨_, rfl, fun c => ?_⟩
    exact BEq.comm
  | _ =>
    refine ⟨_, rfl, fun c => ?_⟩
    simp [CharTest.holds, Item.contains, contains]

/-- The pattern of one character of the class tests the character that lies ahead. -/
theorem reach_classPattern (r : Run) (d : Direction) (i : Nat) :
    r.classPattern.reach text d i = stepOver text d r.contains i := by
  by_cases slash : r = .slash
  · subst slash
    unfold stepOver
    cases next : d.next? text i with
    | none =>
      cases d <;>
        simp [classPattern, Pattern.reach, Pattern.reachAlt, Pattern.reachSeq, next, distinct]
    | some ahead =>
      obtain ⟨c, j⟩ := ahead
      -- At most one of the two branches leads on, and both lead to the same index.
      by_cases back : c = '\\'
      · subst back
        cases d <;> simp [classPattern, Pattern.reach, Pattern.reachAlt, Pattern.reachSeq, next,
          CharTest.holds, contains, distinct]
      · by_cases forth : c = '/'
        · subst forth
          cases d <;> simp [classPattern, Pattern.reach, Pattern.reachAlt, Pattern.reachSeq,
            next, CharTest.holds, contains, distinct]
        · have back' := Ne.symm back
          have forth' := Ne.symm forth
          cases d <;> simp [classPattern, Pattern.reach, Pattern.reachAlt, Pattern.reachSeq,
            next, CharTest.holds, contains, distinct, back, back', forth, forth']
  · obtain ⟨t, single, same⟩ := exists_single_of_ne_slash slash
    rw [single, Pattern.reach, stepOver]
    cases d.next? text i with
    | none => rfl
    | some ahead => simp [same]

/-- A run's token prefers to go on for as long as the class does. -/
theorem head?_reach_token (r : Run) (d : Direction) (i : Nat) :
    (r.token.pattern.reach text d i).head? =
      ((stepOver text d r.contains i).flatMap
        (again (d.room text) (stepOver text d r.contains))).head? := by
  have body : r.classPattern.reach text d = stepOver text d r.contains :=
    funext fun i => r.reach_classPattern d i
  have repeated : (Pattern.quantified .oneOrMore r.classPattern).reach text d i =
      ((stepOver text d r.contains i).flatMap
        (again (d.room text) (stepOver text d r.contains))).eraseDups := by
    rw [Pattern.reach, Quantifier.reach_eq_eraseDups, body]
    rfl
  have whole : r.token.pattern.reach text d i =
      ((Pattern.quantified .oneOrMore r.classPattern).reach text d i).eraseDups := by
    rw [← distinct_eq_eraseDups]
    cases d <;> simp [token, Pattern.reach, Pattern.reachSeq]
  rw [whole, repeated, head?_eraseDups, head?_eraseDups]

end Run

/-! ### From left to right -/

namespace Run

variable {r : Run} {text : Text} {C : Char → Bool} {i j : Nat} {span : Span}

theorem stepOver_forward : stepOver text .forward C i = if text.hasAt C i then [i + 1] else [] := by
  cases found : text.get? i <;> simp [stepOver, Direction.next?, Text.hasAt, found]

/-- Going on from an index for as long as the class does leads to where the run stops. -/
theorem head?_again_forward (i : Nat) :
    (again (Direction.room text .forward) (stepOver text .forward C) i).head? =
      some (text.runStop C i) := by
  rw [again_eq, stepOver_forward]
  cases has : text.hasAt C i with
  | false => simp [Text.runStop_of_not_hasAt has]
  | true =>
    have inside := Text.lt_size_of_hasAt has
    have less : Direction.room text .forward (i + 1) < Direction.room text .forward i := by
      simp only [Direction.room]
      omega
    rw [Text.runStop_of_hasAt has]
    simp [less, List.head?_append, head?_again_forward (i + 1)]
termination_by text.size - i

/-- The preferred match from an index on reaches as far as the class does. -/
theorem head?_ends (r : Run) (text : Text) (i : Nat) :
    (r.token.pattern.ends text i).head? =
      if text.hasAt r.contains i then some (text.runStop r.contains i) else none := by
  rw [Pattern.ends, head?_reach_token, stepOver_forward]
  cases has : text.hasAt r.contains i with
  | false => rfl
  | true => simp [head?_again_forward, Text.runStop_of_hasAt has]

/-- The token of a run matches from an index on exactly if a character of the class stands
there. -/
theorem isEmpty_ends (r : Run) (text : Text) (i : Nat) :
    (r.token.pattern.ends text i).isEmpty = !text.hasAt r.contains i :=
  isEmpty_of_head? (r.head?_ends text i)

theorem matches_of_hasAt (has : text.hasAt r.contains i = true) :
    ∃ j, r.token.pattern.Matches text i j := by
  rwa [← Pattern.not_isEmpty_ends_iff, isEmpty_ends, Bool.not_not]

/-- A span starts with a character of the class and stops where the class does. -/
theorem hasAt_of_mem_spans (member : span ∈ r.token.spans text) :
    text.hasAt r.contains span.start = true ∧
      span.stop = text.runStop r.contains span.start := by
  have first := Token.head?_ends_of_mem_spans span member
  rw [head?_ends] at first
  cases has : text.hasAt r.contains span.start with
  | false => simp [has] at first
  | true => simpa [has, eq_comm] using first

/-- No character of the class stands before a span, since the scan would have started there. -/
theorem hasBefore_of_mem_spans (member : span ∈ r.token.spans text) :
    text.hasBefore r.contains span.start = false := by
  obtain ⟨has, stop⟩ := hasAt_of_mem_spans member
  cases start : span.start with
  | zero => rfl
  | succ i =>
    by_contra before
    have before : text.hasAt r.contains i = true := Bool.of_not_eq_false before
    have inside := Nat.le_of_lt (Text.lt_size_of_hasAt before)
    obtain ⟨found, hfound, covers⟩ :=
      Token.exists_span_of_opening inside (matches_of_hasAt before)
    obtain ⟨-, foundStop⟩ := hasAt_of_mem_spans hfound
    have spec := text.runStop_spec r.contains found.start
    rw [← foundStop] at spec
    obtain ⟨ahead, -, after⟩ := spec
    -- The span found there does not stop where this one starts, so the two overlap.
    have apart : found.stop ≠ i + 1 := by
      intro touches
      rw [touches, ← start, has] at after
      cases after
    have nonempty : found.start ≠ found.stop := by
      intro empty
      rw [← empty, (hasAt_of_mem_spans hfound).1] at after
      cases after
    rcases rel_or_eq_or_rel_of_pairwise Token.pairwise_before_spans hfound member with
      order | rfl | order
    · have := order.2
      omega
    · omega
    · have := order.1
      omega

/-- The spans are the runs. -/
theorem mem_spans_iff : span ∈ r.token.spans text ↔ text.IsRun r.contains span := by
  have isRun : ∀ {span}, span ∈ r.token.spans text → text.IsRun r.contains span := by
    intro span member
    obtain ⟨has, stop⟩ := hasAt_of_mem_spans member
    have run := Text.isRun_runStop (Text.startsRun_iff.mpr ⟨has, hasBefore_of_mem_spans member⟩)
    rwa [← stop] at run
  refine ⟨isRun, ?_⟩
  intro run
  have has := run.members span.start (Nat.le_refl _) run.nonempty
  obtain ⟨found, member, covers⟩ :=
    Token.exists_span_of_opening (Nat.le_of_lt (Text.lt_size_of_hasAt has)) (matches_of_hasAt has)
  have same : found.start = span.start := by
    by_contra different
    have := (isRun member).stop_le_start run (by omega)
    have := (isRun member).nonempty
    omega
  exact (isRun member).eq_of_start_eq run same ▸ member

/-- From left to right the scan finds the runs in order. -/
theorem spans_eq_runs (r : Run) (text : Text) : r.token.spans text = text.runs r.contains := by
  refine Token.pairwise_before_spans.eq_of_mem_iff Text.pairwise_before_runs fun span => ?_
  rw [mem_spans_iff, Text.mem_runs_iff]

end Run

/-! ### From right to left -/

namespace Run

variable {r : Run} {text : Text} {C : Char → Bool} {i j : Nat} {span : Span}

theorem stepOver_backward_succ :
    stepOver text .backward C (i + 1) = if text.hasAt C i then [i] else [] := by
  cases found : text.get? i <;> simp [stepOver, Direction.next?, Text.hasAt, found]

theorem head?_again_backward (i : Nat) :
    (again (Direction.room text .backward) (stepOver text .backward C) i).head? =
      some (text.runStart C i) := by
  induction i with
  | zero => rw [again_eq]; rfl
  | succ i ih =>
    rw [again_eq, stepOver_backward_succ, Text.runStart]
    cases has : text.hasAt C i with
    | false => rfl
    | true => simp [Direction.room, List.head?_append, ih]

/-- The preferred match up to an index reaches back as far as the class does. -/
theorem head?_starts (r : Run) (text : Text) (i : Nat) :
    (r.token.pattern.starts text i).head? =
      if text.hasBefore r.contains i then some (text.runStart r.contains i) else none := by
  rw [Pattern.starts, head?_reach_token]
  cases i with
  | zero => rfl
  | succ i =>
    rw [stepOver_backward_succ, Text.hasBefore, Text.runStart]
    cases has : text.hasAt r.contains i with
    | false => rfl
    | true => simp [head?_again_backward]

/-- The token of a run matches up to an index exactly if a character of the class stands
before it. -/
theorem isEmpty_starts (r : Run) (text : Text) (i : Nat) :
    (r.token.pattern.starts text i).isEmpty = !text.hasBefore r.contains i :=
  isEmpty_of_head? (r.head?_starts text i)

theorem matches_of_hasBefore (has : text.hasBefore r.contains i = true) :
    ∃ j, r.token.pattern.Matches text j i := by
  rwa [← Pattern.not_isEmpty_starts_iff, isEmpty_starts, Bool.not_not]

theorem hasBefore_of_mem_spansBackward (member : span ∈ r.token.spansBackward text) :
    text.hasBefore r.contains span.stop = true ∧
      span.start = text.runStart r.contains span.stop := by
  have first := Token.head?_starts_of_mem_spansBackward span member
  rw [head?_starts] at first
  cases has : text.hasBefore r.contains span.stop with
  | false => simp [has] at first
  | true => simpa [has, eq_comm] using first

theorem hasAt_of_mem_spansBackward (member : span ∈ r.token.spansBackward text) :
    text.hasAt r.contains span.stop = false := by
  obtain ⟨has, start⟩ := hasBefore_of_mem_spansBackward member
  by_contra after
  have after : text.hasAt r.contains span.stop = true := Bool.of_not_eq_false after
  have inside := Text.lt_size_of_hasAt after
  obtain ⟨found, hfound, covers⟩ :=
    Token.exists_span_of_closing inside (matches_of_hasBefore (i := span.stop + 1) after)
  obtain ⟨-, foundStart⟩ := hasBefore_of_mem_spansBackward hfound
  have spec := text.runStart_spec r.contains found.stop
  rw [← foundStart] at spec
  obtain ⟨behind, -, before⟩ := spec
  have apart : found.start ≠ span.stop := by
    intro touches
    rw [touches, has] at before
    cases before
  have nonempty : found.start ≠ found.stop := by
    intro empty
    rw [empty, (hasBefore_of_mem_spansBackward hfound).1] at before
    cases before
  rcases rel_or_eq_or_rel_of_pairwise Token.pairwise_behind_spansBackward hfound member with
    order | rfl | order
  · have := order.2
    omega
  · omega
  · have := order.1
    omega

theorem mem_spansBackward_iff :
    span ∈ r.token.spansBackward text ↔ text.IsRun r.contains span := by
  have isRun : ∀ {span}, span ∈ r.token.spansBackward text → text.IsRun r.contains span := by
    intro span member
    obtain ⟨has, start⟩ := hasBefore_of_mem_spansBackward member
    have spec := text.runStart_spec r.contains span.stop
    rw [← start] at spec
    obtain ⟨behind, members, before⟩ := spec
    refine ⟨Nat.lt_of_le_of_ne behind ?_, members, before, hasAt_of_mem_spansBackward member⟩
    intro empty
    rw [empty, has] at before
    cases before
  refine ⟨isRun, ?_⟩
  intro run
  have nonempty := run.nonempty
  obtain ⟨last, hlast⟩ : ∃ last, span.stop = last + 1 := ⟨span.stop - 1, by omega⟩
  have has : text.hasAt r.contains last = true := run.members last (by omega) (by omega)
  have inside := Text.lt_size_of_hasAt has
  obtain ⟨found, member, covers⟩ :=
    Token.exists_span_of_closing inside (matches_of_hasBefore (i := last + 1) has)
  have same : found.start = span.start := by
    rcases Nat.lt_trichotomy found.start span.start with less | same | less
    · have := (isRun member).stop_le_start run less
      omega
    · exact same
    · have := run.stop_le_start (isRun member) less
      have := (isRun member).nonempty
      omega
  exact (isRun member).eq_of_start_eq run same ▸ member

/-- From right to left the scan finds the runs in the opposite order. -/
theorem spansBackward_eq_runs (r : Run) (text : Text) :
    r.token.spansBackward text = (text.runs r.contains).reverse := by
  apply Token.spansBackward_eq_reverse Text.pairwise_before_runs
  · intro span
    rw [mem_spansBackward_iff, Text.mem_runs_iff]
  · intro a _ b hb behind
    have := (Text.mem_runs_iff.mp hb).nonempty
    have := behind.2
    omega

end Run

end StringTransform
