import StringTransform.Proofs.Extraction.FromEnd

/-!
# Where two classes meet

Between two classes of characters there is a boundary wherever a character of the one is
followed by a character of the other. Counted from the start, boundaries are found at the stops
of the runs of the first class; counted from the end, at the starts of the runs of the second
class. If the classes have no character in common, a run of the first class stops wherever a
character of the second class follows it, and the other way round. So both ways to count choose
from the same indices, as long as no line feed makes an index count as an end that is none.

## Main definitions

* `Text.meetings` — the indices between two classes, in order

## Main results

* `Text.exists_run_stop_iff`, `Text.exists_run_start_iff` — where runs stop, and where they start
* `Text.filter_stops_eq_meetings`, `Text.filter_starts_eq_meetings` — the stops of the one
  class and the starts of the other that matter are the indices between them
* `Position.locate_boundary_of_disjoint` — both ways to count choose from these indices
-/

namespace StringTransform

namespace Text

variable {text : Text} {C D : Char → Bool} {i : Nat}

/-- The indices with a character of the class `C` before them and one of the class `D` behind
them, in order. -/
def meetings (text : Text) (C D : Char → Bool) : List Nat :=
  (List.range text.size).filter fun i => text.hasBefore C i && text.hasAt D i

theorem mem_meetings_iff :
    i ∈ text.meetings C D ↔ text.hasBefore C i = true ∧ text.hasAt D i = true := by
  simp only [meetings, List.mem_filter, List.mem_range, Bool.and_eq_true]
  constructor
  · exact And.right
  · exact fun between => ⟨lt_size_of_hasAt between.2, between⟩

theorem pairwise_lt_meetings : (text.meetings C D).Pairwise (· < ·) :=
  List.pairwise_lt_range.filter _

/-! ### Where runs stop and where they start -/

/-- A run stops where a character of the class stands before the index and none at it. -/
theorem exists_run_stop_iff :
    (∃ run ∈ text.runs C, run.stop = i) ↔
      text.hasBefore C i = true ∧ text.hasAt C i = false := by
  constructor
  · rintro ⟨run, member, rfl⟩
    have isRun := mem_runs_iff.mp member
    have nonempty := isRun.nonempty
    -- A run has a character, and the last one stands before its stop.
    obtain ⟨last, hlast⟩ : ∃ last, run.stop = last + 1 := ⟨run.stop - 1, by omega⟩
    refine ⟨?_, isRun.after⟩
    rw [hlast]
    exact isRun.members last (by omega) (by omega)
  · rintro ⟨before, after⟩
    cases i with
    | zero => cases before
    | succ last =>
      -- The character before the index belongs to a run, which cannot go on beyond the index.
      obtain ⟨run, member, starts, stops⟩ := exists_run_of_hasAt before
      refine ⟨run, member, ?_⟩
      by_contra further
      have has := (mem_runs_iff.mp member).members (last + 1) (by omega) (by omega)
      rw [after] at has
      cases has

/-- A run starts where a character of the class stands at the index and none before it. -/
theorem exists_run_start_iff :
    (∃ run ∈ text.runs C, run.start = i) ↔
      text.hasAt C i = true ∧ text.hasBefore C i = false := by
  constructor
  · rintro ⟨run, member, rfl⟩
    have isRun := mem_runs_iff.mp member
    exact ⟨isRun.members run.start (Nat.le_refl _) isRun.nonempty, isRun.before⟩
  · intro starts
    exact ⟨_, mem_runs_iff.mpr (isRun_runStop (startsRun_iff.mpr starts)), rfl⟩

theorem pairwise_lt_stops : ((text.runs C).map (·.stop)).Pairwise (· < ·) := by
  rw [List.pairwise_map]
  refine pairwise_before_runs.imp_of_mem ?_
  intro a b _ hb before
  have := (mem_runs_iff.mp hb).nonempty
  have := before.2
  omega

theorem pairwise_lt_starts : ((text.runs C).map (·.start)).Pairwise (· < ·) := by
  rw [List.pairwise_map]
  exact pairwise_before_runs.imp And.left

section Disjoint

variable (disjoint : ∀ c, C c = true → D c = false)
include disjoint

/-- No character belongs to both classes. -/
theorem not_hasAt_of_disjoint (has : text.hasAt C i = true) : text.hasAt D i = false := by
  unfold hasAt at *
  cases found : text.get? i with
  | none => rfl
  | some c =>
    rw [found] at has
    exact disjoint c has

/-- A run of the first class stops wherever a character of the second class follows it. -/
theorem filter_stops_eq_meetings :
    ((text.runs C).map (·.stop)).filter (text.hasAt D) = text.meetings C D := by
  refine (pairwise_lt_stops.filter _).eq_of_mem_iff pairwise_lt_meetings fun i => ?_
  rw [mem_meetings_iff, List.mem_filter, List.mem_map, exists_run_stop_iff]
  constructor
  · rintro ⟨⟨before, -⟩, follows⟩
    exact ⟨before, follows⟩
  · rintro ⟨before, follows⟩
    refine ⟨⟨before, ?_⟩, follows⟩
    -- If the run went on, the character that follows would belong to both classes.
    by_contra goesOn
    have apart := not_hasAt_of_disjoint disjoint (Bool.of_not_eq_false goesOn)
    rw [follows] at apart
    cases apart

/-- A run of the second class starts wherever a character of the first class precedes it. -/
theorem filter_starts_eq_meetings :
    ((text.runs D).map (·.start)).filter (text.hasBefore C) = text.meetings C D := by
  refine (pairwise_lt_starts.filter _).eq_of_mem_iff pairwise_lt_meetings fun i => ?_
  rw [mem_meetings_iff, List.mem_filter, List.mem_map, exists_run_start_iff]
  constructor
  · rintro ⟨⟨has, -⟩, before⟩
    exact ⟨before, has⟩
  · rintro ⟨before, has⟩
    refine ⟨⟨has, ?_⟩, before⟩
    cases i with
    | zero => rfl
    | succ i => exact not_hasAt_of_disjoint disjoint before

end Disjoint

/-- Without line feeds an index counts as an end only behind a character of the class. -/
theorem closesAt_of_oneLine (oneLine : '\n' ∉ text.toList) :
    text.closesAt C i = text.hasBefore C i := by
  cases i with
  | zero => rfl
  | succ i =>
    have other : text.get? i ≠ some '\n' := by
      rw [get?_eq_getElem?]
      exact fun newline => oneLine (List.mem_of_getElem? newline)
    simp [closesAt, hasBefore, other]

end Text

namespace Run

variable {l r : Run} {text : Text} {i : Nat}

theorem isEmpty_token (r : Run) : r.token.isEmpty = false := by
  cases r <;> decide

/-- The token of a run matches at the start of what follows an index exactly if a character of
the class stands there. -/
theorem opens_drop (r : Run) (text : Text) (i : Nat) :
    r.token.opens (text.drop i) = text.hasAt r.contains i := by
  rw [Token.opens, isEmpty_ends, Bool.not_not, Text.hasAt, Text.get?_drop]
  rfl

end Run

namespace Position

section Disjoint

variable {l r : Run} {text : Text} (disjoint : ∀ c, l.contains c = true → r.contains c = false)
include disjoint

theorem locateFromStart_of_disjoint (rank : Nat) :
    locateFromStart l.token r.token rank text =
      (text.meetings l.contains r.contains)[rank - 1]? := by
  rw [locateFromStart_eq_filter, l.isEmpty_token, if_neg Bool.false_ne_true, Run.spans_eq_runs,
    ← Text.filter_stops_eq_meetings disjoint]
  simp only [Run.opens_drop, List.any_nil, Bool.not_false, Bool.and_true]

theorem locateFromEnd_of_disjoint (oneLine : '\n' ∉ text.toList) (rank : Nat) :
    locateFromEnd l.token r.token rank text =
      (text.meetings l.contains r.contains).reverse[rank - 1]? := by
  -- The left token is tried on what precedes a start as on a text of its own.
  have starts : ∀ i ∈ ((text.runs r.contains).map (·.start)).reverse,
      l.token.closes (text.take i) = text.hasBefore l.contains i := by
    intro i member
    obtain ⟨run, hrun, rfl⟩ := List.mem_map.mp (List.mem_reverse.mp member)
    have isRun := Text.mem_runs_iff.mp hrun
    have inside := Text.lt_size_of_hasAt (isRun.members _ (Nat.le_refl _) isRun.nonempty)
    rw [Run.closes_take_iff (Nat.le_of_lt inside), Text.closesAt_of_oneLine oneLine]
  rw [locateFromEnd_eq_filter, Run.spansBackward_eq_runs, List.map_reverse,
    List.filter_congr starts, List.filter_reverse, Text.filter_starts_eq_meetings disjoint]

/-- In a text without line feeds, the boundaries between two runs' tokens whose classes have no
character in common are the indices between the two classes. Occurrences from the start choose
among them in order, occurrences from the end in the opposite order, and there is none if there
are fewer than the occurrence counts. -/
theorem locate_boundary_of_disjoint (oneLine : '\n' ∉ text.toList) (k : Occurrence) :
    (Position.boundary l.token r.token k).locate text =
        (if k.fromStart then text.meetings l.contains r.contains
          else (text.meetings l.contains r.contains).reverse)[k.rank - 1]? ∧
      ((Position.boundary l.token r.token k).locate text = none ↔
        (text.meetings l.contains r.contains).length < k.rank) := by
  have chosen : (Position.boundary l.token r.token k).locate text =
      (if k.fromStart then text.meetings l.contains r.contains
        else (text.meetings l.contains r.contains).reverse)[k.rank - 1]? := by
    rw [locate]
    split
    · exact locateFromStart_of_disjoint disjoint k.rank
    · exact locateFromEnd_of_disjoint disjoint oneLine k.rank
  refine ⟨chosen, ?_⟩
  have positive := k.rank_pos
  rw [chosen, List.getElem?_eq_none_iff, apply_ite List.length, List.length_reverse, ite_self]
  omega

end Disjoint

/-- The last but one of the places in a date where a number ends at a hyphen. -/
theorem hyphen_behind_year :
    (∀ c, Run.num.contains c = true → Run.hyphen.contains c = false) ∧
      '\n' ∉ (Text.ofString "2003-23-03").toList ∧
      (Text.ofString "2003-23-03").meetings Run.num.contains Run.hyphen.contains = [4, 7] ∧
      (Position.boundary Run.num.token Run.hyphen.token
        ⟨-2, by decide, by decide, by decide⟩).locate (.ofString "2003-23-03") = some 4 := by
  have disjoint : ∀ c, Run.num.contains c = true → Run.hyphen.contains c = false := by
    intro c digit
    have other : c ≠ '-' := by
      rintro rfl
      cases digit
    exact beq_false_of_ne other
  have oneLine : '\n' ∉ (Text.ofString "2003-23-03").toList := by decide
  have between : (Text.ofString "2003-23-03").meetings Run.num.contains Run.hyphen.contains =
      [4, 7] := rfl
  refine ⟨disjoint, oneLine, between, ?_⟩
  rw [(locate_boundary_of_disjoint disjoint oneLine _).1, between]
  rfl

end Position

end StringTransform
