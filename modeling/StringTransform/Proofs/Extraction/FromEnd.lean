import StringTransform.Proofs.Extraction.RunLoop
import StringTransform.Proofs.Text.Closings

/-!
# The run of a given rank, counted from the end

Counted from the end, the beginnings are the starts of the spans, one for each run. The ends
are not the stops of the spans: an index counts as an end whenever the token matches what
comes before it, which it does inside a run as well. So the ends are behind the beginnings in
the count, and what is cut out starts with the run of the given rank and may reach beyond it.

## Main results

* `Run.closes_take_iff` — what it means to match what comes before an index
* `Run.cut_from_end` — what lies between the boundaries of a rank
* `Formula.nth_eval_from_end` — what an occurrence counted from the end cuts out
-/

namespace StringTransform

namespace Run

variable {r : Run} {text : Text} {i : Nat}

/-- The token of a run matches what comes before an index exactly if a character of the class
stands there, or a line feed behind one. -/
theorem closes_take_iff (inside : i ≤ text.size) :
    r.token.closes (text.take i) = text.closesAt r.contains i := by
  have size : (text.take i).size = i := by rw [Text.size_take, Nat.min_eq_left inside]
  have before : ∀ j ≤ i, (text.take i).hasBefore r.contains j = text.hasBefore r.contains j := by
    intro j hj
    cases j with
    | zero => rfl
    | succ j =>
      simp only [Text.hasBefore, Text.hasAt]
      rw [Text.get?_take, if_pos (Nat.lt_of_succ_le hj)]
  rw [Token.closes, size, isEmpty_starts, isEmpty_starts, before i (Nat.le_refl i),
    before (i - 1) (Nat.sub_le i 1), Bool.not_not, Bool.not_not, Text.get?_take]
  cases i with
  | zero => rfl
  | succ i =>
    rw [Nat.add_sub_cancel, if_pos (Nat.lt_succ_self i)]
    rfl

end Run

namespace Text

variable {text : Text} {run : Span} {stop : Nat}

theorem length_stretch (inside : stop ≤ text.size) (start : Nat) :
    (text.stretch ⟨start, stop⟩).length = stop - start := by
  simp [stretch, Text.toString, Nat.min_eq_left inside]

/-- Stretches from the same index are the same exactly if they stop at the same index. -/
theorem stretch_eq_iff (ordered : run.start ≤ run.stop) (further : run.stop ≤ stop)
    (inside : stop ≤ text.size) :
    text.stretch ⟨run.start, stop⟩ = text.stretch run ↔ stop = run.stop := by
  constructor
  · intro same
    have lengths := congrArg String.length same
    rw [length_stretch inside, length_stretch (Nat.le_trans further inside)] at lengths
    omega
  · rintro rfl
    rfl

end Text

namespace Run

variable {r : Run} {text : Text} {k : Occurrence}

/-- What lies between the boundaries of a rank reaches from the start of the run of that rank
to the end of that rank. -/
theorem cut_from_end (r : Run) (text : Text) (negative : k.fromStart = false) :
    text.cut (.boundary .empty r.token k) (.boundary r.token .empty k) =
      (r.token.spansBackward text)[k.rank - 1]?.bind fun run =>
        (text.closings r.contains).reverse[k.rank - 1]?.map fun stop =>
          text.stretch ⟨run.start, stop⟩ := by
  have beginning : (Position.boundary .empty r.token k).locate text =
      ((r.token.spansBackward text)[k.rank - 1]?).map (·.start) := by
    rw [Position.locate, negative, if_neg Bool.false_ne_true, Position.locateFromEnd_empty_left,
      List.getElem?_map]
  have ending : (Position.boundary r.token .empty k).locate text =
      (text.closings r.contains).reverse[k.rank - 1]? := by
    rw [Position.locate, negative, if_neg Bool.false_ne_true, Position.locateFromEnd_empty_right,
      List.filter_reverse, Text.closings]
    congr 2
    refine List.filter_congr fun i hi => closes_take_iff ?_
    exact Nat.le_of_lt_succ (List.mem_range.mp hi)
  rw [Text.cut, beginning, ending, spansBackward_eq_runs]
  cases found : (text.runs r.contains).reverse[k.rank - 1]? with
  | none => rfl
  | some run =>
    obtain ⟨stop, hstop, further, -⟩ := Text.closing_of_rank found
    have nonempty : run.start < run.stop :=
      (Text.mem_runs_iff.mp (List.mem_reverse.mp (List.mem_of_getElem? found))).nonempty
    have inside : stop ≤ text.size := Text.le_size_of_getElem?_reverse_closings hstop
    have guard : run.start < text.size ∧ stop ≤ text.size ∧ run.start ≤ stop :=
      ⟨by omega, inside, by omega⟩
    rw [hstop]
    exact if_pos guard

end Run

namespace Formula

variable {row : Row} {v : Var} {s : String}

/-- Counted from the end, a match of a run's token is cut out from the start of the run of
that rank up to the end of that rank, if the text has so many runs. It is the run itself
exactly if the runs behind it are single characters, and no line feed follows any of them. -/
theorem nth_eval_from_end (r : Run) (present : row.text? v = some s) {k : Occurrence}
    (negative : k.fromStart = false) :
    ((r.token.spansBackward (.ofString s))[k.rank - 1]? = none →
      (Formula.nth v r.token k).eval row = none) ∧
    ∀ run, (r.token.spansBackward (.ofString s))[k.rank - 1]? = some run →
      ∃ stop, ((Text.ofString s).closings r.contains).reverse[k.rank - 1]? = some stop ∧
        run.stop ≤ stop ∧
        (Formula.nth v r.token k).eval row =
          some ((Text.ofString s).stretch ⟨run.start, stop⟩) ∧
        ((Formula.nth v r.token k).eval row = some ((Text.ofString s).stretch run) ↔
          (∀ a ∈ (r.token.spansBackward (.ofString s)).take (k.rank - 1),
            a.length = 1 ∧ (Text.ofString s).get? a.stop ≠ some '\n') ∧
          (Text.ofString s).get? run.stop ≠ some '\n') := by
  rw [eval, present, Option.bind_some, Run.cut_from_end r _ negative]
  constructor
  · intro missing
    rw [missing]
    rfl
  · intro run found
    have isRun : ∀ a ∈ r.token.spansBackward (.ofString s), (Text.ofString s).IsRun r.contains a :=
      fun a member => Run.mem_spansBackward_iff.mp member
    have nonempty := (isRun run (List.mem_of_getElem? found)).nonempty
    obtain ⟨stop, hstop, further, tight⟩ :=
      Text.closing_of_rank (Run.spansBackward_eq_runs r (.ofString s) ▸ found)
    have inside := Text.le_size_of_getElem?_reverse_closings hstop
    rw [found, hstop, Option.bind_some, Option.map_some]
    refine ⟨stop, rfl, further, rfl, ?_⟩
    calc some ((Text.ofString s).stretch ⟨run.start, stop⟩) = some ((Text.ofString s).stretch run)
        ↔ stop = run.stop := by
          rw [Option.some_inj]
          exact Text.stretch_eq_iff (Nat.le_of_lt nonempty) further inside
      _ ↔ _ := tight
      _ ↔ _ := by
        rw [← Run.spansBackward_eq_runs, Text.newlineAfter_eq_zero_iff]
        refine and_congr_left' (forall₂_congr fun a member => ?_)
        exact Text.reach_eq_one_iff (isRun a (List.mem_of_mem_take member)).nonempty

/-- The last but one word of two lines: it is a single character, but the line feed behind it
belongs to what is cut out. -/
theorem word_before_newline_cut :
    (Row.ofSubject "AbC x\ny").text? .subject = some "AbC x\ny" ∧
      Run.alpha.token.spansBackward (.ofString "AbC x\ny") = [⟨6, 7⟩, ⟨4, 5⟩, ⟨0, 3⟩] ∧
      (Formula.nth .subject Run.alpha.token ⟨-2, by decide, by decide, by decide⟩).eval
        (.ofSubject "AbC x\ny") = some "x\n" := by
  have present : (Row.ofSubject "AbC x\ny").text? .subject = some "AbC x\ny" := rfl
  have spans : Run.alpha.token.spansBackward (.ofString "AbC x\ny") =
      [⟨6, 7⟩, ⟨4, 5⟩, ⟨0, 3⟩] := by
    rw [Run.spansBackward_eq_runs]
    rfl
  have ends : ((Text.ofString "AbC x\ny").closings Run.alpha.contains).reverse =
      [7, 6, 5, 3, 2, 1] := rfl
  refine ⟨present, spans, ?_⟩
  let k : Occurrence := ⟨-2, by decide, by decide, by decide⟩
  obtain ⟨stop, hstop, -, cut, -⟩ :=
    (nth_eval_from_end .alpha present (k := k) rfl).2 ⟨4, 5⟩ (by rw [spans]; rfl)
  rw [ends] at hstop
  obtain rfl : 6 = stop := Option.some.inj hstop
  exact cut

/-- The last but one word is cut out together with the start of the last one, because each
letter of the last word counts as an end. -/
theorem last_but_one_word_overrun :
    Run.alpha.token.spansBackward (.ofString "AbC dE") = [⟨4, 6⟩, ⟨0, 3⟩] ∧
      (Text.ofString "AbC dE").stretch ⟨0, 3⟩ = "AbC" ∧
      (Formula.nth .subject Run.alpha.token ⟨-2, by decide, by decide, by decide⟩).eval
        (.ofSubject "AbC dE") = some "AbC d" := by
  have spans : Run.alpha.token.spansBackward (.ofString "AbC dE") = [⟨4, 6⟩, ⟨0, 3⟩] := by
    rw [Run.spansBackward_eq_runs]
    rfl
  refine ⟨spans, rfl, ?_⟩
  have cut := Run.cut_from_end .alpha (.ofString "AbC dE")
    (k := ⟨-2, by decide, by decide, by decide⟩) rfl
  rw [spans] at cut
  exact cut

end Formula

end StringTransform
