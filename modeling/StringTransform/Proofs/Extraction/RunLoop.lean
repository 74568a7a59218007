import StringTransform.Proofs.Extraction.FromStart
import StringTransform.Proofs.Formula.Loops
import StringTransform.Proofs.Scan.Runs

/-!
# Collecting the characters of a class

Runs of a class do not touch, so every match of the token of a run is found from the start by
its rank. A loop over the ranks therefore puts all runs of a text together, and these hold the
characters of the class in their order and nothing else.

## Main results

* `Run.plain`, `Run.consumes`, `Run.untouched` — the tokens of runs have no assertions, no
  empty matches, and no matches that touch
* `Run.join_stretch_runs` — the runs hold the characters of the class
* `Formula.nth_eval_of_run` — the run of a given rank is found
* `Formula.loop_collects_class` — a loop over all ranks collects the class
-/

namespace StringTransform

namespace Text

variable {text : Text} {C : Char → Bool} {i : Nat}

theorem dropWhile_eq_drop (C : Char → Bool) (cs : List Char) :
    cs.dropWhile C = cs.drop (cs.takeWhile C).length := by
  calc cs.dropWhile C
      = (cs.takeWhile C ++ cs.dropWhile C).drop (cs.takeWhile C).length := by
        rw [List.drop_left]
    _ = cs.drop (cs.takeWhile C).length := by rw [List.takeWhile_append_dropWhile]

/-- The characters from an index to where the class stops. -/
theorem stretch_runStop (text : Text) (C : Char → Bool) (i : Nat) :
    text.stretch ⟨i, text.runStop C i⟩ = String.ofList ((text.toList.drop i).takeWhile C) := by
  have row : (text.toList.drop i).take ((text.toList.drop i).takeWhile C).length =
      (text.toList.drop i).takeWhile C :=
    (List.prefix_iff_eq_take.mp (List.takeWhile_prefix C)).symm
  simp [stretch, Text.toString, runStop, List.drop_take, row]

/-- Up to where the class stops, all characters belong to it. -/
theorem filter_drop_eq (text : Text) (C : Char → Bool) (i : Nat) :
    (text.toList.drop i).filter C =
      (text.toList.drop i).takeWhile C ++ (text.toList.drop (text.runStop C i)).filter C := by
  have members : ((text.toList.drop i).takeWhile C).filter C = (text.toList.drop i).takeWhile C :=
    List.filter_eq_self.mpr fun _ member => List.mem_takeWhile_imp member
  have rest : (text.toList.drop i).dropWhile C = text.toList.drop (text.runStop C i) := by
    rw [dropWhile_eq_drop, List.drop_drop, runStop]
  calc (text.toList.drop i).filter C
      = ((text.toList.drop i).takeWhile C ++ (text.toList.drop i).dropWhile C).filter C := by
        rw [List.takeWhile_append_dropWhile]
    _ = _ := by rw [List.filter_append, members, rest]

/-- A character outside the class does not matter. -/
theorem filter_drop_succ (outside : text.hasAt C i = false) :
    (text.toList.drop i).filter C = (text.toList.drop (i + 1)).filter C := by
  rw [← List.tail_drop]
  rw [hasAt_eq] at outside
  cases rest : text.toList.drop i with
  | nil => rfl
  | cons c cs =>
    rw [rest] at outside
    exact List.filter_cons_of_neg (ne_true_of_eq_false outside)

end Text

namespace Run

variable {r : Run} {text : Text} {i j : Nat} {a b : Span}

theorem plain (r : Run) : r.token.pattern.Plain := by
  cases r <;> decide

/-- One character of the class leads to the next index. -/
theorem matches_classPattern (matched : r.classPattern.Matches text i j) : j = i + 1 := by
  rw [← Pattern.mem_ends, Pattern.ends, reach_classPattern, stepOver_forward] at matched
  split at matched
  · exact List.mem_singleton.mp matched
  · cases matched

theorem lt_of_repeated (repeated : Relation.TransGen (r.classPattern.Matches text) i j) :
    i < j := by
  induction repeated with
  | single first =>
    have := matches_classPattern first
    omega
  | tail _ further ih =>
    have := matches_classPattern further
    omega

theorem consumes (r : Run) : r.token.Consumes := by
  intro text i reached
  obtain ⟨k, repeated, last⟩ := Pattern.mem_ends.mp reached
  have ahead : i < k := lt_of_repeated repeated
  have stays : k = i := last
  omega

/-- No run stops where another one starts, since one of them would go on. -/
theorem untouched (ha : a ∈ r.token.spans text) : a.Untouched (r.token.spans text) := by
  intro b hb touches
  have run := mem_spans_iff.mp ha
  have has := run.members a.start (Nat.le_refl _) run.nonempty
  have after := (mem_spans_iff.mp hb).after
  rw [touches, has] at after
  cases after

/-- The spans from an index on hold the characters of the class that stand there. -/
theorem join_stretch_spansFrom (i : Nat) :
    String.join ((r.token.spansFrom text i).map text.stretch) =
      String.ofList ((text.toList.drop i).filter r.contains) := by
  refine Token.spansFrom_induction (P := fun i spans => String.join (spans.map text.stretch) =
    String.ofList ((text.toList.drop i).filter r.contains)) ?_ ?_ ?_ i
  · intro i outside
    have nothing : text.toList.drop i = [] := by
      apply List.drop_eq_nil_of_le
      rw [Text.length_toList]
      omega
    rw [nothing]
    rfl
  · intro i _ noMatch rest
    -- Where the scan finds nothing, no character of the class stands.
    have outside : text.hasAt r.contains i = false := by
      by_contra has
      exact Pattern.ends_ne_nil_iff.mpr (matches_of_hasAt (Bool.of_not_eq_false has)) noMatch
    rw [rest, Text.filter_drop_succ outside]
  · intro i j _ _ first rest
    rw [head?_ends] at first
    obtain ⟨has, stop⟩ := Option.ite_none_right_eq_some.mp first
    obtain rfl := Option.some.inj stop
    -- The span is not empty, so the scan resumes where the characters in a row stop.
    have further := text.runStop_spec r.contains (i + 1)
    rw [← Text.runStop_of_hasAt has] at further
    rw [Nat.max_eq_left further.1] at rest ⊢
    rw [List.map_cons, String.join_cons, rest, Text.stretch_runStop, ← String.ofList_append,
      ← Text.filter_drop_eq]

/-- All runs together hold the characters of the class, in their order. -/
theorem join_stretch_runs (r : Run) (text : Text) :
    String.join ((text.runs r.contains).map text.stretch) =
      String.ofList (text.toList.filter r.contains) := by
  rw [← spans_eq_runs]
  exact join_stretch_spansFrom 0

end Run

namespace Formula

variable {row : Row} {v : Var} {s : String}

/-- The match of a run's token counted from the start is the run of that rank. -/
theorem nth_eval_of_run (r : Run) (present : row.text? v = some s) {k : Occurrence}
    (positive : k.fromStart = true) :
    (Formula.nth v r.token k).eval row =
      (((Text.ofString s).runs r.contains).map (Text.ofString s).stretch)[k.rank - 1]? := by
  rw [eval, present, Option.bind_some, Token.cut_from_start r.plain r.consumes positive,
    ← Run.spans_eq_runs, List.getElem?_map]
  have apart : ∀ a ∈ (r.token.spans (.ofString s)).take k.rank,
      a.Untouched (r.token.spans (.ofString s)) :=
    fun a member => Run.untouched (List.mem_of_mem_take member)
  simp only [if_pos apart]
  exact Option.map_eq_bind.symm

/-- A loop over all ranks puts the characters of the class together, if the text has a run of
the class and not as many as there are occurrences. -/
theorem loop_collects_class (r : Run) (present : row.text? v = some s) :
    (Formula.loop ⟨fun k => .nth v r.token k, none⟩).eval row =
      if 0 < ((Text.ofString s).runs r.contains).length ∧
          ((Text.ofString s).runs r.contains).length < 2147483647 then
        some (String.ofList (s.toList.filter r.contains))
      else none := by
  let runs : List String :=
    ((Text.ofString s).runs r.contains).map (Text.ofString s).stretch
  have whole : String.join runs = String.ofList (s.toList.filter r.contains) := by
    rw [Run.join_stretch_runs, Text.toList_ofString]
  have collected := Loop.run_of_parts (l := ⟨fun k => (Formula.nth v r.token k).eval row, none⟩)
    rfl fun k positive => nth_eval_of_run r present positive
  rw [whole, List.length_map] at collected
  rw [eval]
  exact collected

/-- The slashes of a path, of either slope. -/
theorem loop_collects_slashes :
    (Row.ofSubject "/a\\\\b/c").text? .subject = some "/a\\\\b/c" ∧
      (Text.ofString "/a\\\\b/c").runs Run.slash.contains = [⟨0, 1⟩, ⟨2, 4⟩, ⟨5, 6⟩] ∧
      (Formula.loop ⟨fun k => .nth .subject Run.slash.token k, none⟩).eval
        (.ofSubject "/a\\\\b/c") = some "/\\\\/" := by
  have runs : (Text.ofString "/a\\\\b/c").runs Run.slash.contains =
      [⟨0, 1⟩, ⟨2, 4⟩, ⟨5, 6⟩] := by decide +kernel
  have present : (Row.ofSubject "/a\\\\b/c").text? .subject = some "/a\\\\b/c" := rfl
  refine ⟨present, runs, ?_⟩
  rw [loop_collects_class .slash present, runs]
  decide +kernel

end Formula

end StringTransform
