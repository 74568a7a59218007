import StringTransform.Proofs.Extraction.Guards

/-!
# Dual conditions

The dual of a condition asks for the opposite of every question in it, and for some member
where the condition asks for every one. On every row exactly one of the two holds, also where
a text is absent: then a token does not occur in it, however few matches are asked for, and it
is lacking. So a choice between two formulas can be guarded by a condition and its dual, and
one of the two formulas always decides.

## Main results

* `Condition.dual_dual` — taking the dual twice changes nothing
* `Condition.holds_dual` — the dual holds exactly if the condition does not
* `Choice.dual_guards_decide` — a choice guarded by a condition and its dual
-/

namespace StringTransform

namespace Condition

variable {row : Row} {cs : List Condition}

theorem dualAll_dualAll (members : ∀ c ∈ cs, c.dual.dual = c) : dualAll (dualAll cs) = cs := by
  rw [dualAll_eq_map, dualAll_eq_map, List.map_map]
  exact (List.map_congr_left members).trans (List.map_id' cs)

/-- Taking the dual twice changes nothing. -/
theorem dual_dual (c : Condition) : c.dual.dual = c := by
  induction c using induct with
  | occurs o => rfl
  | lacks o => rfl
  | all cs members => rw [dual, dual, dualAll_dualAll members]
  | any cs members => rw [dual, dual, dualAll_dualAll members]

/-- The duals of a list have the opposite truth values. -/
theorem values_dualAll (members : ∀ c ∈ cs, c.dual.holds row = !c.holds row) :
    (dualAll cs).map (holds row) = (cs.map (holds row)).map not := by
  rw [dualAll_eq_map, List.map_map, List.map_map]
  exact List.map_congr_left members

/-- The dual of a condition holds exactly if the condition does not. -/
theorem holds_dual (c : Condition) : c.dual.holds row = !c.holds row := by
  induction c using induct with
  | occurs o => rfl
  | lacks o => exact (Bool.not_not (o.holds row)).symm
  | all cs members =>
    rw [dual, holds, holds, anyHolds_eq_any, allHold_eq_all, values_dualAll members,
      List.any_map, List.not_all_eq_any_not]
    rfl
  | any cs members =>
    rw [dual, holds, holds, allHold_eq_all, anyHolds_eq_any, values_dualAll members,
      List.all_map, List.not_any_eq_all_not]
    rfl

end Condition

/-- The dual of a condition holds exactly if the condition does not. So of two branches guarded
by a condition and by its dual one decides, with whatever its formula gives or fails to give,
and no branch behind them is reached. -/
theorem Choice.dual_guards_decide (c : Condition) (row : Row) :
    (c.dual.holds row = true ↔ ¬c.holds row = true) ∧
      ∀ (e₁ e₂ : Formula) (later : List (Condition × Formula)),
        (Choice.mk ((c, e₁) :: (c.dual, e₂) :: later)).eval row =
          if c.holds row then e₁.eval row else e₂.eval row := by
  have complement : c.dual.holds row = true ↔ ¬c.holds row = true := by
    rw [Condition.holds_dual, Bool.not_eq_true', Bool.not_eq_true]
  refine ⟨complement, ?_⟩
  intro e₁ e₂ later
  by_cases holds : c.holds row = true
  · have none_before : ∀ branch ∈ ([] : List (Condition × Formula)),
        branch.1.holds row = false := List.forall_mem_nil _
    rw [if_pos holds]
    exact Choice.eval_of_first e₁ none_before holds
  · have one_before : ∀ branch ∈ [(c, e₁)], branch.1.holds row = false :=
      List.forall_mem_singleton.mpr (eq_false_of_ne_true holds)
    rw [if_neg holds]
    exact Choice.eval_of_first e₂ one_before (complement.mpr holds)

/-- A column that is absent does not even have no match, and so it lacks that. -/
example :
    (Condition.occurs ⟨.column "v2", .empty, 0⟩).holds ∅ = false ∧
      (Condition.occurs ⟨.column "v2", .empty, 0⟩).dual.holds ∅ = true :=
  ⟨rfl, rfl⟩

end StringTransform
