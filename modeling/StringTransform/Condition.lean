import StringTransform.Row
import StringTransform.Token.Scan

/-!
# Conditions on a row

A condition asks how often tokens match in the texts of a row, and combines the answers.
A text that is absent matches nothing, however few matches are asked for.

## Main definitions

* `Occurs` — a token matches a variable's text at least so many times
* `Condition` — combinations of these
* `Condition.holds` — whether a row satisfies a condition
* `Condition.dual` — the condition that asks for the opposite throughout
-/

namespace StringTransform

/-- The token matches the text of the variable at least `atLeast` times. -/
structure Occurs where
  var : Var
  token : Token
  atLeast : Nat := 1
  deriving BEq, Repr

/-- Whether the row has that many matches. An absent text has not even none. -/
def Occurs.holds (row : Row) (o : Occurs) : Bool :=
  match row.text? o.var with
  | some s => o.atLeast ≤ o.token.count (.ofString s)
  | none => false

/-- A condition on a row. -/
inductive Condition where
  | occurs (o : Occurs)
  | lacks (o : Occurs)
  /-- Every member holds. -/
  | all (members : List Condition)
  /-- Some member holds. -/
  | any (members : List Condition)
  deriving Repr

namespace Condition

mutual

/-- Whether the row satisfies the condition. -/
def holds (row : Row) : Condition → Bool
  | occurs o => o.holds row
  | lacks o => !o.holds row
  | all cs => allHold row cs
  | any cs => anyHolds row cs

/-- Whether the row satisfies all conditions of a list. -/
def allHold (row : Row) : List Condition → Bool
  | [] => true
  | c :: cs => holds row c && allHold row cs

/-- Whether the row satisfies some condition of a list. -/
def anyHolds (row : Row) : List Condition → Bool
  | [] => false
  | c :: cs => holds row c || anyHolds row cs

end

mutual

/-- Whether two conditions are the same, their tokens compared by text. -/
def same : Condition → Condition → Bool
  | occurs o, occurs p => o == p
  | lacks o, lacks p => o == p
  | all cs, all ds => sameAll cs ds
  | any cs, any ds => sameAll cs ds
  | _, _ => false

/-- Whether two lists hold the same conditions in the same order. -/
def sameAll : List Condition → List Condition → Bool
  | [], [] => true
  | c :: cs, d :: ds => same c d && sameAll cs ds
  | _, _ => false

end

instance : BEq Condition := ⟨same⟩

mutual

/-- The condition with every question and every combination exchanged for its opposite. -/
def dual : Condition → Condition
  | occurs o => lacks o
  | lacks o => occurs o
  | all cs => any (dualAll cs)
  | any cs => all (dualAll cs)

/-- The duals of the conditions of a list. -/
def dualAll : List Condition → List Condition
  | [] => []
  | c :: cs => dual c :: dualAll cs

end

/-- To prove something of every condition, prove it of the questions, and of each combination
from its members. -/
theorem induct {motive : Condition → Prop}
    (occurs : ∀ o, motive (.occurs o))
    (lacks : ∀ o, motive (.lacks o))
    (all : ∀ cs, (∀ c ∈ cs, motive c) → motive (.all cs))
    (any : ∀ cs, (∀ c ∈ cs, motive c) → motive (.any cs)) (c : Condition) : motive c :=
  @Condition.rec motive (fun cs => ∀ c ∈ cs, motive c) occurs lacks all any
    (List.forall_mem_nil motive)
    (fun _ _ first others => List.forall_mem_cons.mpr ⟨first, others⟩) c

theorem allHold_eq_all (row : Row) (cs : List Condition) :
    allHold row cs = (cs.map (holds row)).all id := by
  induction cs with
  | nil => rfl
  | cons c cs ih => simp [allHold, ih]

theorem anyHolds_eq_any (row : Row) (cs : List Condition) :
    anyHolds row cs = (cs.map (holds row)).any id := by
  induction cs with
  | nil => rfl
  | cons c cs ih => simp [anyHolds, ih]

theorem dualAll_eq_map (cs : List Condition) : dualAll cs = cs.map dual := by
  induction cs with
  | nil => rfl
  | cons c cs ih => simp [dualAll, ih]

end Condition

end StringTransform
