import StringTransform.Condition
import StringTransform.Formula.Basic

/-!
# Choosing between formulas

A choice is a list of formulas guarded by conditions. The first branch whose condition
holds decides: if its formula fails, so does the choice, and later branches are not
tried. If no condition holds, the choice fails.
-/

namespace StringTransform

/-- Formulas guarded by conditions. -/
structure Choice where
  branches : List (Condition × Formula)

namespace Choice

instance : EmptyCollection Choice := ⟨⟨[]⟩⟩

/-- Adds a branch behind the others. -/
def add (c : Choice) (guard : Condition) (e : Formula) : Choice :=
  ⟨c.branches ++ [(guard, e)]⟩

/-- The text of the first branch whose condition holds. -/
def eval (row : Row) (c : Choice) : Option String :=
  (c.branches.find? (·.1.holds row)).bind (·.2.eval row)

end Choice

end StringTransform
