import StringTransform.Formula.Loop
import StringTransform.Position.Basic
import StringTransform.Row

/-!
# Formulas

A formula makes a text out of the texts of a row, or fails. It cuts stretches out of
them between positions, puts pieces together, and repeats itself over the occurrences.
Failing is all that can go wrong, and it has no causes to tell apart.
-/

namespace StringTransform

/-- A formula over the texts of a row. -/
inductive Formula where
  /-- This very text. -/
  | const (s : String)
  /-- The stretch of a variable's text between two positions. -/
  | slice (v : Var) (start stop : Position)
  /-- The match of a token in a variable's text that the occurrence chooses. -/
  | nth (v : Var) (t : Token) (k : Occurrence)
  | loop (l : Loop Formula)
  /-- The parts one after the other. -/
  | concat (parts : List Formula)
  | fail

/-- The stretch of a text between two positions, which has to start inside the text. -/
def Text.cut (text : Text) (start stop : Position) : Option String :=
  (start.locate text).bind fun i =>
    (stop.locate text).bind fun j =>
      if i < text.size ∧ j ≤ text.size ∧ i ≤ j then some ((text.take j).drop i).toString else none

namespace Formula

/-- The wording of a failed evaluation. -/
def failureMessage : String :=
  "expression could not be resolved against the input"

mutual

/-- The text that the formula makes of a row. The match of a token is what lies between
the boundary where it begins and the boundary where it ends. -/
def eval (row : Row) : Formula → Option String
  | const s => some s
  | slice v start stop => (row.text? v).bind fun s => (Text.ofString s).cut start stop
  | nth v t k =>
    (row.text? v).bind fun s =>
      (Text.ofString s).cut (.boundary .empty t k) (.boundary t .empty k)
  | loop ⟨body, limit⟩ => Loop.run ⟨fun k => eval row (body k), limit⟩
  | concat parts => evalAll row parts
  | fail => none

/-- The texts of all parts one after the other. -/
def evalAll (row : Row) : List Formula → Option String
  | [] => some ""
  | e :: es => (eval row e).bind fun s => (evalAll row es).map (s ++ ·)

end

end Formula

end StringTransform
