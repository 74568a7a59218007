/-!
# Rows and their variables

A formula reads the texts of one row: the subject, which has no name, and any number of
named columns. A variable without a text is absent.

## Main results

* `Row.text?_setSubject`, `Row.text?_setColumn` — the text written last is the one found
-/

namespace StringTransform

/-- A text of the row: the subject or a named column. -/
inductive Var where
  | subject
  | column (name : String)
  deriving DecidableEq, Repr

instance : Inhabited Var := ⟨.subject⟩

/-- The variable as text. -/
def Var.label : Var → String
  | .subject => "<subject>"
  | .column name => name

/-- The texts of a row. -/
structure Row where
  subject : Option String
  /-- The columns, the one written last first. -/
  columns : List (String × String)
  deriving Repr

namespace Row

variable {row : Row} {v : Var} {name text : String}

/-- A row without any text. -/
def empty : Row := ⟨none, []⟩

instance : EmptyCollection Row := ⟨empty⟩

/-- A row of a subject and no columns. -/
def ofSubject (text : String) : Row := ⟨some text, []⟩

/-- Writes the subject, in place of the one before. -/
def setSubject (row : Row) (text : String) : Row :=
  { row with subject := some text }

/-- Writes a column, in place of the one of that name before. -/
def setColumn (row : Row) (name text : String) : Row :=
  { row with columns := (name, text) :: row.columns }

/-- The text of a variable, if it has one. -/
def text? (row : Row) : Var → Option String
  | .subject => row.subject
  | .column name => row.columns.lookup name

@[simp] theorem text?_empty : (∅ : Row).text? v = none := by
  cases v <;> rfl

theorem text?_setSubject :
    (row.setSubject text).text? v = if v = .subject then some text else row.text? v := by
  cases v <;> simp [text?, setSubject]

theorem text?_setColumn :
    (row.setColumn name text).text? v = if v = .column name then some text else row.text? v := by
  cases v with
  | subject => simp [text?, setColumn]
  | column other =>
    by_cases h : other = name
    · simp [text?, setColumn, h]
    · simp [text?, setColumn, List.lookup_cons, h, beq_false_of_ne h]

end Row

end StringTransform
