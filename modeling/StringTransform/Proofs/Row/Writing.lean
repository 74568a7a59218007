import Mathlib.Data.List.Induction
import Mathlib.Logic.Relation
import StringTransform.Row

/-!
# Rows written in steps

A row comes about in steps, each of which writes a text for one variable. All that can be read
off it afterwards is the text that each variable was given last. So two steps in a row can be
exchanged if they write different variables, and a step can be left out if its text is written
over later on, or if the variable that it writes is never read.

## Main definitions

* `Entry` — one step: a text for a variable
* `Row.ofEntries` — the row that steps lead to
* `Entry.last?` — the text that steps give a variable last
* `Entry.Agree` — steps give the variables of a set the same last texts
* `Entry.Edit` — two steps exchanged, or one step left out

## Main results

* `Row.text?_ofEntries` — the text of a variable is the one written last
* `Entry.agree_of_edits` — editing changes no last text of the variables that are read
-/

namespace StringTransform

/-- One step of writing a row: a text for a variable. -/
structure Entry where
  var : Var
  text : String
  deriving DecidableEq, Repr

namespace Entry

variable {P : Var → Prop} {es fs : List Entry} {e : Entry} {v : Var}

/-- The text that the steps give a variable last, if they write it at all. -/
def last? (es : List Entry) (v : Var) : Option String :=
  ((es.filter (·.var = v)).map (·.text)).getLast?

/-- Each variable of the set is given the same text last by both, or is written by neither. -/
def Agree (P : Var → Prop) (es fs : List Entry) : Prop :=
  ∀ v, P v → last? es v = last? fs v

@[simp] theorem last?_nil : last? [] v = none := rfl

theorem last?_append : last? (es ++ fs) v = (last? fs v).or (last? es v) := by
  rw [last?, List.filter_append, List.map_append, List.getLast?_append]
  rfl

theorem last?_singleton : last? [e] v = if e.var = v then some e.text else none := by
  by_cases written : e.var = v <;> simp [last?, written]

/-- A step matters for a variable that no later step writes. -/
theorem last?_cons :
    last? (e :: es) v = (last? es v).or (if e.var = v then some e.text else none) := by
  rw [← List.singleton_append, last?_append, last?_singleton]

end Entry

namespace Row

variable {row : Row} {es : List Entry} {e : Entry} {v : Var}

/-- Writes the text of one step. -/
def enter (row : Row) (e : Entry) : Row :=
  match e.var with
  | .subject => row.setSubject e.text
  | .column name => row.setColumn name e.text

/-- The row that the steps lead to, one after the other, from the empty row on. -/
def ofEntries (es : List Entry) : Row :=
  es.foldl enter ∅

theorem text?_enter : (row.enter e).text? v = if e.var = v then some e.text else row.text? v := by
  obtain ⟨written, text⟩ := e
  cases written with
  | subject => simp only [enter, text?_setSubject, eq_comm]
  | column name => simp only [enter, text?_setColumn, eq_comm]

/-- What is found for a variable is the text that was written last. -/
theorem text?_ofEntries (es : List Entry) (v : Var) :
    (ofEntries es).text? v = Entry.last? es v := by
  induction es using List.reverseRecOn with
  | nil => exact text?_empty
  | append_singleton es e ih =>
    have step : ofEntries (es ++ [e]) = (ofEntries es).enter e := List.foldl_append
    rw [step, text?_enter, ih, Entry.last?_append, Entry.last?_singleton]
    split <;> rfl

end Row

namespace Entry

/-- What may be done to the steps that write a row of which only the variables of a set are
read. -/
inductive Edit (P : Var → Prop) : List Entry → List Entry → Prop where
  /-- Steps that write different variables are exchanged. -/
  | exchange {before after : List Entry} {a b : Entry} (apart : a.var ≠ b.var) :
      Edit P (before ++ a :: b :: after) (before ++ b :: a :: after)
  /-- A step is left out whose text is written over later on. -/
  | overwritten {before between after : List Entry} {a b : Entry} (same : b.var = a.var) :
      Edit P (before ++ a :: (between ++ b :: after)) (before ++ (between ++ b :: after))
  /-- A step is left out that writes a variable which is not read. -/
  | unread {before after : List Entry} {a : Entry} (outside : ¬P a.var) :
      Edit P (before ++ a :: after) (before ++ after)

variable {P : Var → Prop} {es fs : List Entry}

/-- One edit changes no last text of a variable that is read. -/
theorem Edit.agree (edit : Edit P es fs) : Agree P es fs := by
  intro v read
  cases edit with
  | @exchange before after a b apart =>
    -- At most one of the two steps writes the variable.
    by_cases first : a.var = v
    · have second : b.var ≠ v := fun second => apart (first.trans second.symm)
      simp [last?_append, last?_cons, second]
    · simp [last?_append, last?_cons, first]
  | @overwritten before between after a b same =>
    by_cases written : b.var = v
    · -- A later step writes the variable, so there is a last text without the step left out.
      have later : (last? (between ++ b :: after) v).isSome := by
        simp [last?_append, last?_cons, written]
      rw [last?_append, last?_append, last?_cons, Option.or_of_isSome later]
    · have other : a.var ≠ v := same ▸ written
      simp only [last?_append, last?_cons, if_neg other, Option.or_none]
  | @unread before after a outside =>
    have other : a.var ≠ v := by
      rintro rfl
      exact outside read
    simp only [last?_append, last?_cons, if_neg other, Option.or_none]

/-- However often steps are exchanged, left out or put in again, the variables that are read
keep their last texts. -/
theorem agree_of_edits (edits : Relation.EqvGen (Edit P) es fs) : Agree P es fs := by
  induction edits with
  | rel es fs edit => exact edit.agree
  | refl es => exact fun _ _ => rfl
  | symm es fs _ ih => exact fun v read => (ih v read).symm
  | trans es fs gs _ _ first second => exact fun v read => (first v read).trans (second v read)

end Entry

end StringTransform
