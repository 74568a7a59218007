import StringTransform.Pattern.Basic
import StringTransform.Pattern.Positions

/-!
# Repeating a step

A repetition applies the steps of its body again and again, and prefers to go on rather
than to stop. The indices it reaches are therefore those of a depth-first search, each
index found after everything that is reached from it. The search keeps an explicit stack
of visited indices with the steps from them that are still to be followed, so that a
long text costs memory and not call depth.

A step is followed only if it makes progress, that is, if it leaves less room: an
iteration that consumes nothing leads nowhere. Since room cannot shrink forever, the
search ends whatever the steps are.

## Main results

* `Turn.wellFounded` — no stack can be turned forever
-/

namespace StringTransform

/-- An index reached by the search, with the steps from it still to be followed. -/
structure Visit where
  index : Nat
  ahead : List Nat
  deriving DecidableEq, Repr

variable {room : Nat → Nat}

/-- One turn of the search leaves the visit on top if no step is ahead of it, or else
drops its next step or enters the index of that step, which has to leave less room. -/
inductive Turn (room : Nat → Nat) : List Visit → List Visit → Prop where
  | leave {i rest} : Turn room rest (⟨i, []⟩ :: rest)
  | drop {i j js rest} : Turn room (⟨i, js⟩ :: rest) (⟨i, j :: js⟩ :: rest)
  | enter {i j js ks rest} (less : room j < room i) :
      Turn room (⟨j, ks⟩ :: ⟨i, js⟩ :: rest) (⟨i, j :: js⟩ :: rest)

/-- A visit can be worked off if what lies below it can: the room of the indices entered
from it shrinks, and between two of them the list of its steps does. -/
theorem Turn.acc_cons : ∀ (bound : Nat) (visit : Visit) (rest : List Visit),
    room visit.index < bound → Acc (Turn room) rest → Acc (Turn room) (visit :: rest)
  | bound + 1, ⟨i, js⟩, rest, below, base => by
    induction js with
    | nil => exact .intro _ fun _ turn => by cases turn; exact base
    | cons j js ih =>
      refine .intro _ fun _ turn => ?_
      cases turn with
      | drop => exact ih below
      | enter less =>
        exact acc_cons bound _ _ (Nat.lt_of_lt_of_le less (Nat.le_of_lt_succ below)) (ih below)

/-- No stack can be turned forever. -/
theorem Turn.wellFounded (room : Nat → Nat) : WellFounded (Turn room) :=
  ⟨fun stack => by
    induction stack with
    | nil => exact .intro _ fun _ turn => by cases turn
    | cons visit rest ih => exact acc_cons _ visit rest (Nat.lt_succ_self _) ih⟩

/-- Works off a stack of visits. An index is found when no step is ahead of it any more. -/
def explore (room : Nat → Nat) (step : Nat → List Nat) (stack : List Visit) (found : Positions) :
    Positions :=
  match stack with
  | [] => found
  | ⟨i, []⟩ :: rest => explore room step rest (found.insert i)
  | ⟨i, j :: js⟩ :: rest =>
    if _followed : room j < room i ∧ j ∉ found then
      explore room step (⟨j, step j⟩ :: ⟨i, js⟩ :: rest) found
    else explore room step (⟨i, js⟩ :: rest) found
termination_by (Turn.wellFounded room).wrap stack
decreasing_by
  · exact .leave
  · exact .enter _followed.1
  · exact .drop

/-- Everything that repeated steps from `i` reach, in addition to what was found before.
What an index reaches has been found if the index has. -/
def closure (room : Nat → Nat) (step : Nat → List Nat) (i : Nat) (found : Positions) : Positions :=
  if i ∈ found then found else explore room step [⟨i, step i⟩] found

/-- The indices that a quantified body reaches from `i`, the preferred ones first. -/
def Quantifier.reach (q : Quantifier) (room : Nat → Nat) (step : Nat → List Nat) (i : Nat) :
    List Nat :=
  match q with
  | .zeroOrOne => (((∅ : Positions).insertAll (step i)).insert i).toList
  | .zeroOrMore => (closure room step i ∅).toList
  | .oneOrMore => ((step i).foldl (fun found j => closure room step j found) ∅).toList

end StringTransform
