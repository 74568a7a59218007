import StringTransform.Position.Occurrence

/-!
# Loops over occurrences

A loop has a body for each occurrence 1, 2, and so on. It runs through them for as long
as the body succeeds and puts the results together. The body has to succeed at least
once, and it has to fail at last: a loop whose body succeeds more often than its limit
allows, or for every occurrence there is, fails as a whole.
-/

namespace StringTransform

/-- A body for each occurrence, and the number of times it may succeed, if limited. -/
structure Loop (α : Type) where
  body : Occurrence → α
  limit : Option Nat := none

namespace Loop

/-- The loop with a cap on the number of times its body may succeed. -/
def limitedTo {α : Type} (l : Loop α) (limit : Nat) : Loop α :=
  { l with limit := some limit }

/-- The loop as text, which tells the limit and leaves out the body. -/
def label {α : Type} (l : Loop α) : String :=
  "Loop \x7b limit: " ++
    (match l.limit with
      | none => "None"
      | some n => "Some(" ++ toString n ++ ")") ++
    ", .. \x7d"

/-- Goes on with a loop whose body has succeeded up to occurrence `k`, with results that
make up `done`. -/
def resume (l : Loop (Option String)) (k : Occurrence) (done : String) : Option String :=
  match _step : k.next? with
  | none => none
  | some next =>
    match l.body next with
    | none => some done
    | some part =>
      if l.limit.any (· < next.rank) then none else resume l next (done ++ part)
termination_by 2147483648 - k.rank
decreasing_by
  have := k.rank_of_next? _step
  have := next.rank_le
  omega

/-- The results of the body from the first occurrence on, put together, until the body
fails. -/
def run (l : Loop (Option String)) : Option String :=
  (l.body .first).bind (l.resume .first)

end Loop

end StringTransform
