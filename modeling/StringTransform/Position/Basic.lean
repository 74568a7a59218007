import StringTransform.Position.Occurrence
import StringTransform.Token.Scan

/-!
# Positions in a text

A position names an index of a text, either as a fixed distance from one of its ends or
as a boundary: an index where something that one token matches meets something that
another matches. Among several boundaries an occurrence chooses.

Counted from the start, the candidates are the stops of the left token's matches, and a
candidate qualifies if the right token matches at the start of what follows it. If the
left token is empty, every index is a candidate; then the indices inside a match of the
right token and at its stop are passed over, so that each match counts once. Counted from
the end, the candidates are the starts of the right token's matches, and a candidate
qualifies if the left token matches at the end of what comes before it.
-/

namespace StringTransform

/-- A place in a text. -/
inductive Position where
  /-- A distance from the start, or from the end if negative: `-1` is the end. -/
  | const (k : Int)
  /-- A place where a match of `left` meets a match of `right`. -/
  | boundary (left right : Token) (occurrence : Occurrence)
  deriving BEq, Repr

/-- The candidate that comes after `skip` others among those which `qualifies` accepts
and which lie neither inside one of the spans nor at its stop. The candidates and the
spans are in increasing order, so spans that stop before a candidate are done with. -/
def nthOutside (qualifies : Nat → Bool) (spans : List Span) (skip : Nat) : List Nat → Option Nat
  | [] => none
  | i :: is =>
    let spans := spans.dropWhile (·.stop < i)
    if spans.head?.any (fun span => span.start < i && i ≤ span.stop) || !qualifies i then
      nthOutside qualifies spans skip is
    else
      match skip with
      | 0 => some i
      | skip + 1 => nthOutside qualifies spans skip is

/-- Without spans to avoid, the choice is among all candidates that qualify. -/
theorem nthOutside_nil (qualifies : Nat → Bool) (skip : Nat) (is : List Nat) :
    nthOutside qualifies [] skip is = (is.filter qualifies)[skip]? := by
  induction is generalizing skip with
  | nil => rfl
  | cons i is ih => by_cases h : qualifies i <;> cases skip <;> simp [nthOutside, h, ih]

namespace Position

/-- The boundary of the given rank, counted from the start of the text. -/
def locateFromStart (left right : Token) (rank : Nat) (text : Text) : Option Nat :=
  nthOutside (fun i => right.opens (text.drop i))
    (if left.isEmpty then right.spans text else [])
    (rank - 1) ((left.spans text).map (·.stop))

/-- The boundary of the given rank, counted from the end of the text. -/
def locateFromEnd (left right : Token) (rank : Nat) (text : Text) : Option Nat :=
  nthOutside (fun i => left.closes (text.take i)) []
    (rank - 1) ((right.spansBackward text).map (·.start))

/-- The index that the position names in a text. A fixed distance from the start may
lie behind the end of the text. -/
def locate (p : Position) (text : Text) : Option Nat :=
  match p with
  | const k =>
    if 0 ≤ k then some k.toNat
    else if k.natAbs - 1 ≤ text.size then some (text.size - (k.natAbs - 1))
    else none
  | boundary left right k =>
    if k.fromStart then locateFromStart left right k.rank text
    else locateFromEnd left right k.rank text

/-- The position as text. -/
def label : Position → String
  | const k => "CPos(" ++ toString k ++ ")"
  | boundary left right k =>
    "Pos(" ++ left.label ++ ", " ++ right.label ++ ", " ++ toString k ++ ")"

end Position

end StringTransform
