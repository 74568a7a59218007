import StringTransform.Pattern.Basic
import StringTransform.Pattern.CodeDigits
import StringTransform.Pattern.Fault

/-!
# Reading character sets

A character set stands in brackets: `[a-z\d]`, or `[^a-z]` for the characters outside it.
A closing bracket in the first place is a member, and so is a hyphen before the closing
bracket. A character, raw or escaped, is held back until the next one shows whether a
hyphen follows; after it and a hyphen, whatever does not close the set has to be the end
of a range.

## Main definitions

* `SetReading` — what has been read of a set
* `SetReading.step` — how the next character extends it
* `SetReading.fault` — what is wrong if the text ends inside it
* `unescape` — the character that an escaped letter stands for
-/

namespace StringTransform

/-- Which part of a character set comes next. A character that may still turn out to
start a range is held back as `lo`. -/
inductive SetMode where
  /-- Nothing after the opening bracket has been read. -/
  | opening
  /-- The first member comes next, so that a closing bracket is a member. -/
  | first
  /-- A member or the closing bracket comes next. -/
  | item
  /-- The character `lo` has been read. -/
  | held (lo : Char)
  /-- The character `lo` and a hyphen have been read. -/
  | dashed (lo : Char)
  /-- The backslash at `start` has been read, after `lo` and a hyphen if there is a `lo`. -/
  | escape (lo : Option Char) (start : Nat)
  /-- Some digits of the escape at `start` have been read. -/
  | code (lo : Option Char) (start : Nat) (digits : CodeDigits)
  deriving DecidableEq, Repr

/-- A character set whose closing bracket has not been read. -/
structure SetReading where
  /-- The offset of its opening bracket. -/
  start : Nat
  negated : Bool
  /-- The members read so far, newest first. -/
  items : List Item
  mode : SetMode
  deriving DecidableEq, Repr

/-- A letter that, after a backslash, stands for a control character. -/
def unescape : Char → Char
  | 'n' => '\n'
  | 't' => '\t'
  | 'r' => '\r'
  | c => c

namespace SetReading

/-- Only the opening bracket, which stands at `start`, has been read. -/
def opened (start : Nat) : SetReading := ⟨start, false, [], .opening⟩

/-- Adds a member, after which another member or the closing bracket may come. -/
def push (set : SetReading) (item : Item) : SetReading :=
  { set with items := item :: set.items, mode := .item }

/-- The test that the set denotes when it is closed. -/
def test (set : SetReading) : CharTest :=
  .set set.negated set.items.reverse

/-- Starts a member with a character that is not taken as the closing bracket. -/
def startItem (set : SetReading) (offset : Nat) (c : Char) : SetReading :=
  if c = '\\' then { set with mode := .escape none offset }
  else { set with mode := .held c }

/-- Takes a character that is complete in itself: it is held back in case it starts a
range, or it ends the range started by `lo`. -/
def takeChar (set : SetReading) (lo : Option Char) (c : Char) : Except PatternFault SetReading :=
  match lo with
  | none => .ok { set with mode := .held c }
  | some lo => if lo ≤ c then .ok (set.push (.range lo c)) else .error (.invalidRange lo c)

/-- Takes an escape that stands for a kind of characters, which cannot end a range. -/
def takeKind (set : SetReading) (lo : Option Char) (item : Item) :
    Except PatternFault SetReading :=
  match lo with
  | none => .ok (set.push item)
  | some lo => .error (.invalidRange lo '\\')

/-- Takes the character after a backslash. -/
def takeEscape (set : SetReading) (lo : Option Char) (start : Nat) (c : Char) :
    Except PatternFault SetReading :=
  match c with
  | 'd' => set.takeKind lo .digit
  | 'w' => set.takeKind lo .word
  | 's' => set.takeKind lo .space
  | 'u' => .ok { set with mode := .code lo start .empty }
  | c => set.takeChar lo (unescape c)

/-- Takes a digit of a code-point escape. -/
def takeDigit (set : SetReading) (lo : Option Char) (start : Nat) (digits : CodeDigits)
    (c : Char) : Except PatternFault SetReading :=
  match digits.extend? c with
  | none => .error (.invalidUnicodeEscape start)
  | some digits =>
    if digits.count < 4 then .ok { set with mode := .code lo start digits }
    else match digits.char? with
      | none => .error (.invalidUnicodeEscape start)
      | some c => set.takeChar lo c

/-- Reads the next character, which stands at `offset`. The closing bracket completes
the set. -/
def step (set : SetReading) (offset : Nat) (c : Char) :
    Except PatternFault (SetReading ⊕ CharTest) :=
  match set.mode with
  | .opening =>
    if c = '^' then .ok (.inl { set with negated := true, mode := .first })
    else .ok (.inl (set.startItem offset c))
  | .first => .ok (.inl (set.startItem offset c))
  | .item =>
    if c = ']' then .ok (.inr set.test) else .ok (.inl (set.startItem offset c))
  | .held lo =>
    if c = '-' then .ok (.inl { set with mode := .dashed lo })
    else if c = ']' then .ok (.inr (set.push (.char lo)).test)
    else .ok (.inl ((set.push (.char lo)).startItem offset c))
  | .dashed lo =>
    if c = ']' then .ok (.inr ((set.push (.char lo)).push (.char '-')).test)
    else if c = '\\' then .ok (.inl { set with mode := .escape (some lo) offset })
    else (set.takeChar (some lo) c).map .inl
  | .escape lo start => (set.takeEscape lo start c).map .inl
  | .code lo start digits => (set.takeDigit lo start digits c).map .inl

/-- What is wrong if the text ends inside the set. -/
def fault (set : SetReading) : PatternFault :=
  match set.mode with
  | .escape _ _ => .danglingEscape
  | .code _ start _ => .invalidUnicodeEscape start
  | _ => .unclosedSet set.start

end SetReading

end StringTransform
