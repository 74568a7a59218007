import StringTransform.Token.Basic

/-!
# Scanning a text for a token

A scan walks along a text and takes at each index the preferred match there, if there is
one; it resumes where that match ended, so that matches never overlap. After a match of
the empty stretch it moves on by one character. Scanning from right to left takes at
each index the preferred match that ends there.

## Main definitions

* `Span` — where a match starts and where it stops
* `Token.spans`, `Token.spansBackward` — the matches in either direction
* `Token.count` — the number of matches
* `Token.opens`, `Token.closes` — whether a match stands at the start or at the end

## Main results

* `Token.spansFrom_eq`, `Token.spansUpTo_eq` — what the scans find from an index on
-/

namespace StringTransform

/-- Where a match starts and where it stops. -/
structure Span where
  start : Nat
  stop : Nat
  deriving DecidableEq, Repr

namespace Span

/-- The number of characters of the match. -/
def length (span : Span) : Nat :=
  span.stop - span.start

/-- Whether the match has no characters. -/
def isEmpty (span : Span) : Bool :=
  span.start == span.stop

end Span

namespace Token

variable (t : Token) (text : Text)

/-- Adds the matches from index `i` on to those found before, newest first. -/
def scan (i : Nat) (found : List Span) : List Span :=
  if i ≤ text.size then
    match (t.pattern.ends text i).head? with
    | none => scan (i + 1) found
    | some stop => scan (if i < stop then stop else i + 1) (⟨i, stop⟩ :: found)
  else found
termination_by text.size + 1 - i
decreasing_by
  · omega
  · split <;> omega

/-- Adds the matches that end at index `i` or before it to those found before, newest
first. -/
def scanBackward (i : Nat) (found : List Span) : List Span :=
  match (t.pattern.starts text i).head? with
  | none => if i = 0 then found else scanBackward (i - 1) found
  | some start =>
    if start < i then scanBackward start (⟨start, i⟩ :: found)
    else if i = 0 then ⟨start, i⟩ :: found
    else scanBackward (i - 1) (⟨start, i⟩ :: found)
termination_by i

/-- The matches from index `i` on, in increasing order. -/
def spansFrom (i : Nat) : List Span :=
  (t.scan text i []).reverse

/-- The matches that end at index `i` or before it, in decreasing order. -/
def spansUpTo (i : Nat) : List Span :=
  (t.scanBackward text i []).reverse

/-- The matches in a text from left to right. -/
def spans : List Span :=
  t.spansFrom text 0

/-- The matches in a text from right to left. -/
def spansBackward : List Span :=
  t.spansUpTo text text.size

/-- The number of matches in a text. -/
def count : Nat :=
  (t.spans text).length

/-- Whether a match starts where the text does. -/
def opens : Bool :=
  !(t.pattern.ends text 0).isEmpty

/-- Whether a match stops at the end of the text, or before a line feed that ends it. -/
def closes : Bool :=
  !(t.pattern.starts text text.size).isEmpty ||
    (text.get? (text.size - 1) == some '\n' && !(t.pattern.starts text (text.size - 1)).isEmpty)

variable {t : Token} {text : Text}

theorem scan_eq_append (i : Nat) (found : List Span) :
    t.scan text i found = t.scan text i [] ++ found := by
  suffices h : ∀ newer older : List Span,
      t.scan text i (newer ++ older) = t.scan text i newer ++ older from h [] found
  intro newer older
  fun_induction scan t text i newer with
  | case1 i newer inside none ih => rw [scan, if_pos inside, none]; exact ih
  | case2 i newer inside stop some ih => rw [scan, if_pos inside, some]; exact ih
  | case3 i newer outside => rw [scan, if_neg outside]

theorem scanBackward_eq_append (i : Nat) (found : List Span) :
    t.scanBackward text i found = t.scanBackward text i [] ++ found := by
  suffices h : ∀ newer older : List Span,
      t.scanBackward text i (newer ++ older) = t.scanBackward text i newer ++ older from
    h [] found
  intro newer older
  fun_induction scanBackward t text i newer with
  | case1 newer none => rw [scanBackward, none, if_pos rfl]
  | case2 i newer none pos ih => rw [scanBackward, none]; simp only [if_neg pos]; exact ih
  | case3 i newer start some less ih =>
    rw [scanBackward, some]; simp only [if_pos less]; exact ih
  | case4 newer start some less => rw [scanBackward, some]; simp
  | case5 i newer start some less pos ih =>
    rw [scanBackward, some]; simp only [if_neg less, if_neg pos]; exact ih

/-- The scan takes the preferred match at an index, or passes over the index. -/
theorem spansFrom_eq (i : Nat) :
    t.spansFrom text i =
      if i ≤ text.size then
        match (t.pattern.ends text i).head? with
        | none => t.spansFrom text (i + 1)
        | some stop => ⟨i, stop⟩ :: t.spansFrom text (if i < stop then stop else i + 1)
      else [] := by
  unfold spansFrom
  rw [scan]
  split
  · split
    · rfl
    · rw [scan_eq_append, List.reverse_append]; rfl
  · rfl

/-- The backward scan takes the preferred match that ends at an index, or passes over
the index. -/
theorem spansUpTo_eq (i : Nat) :
    t.spansUpTo text i =
      match (t.pattern.starts text i).head? with
      | none => if i = 0 then [] else t.spansUpTo text (i - 1)
      | some start =>
        ⟨start, i⟩ ::
          if start < i then t.spansUpTo text start
          else if i = 0 then [] else t.spansUpTo text (i - 1) := by
  unfold spansUpTo
  rw [scanBackward]
  split
  · split <;> rfl
  · split
    · rw [scanBackward_eq_append, List.reverse_append]; rfl
    · split
      · rfl
      · rw [scanBackward_eq_append, List.reverse_append]; rfl

end Token

end StringTransform
