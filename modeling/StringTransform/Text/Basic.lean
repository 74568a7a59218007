/-!
# Texts

A text is a stretch of an array of characters. Cutting a text moves the ends of the
stretch and copies nothing, so that a test on what follows an index, or on what comes
before it, costs no more than the test itself. Indices count characters from the start
of the stretch.

## Main definitions

* `Text` — a stretch of characters
* `Text.get?` — the character at an index
* `Text.drop`, `Text.take` — what follows an index, and what comes before it
* `Text.ofString`, `Text.toList`, `Text.toString` — conversions

## Main results

* `Text.get?_eq_getElem?` — a text is read as the list of its characters
* `Text.toList_drop`, `Text.toList_take`, `Text.toList_ofString` — cutting and conversion
  on the list of characters
-/

namespace StringTransform

/-- The characters of an array from `start` up to but not including `stop`. -/
structure Text where
  chars : Array Char
  start : Nat
  stop : Nat
  start_le_stop : start ≤ stop
  stop_le_size : stop ≤ chars.size

namespace Text

variable {text : Text} {i n : Nat}

/-- The whole of an array. -/
def ofArray (chars : Array Char) : Text :=
  ⟨chars, 0, chars.size, Nat.zero_le _, Nat.le_refl _⟩

/-- The text of the given characters. -/
def ofList (cs : List Char) : Text :=
  ofArray cs.toArray

/-- The characters of a string. -/
def ofString (s : String) : Text :=
  ofList s.toList

/-- The number of characters. -/
def size (text : Text) : Nat :=
  text.stop - text.start

/-- The character at index `i`, if the text reaches that far. -/
def get? (text : Text) (i : Nat) : Option Char :=
  if text.start + i < text.stop then text.chars[text.start + i]? else none

/-- What follows index `n`: nothing if the text ends before it. -/
def drop (text : Text) (n : Nat) : Text :=
  ⟨text.chars, min (text.start + n) text.stop, text.stop, Nat.min_le_right _ _, text.stop_le_size⟩

/-- What comes before index `n`: everything if the text ends before it. -/
def take (text : Text) (n : Nat) : Text :=
  ⟨text.chars, text.start, min (text.start + n) text.stop,
    Nat.le_min.mpr ⟨Nat.le_add_right _ _, text.start_le_stop⟩,
    Nat.le_trans (Nat.min_le_right _ _) text.stop_le_size⟩

/-- The characters of the text in order. -/
def toList (text : Text) : List Char :=
  (text.chars.extract text.start text.stop).toList

/-- The characters of the text as a string. -/
protected def toString (text : Text) : String :=
  String.ofList text.toList

theorem get?_eq_getElem? : text.get? i = text.toList[i]? := by
  have := text.stop_le_size
  simp only [get?, toList, Array.getElem?_toList, Array.getElem?_extract]
  split
  · rw [if_pos (by omega)]
  · rw [if_neg (by omega)]

@[simp] theorem length_toList : text.toList.length = text.size := by
  have := text.stop_le_size
  simp only [toList, size, Array.length_toList, Array.size_extract]
  omega

@[simp] theorem toList_ofArray (chars : Array Char) : (ofArray chars).toList = chars.toList := by
  simp [toList, ofArray]

@[simp] theorem toList_ofList (cs : List Char) : (ofList cs).toList = cs := by
  simp [ofList]

@[simp] theorem toList_ofString (s : String) : (ofString s).toList = s.toList := by
  simp [ofString]

@[simp] theorem size_drop : (text.drop n).size = text.size - n := by
  have := text.start_le_stop
  simp only [size, drop]
  omega

@[simp] theorem size_take : (text.take n).size = min n text.size := by
  have := text.start_le_stop
  simp only [size, take]
  omega

theorem get?_eq_none_iff : text.get? i = none ↔ text.size ≤ i := by
  rw [get?_eq_getElem?, List.getElem?_eq_none_iff, length_toList]

theorem get?_drop : (text.drop n).get? i = text.get? (n + i) := by
  have := text.start_le_stop
  grind [get?, drop]

theorem get?_take : (text.take n).get? i = if i < n then text.get? i else none := by
  grind [get?, take]

@[simp] theorem toList_drop : (text.drop n).toList = text.toList.drop n := by
  apply List.ext_getElem?
  intro i
  rw [List.getElem?_drop, ← get?_eq_getElem?, ← get?_eq_getElem?, get?_drop]

@[simp] theorem toList_take : (text.take n).toList = text.toList.take n := by
  apply List.ext_getElem?
  intro i
  rw [List.getElem?_take, ← get?_eq_getElem?, ← get?_eq_getElem?, get?_take]

end Text

end StringTransform
