import StringTransform.Proofs.Strict.Matching
import StringTransform.Token.Scan

/-!
# Strict scanning

A strict scan calls strict matching at every index it stops at and goes on where the match
leads. It has no result if that does not bring it closer to its end, or if it counts down
below zero. It always has one, the spans of the scan, since no match runs backwards.

## Main definitions

* `Span.Within` — a span lies in a text and does not stop before it starts
* `Token.scan?`, `Token.scanBackward?` — strict scanning from an index on
* `Token.opens?`, `Token.closes?` — the tests at the ends of a text, by strict matching

## Main results

* `Token.within_of_mem_spans`, `Token.within_of_mem_spansBackward` — every span lies in
  the text
* `Token.scan?_eq`, `Token.scanBackward?_eq` — strict scanning succeeds
* `Token.opens?_eq`, `Token.closes?_eq` — so do the tests at the ends
-/

namespace StringTransform

namespace Span

/-- The span lies in the text and does not stop before it starts. -/
def Within (text : Text) (span : Span) : Prop :=
  span.start ≤ span.stop ∧ span.stop ≤ text.size

/-- The number of characters of the match, unless it stops before it starts. -/
def length? (span : Span) : Option Nat :=
  sub? span.stop span.start

theorem length?_eq {text : Text} {span : Span} (h : span.Within text) :
    span.length? = some span.length :=
  sub?_eq h.1

end Span

namespace Token

variable {t : Token} {text : Text}

/-- Where a scan goes on after a match from `i` to `stop`. -/
def resumption (i stop : Nat) : Nat :=
  if stop = i then i + 1 else stop

/-- The matches from index `i` on, by strict scanning. -/
def scan? (t : Token) (text : Text) (i : Nat) : Option (List Span) :=
  if i ≤ text.size then do
    let stops ← t.pattern.reach? text .forward i
    match stops.head? with
    | none => scan? t text (i + 1)
    | some stop =>
      if i < resumption i stop then do
        let spans ← scan? t text (resumption i stop)
        some (⟨i, stop⟩ :: spans)
      else none
  else some []
termination_by text.size + 1 - i

/-- The matches that end at index `i` or before it, by strict scanning. -/
def scanBackward? (t : Token) (text : Text) (i : Nat) : Option (List Span) := do
  let starts ← t.pattern.reach? text .backward i
  match starts.head? with
  | none =>
    if i = 0 then some []
    else do
      let j ← sub? i 1
      if j < i then scanBackward? t text j else none
  | some start =>
    if start < i then do
      let spans ← scanBackward? t text start
      some (⟨start, i⟩ :: spans)
    else if i = 0 then some [⟨start, i⟩]
    else do
      let j ← sub? i 1
      if j < i then do
        let spans ← scanBackward? t text j
        some (⟨start, i⟩ :: spans)
      else none
termination_by i

/-- Whether a match starts where the text does, by strict matching. -/
def opens? (t : Token) (text : Text) : Option Bool := do
  let stops ← t.pattern.reach? text .forward 0
  some !stops.isEmpty

/-- The index before a line feed that ends the text. The last character is read, if there
is one. -/
def beforeFinalNewline? (text : Text) : Option (Option Nat) :=
  if 0 < text.size then do
    let last ← sub? text.size 1
    let c ← text.get? last
    some (if c = '\n' then some last else none)
  else some none

/-- Whether a match stops at the end of the text or before a line feed that ends it, by
strict matching. -/
def closes? (t : Token) (text : Text) : Option Bool := do
  let before ← beforeFinalNewline? text
  let starts ← t.pattern.reach? text .backward text.size
  if !starts.isEmpty then some true
  else match before with
    | none => some false
    | some last => do
      let starts ← t.pattern.reach? text .backward last
      some !starts.isEmpty

/-! ### Every span lies in the text -/

theorem covers_of_head? {d : Direction} {p : Pattern} {i j : Nat} (hi : i ≤ text.size)
    (h : (p.reach text d i).head? = some j) : d.Covers text i j :=
  Pattern.covers_of_mem_reach hi (List.mem_of_head? h)

theorem within_of_mem_spansFrom (i : Nat) : ∀ span ∈ t.spansFrom text i, span.Within text := by
  intro span hspan
  rw [spansFrom_eq] at hspan
  split at hspan
  next inside =>
    split at hspan
    next => exact within_of_mem_spansFrom (i + 1) span hspan
    next stop hstop =>
      have ahead : i ≤ stop ∧ stop ≤ text.size := covers_of_head? inside hstop
      rcases List.mem_cons.mp hspan with rfl | hspan
      · exact ahead
      · exact within_of_mem_spansFrom _ span hspan
  next => exact absurd hspan List.not_mem_nil
termination_by text.size + 1 - i
decreasing_by
  · omega
  · split <;> omega

/-- Every span of a text lies in it and does not stop before it starts. -/
theorem within_of_mem_spans : ∀ span ∈ t.spans text, span.Within text :=
  within_of_mem_spansFrom 0

theorem within_of_mem_spansUpTo (i : Nat) (hi : i ≤ text.size) :
    ∀ span ∈ t.spansUpTo text i, span.Within text := by
  intro span hspan
  rw [spansUpTo_eq] at hspan
  split at hspan
  next =>
    split at hspan
    next => exact absurd hspan List.not_mem_nil
    next => exact within_of_mem_spansUpTo (i - 1) (by omega) span hspan
  next start hstart =>
    have ahead : start ≤ i := covers_of_head? hi hstart
    rcases List.mem_cons.mp hspan with rfl | hspan
    · exact ⟨ahead, hi⟩
    · split at hspan
      next less => exact within_of_mem_spansUpTo start (by omega) span hspan
      next =>
        split at hspan
        next => exact absurd hspan List.not_mem_nil
        next => exact within_of_mem_spansUpTo (i - 1) (by omega) span hspan
termination_by i
decreasing_by all_goals omega

/-- Every span found from right to left lies in the text. -/
theorem within_of_mem_spansBackward : ∀ span ∈ t.spansBackward text, span.Within text :=
  within_of_mem_spansUpTo text.size (Nat.le_refl _)

/-! ### Strict scanning succeeds -/

/-- Strict scanning finds the spans of the scan. -/
theorem scan?_eq (i : Nat) : t.scan? text i = some (t.spansFrom text i) := by
  rw [scan?, spansFrom_eq]
  by_cases inside : i ≤ text.size
  · rw [if_pos inside, if_pos inside, t.pattern.reach?_eq inside, Option.bind_eq_bind,
      Option.bind_some]
    change (match (t.pattern.ends text i).head? with | none => _ | some stop => _) = _
    cases hstop : (t.pattern.ends text i).head? with
    | none => exact scan?_eq (i + 1)
    | some stop =>
      have ahead : i ≤ stop ∧ stop ≤ text.size := covers_of_head? inside hstop
      -- A match does not stop before its start, so the scan moves on after it.
      have resume : resumption i stop = if i < stop then stop else i + 1 := by
        unfold resumption
        split <;> split <;> omega
      have onward : i < resumption i stop := by rw [resume]; split <;> omega
      have rest := scan?_eq (resumption i stop)
      simp only [if_pos onward, rest, ← resume, Option.bind_eq_bind, Option.bind_some]
  · rw [if_neg inside, if_neg inside]
termination_by text.size + 1 - i

/-- Strict scanning from right to left finds the spans of the scan. -/
theorem scanBackward?_eq (i : Nat) (hi : i ≤ text.size) :
    t.scanBackward? text i = some (t.spansUpTo text i) := by
  rw [scanBackward?, spansUpTo_eq, t.pattern.reach?_eq hi, Option.bind_eq_bind, Option.bind_some]
  change (match (t.pattern.starts text i).head? with | none => _ | some start => _) = _
  cases hstart : (t.pattern.starts text i).head? with
  | none =>
    by_cases first : i = 0
    · simp only [if_pos first]
    · have before := scanBackward?_eq (i - 1) (by omega)
      simp only [if_neg first, sub?_eq (by omega : 1 ≤ i), Option.bind_eq_bind, Option.bind_some,
        if_pos (by omega : i - 1 < i), before]
  | some start =>
    by_cases less : start < i
    · have before := scanBackward?_eq start (by omega)
      simp only [if_pos less, before, Option.bind_eq_bind, Option.bind_some]
    · by_cases first : i = 0
      · simp only [if_neg less, if_pos first]
      · have before := scanBackward?_eq (i - 1) (by omega)
        simp only [if_neg less, if_neg first, sub?_eq (by omega : 1 ≤ i), Option.bind_eq_bind,
          Option.bind_some, if_pos (by omega : i - 1 < i), before]
termination_by i
decreasing_by all_goals omega

theorem opens?_eq : t.opens? text = some (t.opens text) := by
  rw [opens?, t.pattern.reach?_eq (Nat.zero_le _)]
  rfl

theorem beforeFinalNewline?_eq : beforeFinalNewline? text =
    some (if text.get? (text.size - 1) = some '\n' then some (text.size - 1) else none) := by
  by_cases nonempty : 0 < text.size
  · have inside : text.size - 1 < text.size := by omega
    obtain ⟨c, hc⟩ := Text.exists_get?_of_lt inside
    simp [beforeFinalNewline?, nonempty, sub?_eq (by omega : 1 ≤ text.size), hc]
  · have nothing : text.get? (text.size - 1) = none := Text.get?_eq_none_iff.mpr (by omega)
    simp [beforeFinalNewline?, nonempty, nothing]

theorem closes?_eq : t.closes? text = some (t.closes text) := by
  rw [closes?, beforeFinalNewline?_eq, t.pattern.reach?_eq (Nat.le_refl _), closes]
  change (if !(t.pattern.starts text text.size).isEmpty then some true else _) = _
  cases atEnd : (t.pattern.starts text text.size).isEmpty with
  | false => simp
  | true =>
    by_cases newline : text.get? (text.size - 1) = some '\n'
    · simp [newline, t.pattern.reach?_eq (Nat.sub_le text.size 1), Pattern.starts]
    · simp [newline]

end Token

end StringTransform
