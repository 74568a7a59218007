import StringTransform.Proofs.Grammar.Basic

/-!
# Reading code-point escapes by the grammar

The digits of a code-point escape are read one at a time. Those that complete an escape of
which none has been read yet are the four digits that the grammar asks for.

## Main definitions

* `Names` — the digits that complete an escape, behind those read before

## Main results

* `names_empty_iff` — at the start of an escape they are those of the grammar
* `names_cons_iff`, `exists_names_cons_iff` — what the next character may be
* `CodeDigits.extend?_bytes` — each digit is one byte
-/

namespace StringTransform

/-! ### The bytes of a digit -/

theorem toNat_le_of_hexValue? {c : Char} {d : Nat} (digit : hexValue? c = some d) :
    c.toNat ≤ 'f'.toNat := by
  unfold hexValue? at digit
  simp only [Char.isDigit, Bool.and_eq_true, decide_eq_true_eq, Char.le_def] at digit
  split at digit
  · next bounds => exact Nat.le_trans bounds.2 (by decide)
  · split at digit
    · next bounds => exact bounds.2
    · split at digit
      · next bounds => exact Nat.le_trans bounds.2 (by decide)
      · cases digit

/-- A digit of an escape is one byte, and so is the plus sign that may stand for the first. -/
theorem CodeDigits.extend?_bytes {digits more : CodeDigits} {c : Char}
    (next : digits.extend? c = some more) : more.count = digits.count + 1 ∧ c.utf8Size = 1 := by
  unfold extend? at next
  split at next
  · next plus =>
    simp only [Bool.and_eq_true, beq_iff_eq] at plus
    obtain ⟨noDigit, rfl⟩ := plus
    cases next
    exact ⟨by rw [noDigit], rfl⟩
  · obtain ⟨d, digit, rfl⟩ := Option.map_eq_some_iff.mp next
    exact ⟨rfl, Char.utf8Size_eq_one_iff.mpr
      (Nat.le_trans (toNat_le_of_hexValue? digit) (by decide))⟩

end StringTransform

namespace StringTransform.Grammar

/-! ### The digits that complete an escape -/

/-- The digits `cs`, behind those read before, are the last ones and name a character. -/
inductive Names : CodeDigits → List Char → Char → Prop where
  | last {digits more : CodeDigits} {c x : Char} (next : digits.extend? c = some more)
      (complete : ¬more.count < 4) (names : more.char? = some x) : Names digits [c] x
  | more {digits more : CodeDigits} {c x : Char} {cs : List Char}
      (next : digits.extend? c = some more) (incomplete : more.count < 4)
      (others : Names more cs x) : Names digits (c :: cs) x

variable {digits : CodeDigits} {c x : Char} {cs : List Char}

theorem names_cons_iff :
    Names digits (c :: cs) x ↔ ∃ more, digits.extend? c = some more ∧
      if more.count < 4 then Names more cs x else cs = [] ∧ more.char? = some x := by
  constructor
  · intro names
    cases names with
    | @last _ more _ _ next complete names =>
      refine ⟨more, next, ?_⟩
      rw [if_neg complete]
      exact ⟨rfl, names⟩
    | @more _ more _ _ _ next incomplete others =>
      refine ⟨more, next, ?_⟩
      rw [if_pos incomplete]
      exact others
  · rintro ⟨more, next, rest⟩
    split at rest
    · next incomplete => exact .more next incomplete rest
    · next complete =>
      obtain ⟨rfl, names⟩ := rest
      exact .last next complete names

theorem not_names_nil : ¬Names digits [] x := by
  intro names
  cases names

theorem extend?_empty : CodeDigits.empty.extend? c = (leadValue? c).map fun w => ⟨1, w⟩ := by
  by_cases plus : c = '+'
  · subst plus
    rfl
  · simp [CodeDigits.extend?, CodeDigits.empty, leadValue?, plus]

/-- A digit that is not the first one is a hexadecimal digit. -/
theorem names_succ_cons_iff {n value : Nat} :
    Names ⟨n + 1, value⟩ (c :: cs) x ↔ ∃ d, hexValue? c = some d ∧
      if n + 2 < 4 then Names ⟨n + 2, 16 * value + d⟩ cs x
      else cs = [] ∧ CodeDigits.char? ⟨n + 2, 16 * value + d⟩ = some x := by
  have next : CodeDigits.extend? ⟨n + 1, value⟩ c =
      (hexValue? c).map fun d => ⟨n + 2, 16 * value + d⟩ := by
    simp [CodeDigits.extend?]
  rw [names_cons_iff, next]
  cases hexValue? c <;> simp

/-- A digit that is neither the first one nor the last one. -/
theorem Names.inner {n value : Nat} (names : Names ⟨n + 1, value⟩ cs x) (early : n + 2 < 4) :
    ∃ c d ds, cs = c :: ds ∧ hexValue? c = some d ∧ Names ⟨n + 2, 16 * value + d⟩ ds x := by
  cases cs with
  | nil => exact absurd names not_names_nil
  | cons c ds =>
    obtain ⟨d, digit, rest⟩ := names_succ_cons_iff.mp names
    rw [if_pos early] at rest
    exact ⟨c, d, ds, rfl, digit, rest⟩

theorem char?_eq_some_iff :
    digits.char? = some x ↔ digits.value.isValidChar ∧ Char.ofNat digits.value = x := by
  simp [CodeDigits.char?]

/-- The first character of a text is the next digit of an escape that the text starts with. -/
theorem exists_names_cons_iff {P : Char → List Char → Prop} :
    (∃ ds es x, c :: cs = ds ++ es ∧ Names digits ds x ∧ P x es) ↔
      ∃ more, digits.extend? c = some more ∧
        if more.count < 4 then ∃ ds es x, cs = ds ++ es ∧ Names more ds x ∧ P x es
        else ∃ x, more.char? = some x ∧ P x cs := by
  constructor
  · rintro ⟨ds, es, x, whole, names, after⟩
    cases ds with
    | nil => exact absurd names not_names_nil
    | cons d ds =>
      obtain ⟨rfl, rfl⟩ := List.cons.inj whole
      obtain ⟨more, next, rest⟩ := names_cons_iff.mp names
      refine ⟨more, next, ?_⟩
      by_cases incomplete : more.count < 4
      · rw [if_pos incomplete] at rest ⊢
        exact ⟨ds, es, x, rfl, rest, after⟩
      · rw [if_neg incomplete] at rest ⊢
        obtain ⟨rfl, char⟩ := rest
        exact ⟨x, char, after⟩
  · rintro ⟨more, next, rest⟩
    split at rest
    · next incomplete =>
      obtain ⟨ds, es, x, rfl, names, after⟩ := rest
      exact ⟨c :: ds, es, x, rfl, .more next incomplete names, after⟩
    · next complete =>
      obtain ⟨x, char, after⟩ := rest
      exact ⟨[c], cs, x, rfl, .last next complete char, after⟩

/-- The digits that complete an escape of which no digit has been read are those that the
grammar asks for. -/
theorem names_empty_iff : Names .empty cs x ↔ CodePoint cs x := by
  constructor
  · intro names
    cases cs with
    | nil => exact absurd names not_names_nil
    | cons a cs =>
      obtain ⟨more, next, names⟩ := names_cons_iff.mp names
      rw [extend?_empty] at next
      obtain ⟨w, first, rfl⟩ := Option.map_eq_some_iff.mp next
      obtain ⟨b, y, cs, rfl, second, names⟩ := Names.inner (n := 0) names (by decide)
      obtain ⟨c, z, cs, rfl, third, names⟩ := names.inner (by decide)
      cases cs with
      | nil => exact absurd names not_names_nil
      | cons d cs =>
        obtain ⟨v, fourth, rfl, char⟩ := names_succ_cons_iff.mp names
        obtain ⟨scalar, rfl⟩ := char?_eq_some_iff.mp char
        exact .digits first second third fourth scalar
  · rintro ⟨first, second, third, fourth, scalar⟩
    rw [names_cons_iff, extend?_empty, first]
    refine ⟨_, rfl, ?_⟩
    simp [names_succ_cons_iff, second, third, fourth, char?_eq_some_iff, scalar]

end StringTransform.Grammar
