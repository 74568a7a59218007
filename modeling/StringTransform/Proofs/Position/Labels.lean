import StringTransform.Position.Basic
import StringTransform.Proofs.Text.Quoting

/-!
# Labels of positions

The label of a position names the kind of the position first. Behind that stand a number, or
the texts of two tokens in quotes and a number. The quoted texts tell where they end, whatever
characters they are made of, so the label can be taken apart in one way only. Two positions
have the same label exactly if they are the same position, tokens being the same if their texts
are.

## Main results

* `Token.label_append_inj` — the label of a token tells the token's text, and where it ends
* `Position.label_eq_iff` — the label of a position tells the position
-/

namespace StringTransform

/-! ### Numbers -/

/-- The decimal digits of a number tell the number. -/
theorem repr_inj {m n : Nat} (same : m.repr = n.repr) : m = n := by
  have digits : Nat.toDigits 10 m = Nat.toDigits 10 n := by
    rw [← Nat.toList_repr, ← Nat.toList_repr, same]
  rw [← Nat.ofDigitChars_ten_toDigits (n := m), digits, Nat.ofDigitChars_ten_toDigits]

/-- No number without a sign starts with one. -/
theorem minus_append_ne_repr {s : String} {n : Nat} : "-" ++ s ≠ n.repr := by
  intro same
  have sign : '-' ∈ Nat.toDigits 10 n := by
    rw [← Nat.toList_repr, ← same]
    simp
  exact absurd (Nat.isDigit_of_mem_toDigits (by decide) (by decide) sign) (by decide)

/-- A signed number as text tells the number. -/
theorem toString_int_inj {m n : Int} (same : toString m = toString n) : m = n := by
  rw [Int.toString_eq_repr, Int.toString_eq_repr, Int.repr_eq_if, Int.repr_eq_if] at same
  -- Either both numbers are negative or neither is, since only the negative ones have a sign.
  split at same <;> split at same
  · have digits := repr_inj same
    omega
  · exact absurd same.symm minus_append_ne_repr
  · exact absurd same minus_append_ne_repr
  · have digits := repr_inj ((String.append_right_inj "-").mp same)
    omega

/-! ### Labels -/

/-- The label of a token tells the token's text, and where the label ends. -/
theorem Token.label_append_inj {s t : Token} {rest rest' : List Char}
    (same : s.label.toList ++ rest = t.label.toList ++ rest') :
    s.source = t.source ∧ rest = rest' := by
  have quoted : (quote s.source).toList ++ (')' :: rest) =
      (quote t.source).toList ++ (')' :: rest') := by
    simpa [label] using same
  obtain ⟨sources, behind⟩ := quote_append_inj quoted
  exact ⟨sources, (List.cons.inj behind).2⟩

/-- Occurrences are shown as numbers, which tell the occurrence. -/
theorem Occurrence.toString_inj {k m : Occurrence} (same : toString k = toString m) : k = m :=
  eq_of_count_eq (toString_int_inj same)

namespace Position

variable {k m : Int} {l r l' r' : Token} {o o' : Occurrence}

theorem label_const_inj (same : (const k).label = (const m).label) : k = m := by
  have number : toString k = toString m := by simpa [label] using same
  exact toString_int_inj number

theorem label_const_ne_boundary : (const k).label ≠ (boundary l r o).label := by
  intro same
  -- The names of the two kinds start with different letters.
  have first := congrArg (·.toList.head?) same
  simp [label] at first

theorem label_boundary_inj (same : (boundary l r o).label = (boundary l' r' o').label) :
    l.source = l'.source ∧ r.source = r'.source ∧ o = o' := by
  -- One token's label after the other is taken off, with all that follows it left over.
  have left : l.label.toList ++ (", " ++ r.label ++ ", " ++ toString o ++ ")").toList =
      l'.label.toList ++ (", " ++ r'.label ++ ", " ++ toString o' ++ ")").toList := by
    simpa [label] using congrArg String.toList same
  obtain ⟨lefts, behind⟩ := Token.label_append_inj left
  have right : r.label.toList ++ (", " ++ toString o ++ ")").toList =
      r'.label.toList ++ (", " ++ toString o' ++ ")").toList := by
    simpa using behind
  obtain ⟨rights, behind⟩ := Token.label_append_inj right
  have number : (toString o).toList = (toString o').toList := by simpa using behind
  exact ⟨lefts, rights, Occurrence.toString_inj (String.toList_inj.mp number)⟩

/-- Two positions have the same label exactly if they are the same position. -/
theorem label_eq_iff (p q : Position) : p.label = q.label ↔ (p == q) = true := by
  cases p with
  | const k =>
    cases q with
    | const m =>
      have same : (const k == const m) = (k == m) := rfl
      rw [same, beq_iff_eq]
      exact ⟨label_const_inj, congrArg fun k => (const k).label⟩
    | boundary l r o =>
      have differ : (const k == boundary l r o) = false := rfl
      rw [differ]
      exact iff_of_false label_const_ne_boundary Bool.false_ne_true
  | boundary l r o =>
    cases q with
    | const m =>
      have differ : (boundary l r o == const m) = false := rfl
      rw [differ]
      exact iff_of_false label_const_ne_boundary.symm Bool.false_ne_true
    | boundary l' r' o' =>
      have same : (boundary l r o == boundary l' r' o') = (l == l' && (r == r' && o == o')) := rfl
      rw [same, Bool.and_eq_true, Bool.and_eq_true, Token.beq_iff, Token.beq_iff, beq_iff_eq]
      constructor
      · exact label_boundary_inj
      · rintro ⟨lefts, rights, rfl⟩
        rw [label, label, Token.label, Token.label, Token.label, Token.label, lefts, rights]

end Position

end StringTransform
