import Mathlib.Tactic.SplitIfs
import StringTransform.Text.Quoted

/-!
# Reading quoted text back

Between the quotes a character is written in one of three forms: as itself, as a letter behind
a backslash, or as the digits of its code point in braces. The first characters tell the forms
apart, and each form tells its character and where it ends. No form starts with a double quote,
so the first one that is met between two forms ends the text. Therefore a quoted text cannot be
mistaken for another one, whatever follows it.

Which characters are hidden, and so written by their code point, does not matter to this.

## Main definitions

* `Quoted.named` — the character that a letter behind a backslash stands for
* `Quoted.Form` — the forms in which a character is written

## Main results

* `Quoted.toDigits_inj` — hexadecimal digits tell the number that they stand for
* `Quoted.Form.append_inj` — a form tells its character, and where it ends
* `quote_append_inj` — a quoted text tells what it quotes, and where it ends
-/

namespace StringTransform

namespace Quoted

variable {c d : Char} {cs ds rest rest' : List Char}

/-! ### Digits -/

/-- The last digit of a number, behind the digits of the number without it. -/
theorem toDigits_eq_append (n : Nat) :
    Nat.toDigits 16 n =
      (if n < 16 then [] else Nat.toDigits 16 (n / 16)) ++ [Nat.digitChar (n % 16)] := by
  rw [Nat.toDigits_eq_if (by decide)]
  split
  next small => rw [Nat.mod_eq_of_lt small, List.nil_append]
  next => rfl

theorem digitChar_inj : ∀ m < 16, ∀ n < 16, Nat.digitChar m = Nat.digitChar n → m = n := by
  decide

/-- Hexadecimal digits tell the number that they stand for. -/
theorem toDigits_inj {m n : Nat} (same : Nat.toDigits 16 m = Nat.toDigits 16 n) : m = n := by
  -- The last digits are the same, and so are the numbers in front of them.
  induction m using Nat.strongRecOn generalizing n with
  | _ m ih =>
    rw [toDigits_eq_append m, toDigits_eq_append n] at same
    obtain ⟨front, last⟩ := List.append_singleton_inj.mp same
    have lowest : m % 16 = n % 16 :=
      digitChar_inj _ (Nat.mod_lt _ (by decide)) _ (Nat.mod_lt _ (by decide)) last
    have higher : m / 16 = n / 16 := by
      split at front <;> split at front
      · omega
      · exact absurd front.symm Nat.toDigits_ne_nil
      · exact absurd front Nat.toDigits_ne_nil
      · exact ih (m / 16) (by omega) front
    omega

theorem exists_of_mem_toDigits {n : Nat} (h : c ∈ Nat.toDigits 16 n) :
    ∃ d < 16, c = Nat.digitChar d := by
  induction n using Nat.strongRecOn with
  | _ n ih =>
    rw [toDigits_eq_append, List.mem_append, List.mem_singleton] at h
    rcases h with front | last
    · split at front
      · exact absurd front List.not_mem_nil
      · exact ih (n / 16) (by omega) front
    · exact ⟨n % 16, Nat.mod_lt _ (by decide), last⟩

/-- A closing brace is no digit. -/
theorem notMem_codePoint : '\x7d' ∉ codePoint c := by
  intro h
  obtain ⟨d, small, digit⟩ := exists_of_mem_toDigits h
  exact (by decide : ∀ d < 16, '\x7d' ≠ Nat.digitChar d) d small digit

theorem codePoint_inj (same : codePoint c = codePoint d) : c = d :=
  Char.toNat_inj.mp (toDigits_inj same)

/-! ### Characters -/

/-- Before the first of its occurrences, a character tells the parts of a text. -/
theorem append_cons_inj (hcs : c ∉ cs) (hds : c ∉ ds) (same : cs ++ c :: rest = ds ++ c :: rest') :
    cs = ds ∧ rest = rest' := by
  induction cs generalizing ds with
  | nil =>
    cases ds with
    | nil => exact ⟨rfl, (List.cons.inj same).2⟩
    | cons d ds => exact absurd (List.cons.inj same).1 (List.ne_of_not_mem_cons hds)
  | cons a cs ih =>
    cases ds with
    | nil => exact absurd (List.cons.inj same).1.symm (List.ne_of_not_mem_cons hcs)
    | cons d ds =>
      obtain ⟨rfl, others⟩ := List.cons.inj same
      obtain ⟨rfl, behind⟩ :=
        ih (List.not_mem_of_not_mem_cons hcs) (List.not_mem_of_not_mem_cons hds) others
      exact ⟨rfl, behind⟩

/-- The character that a letter behind a backslash stands for. -/
def named (letter : Char) : Char :=
  if letter = 't' then '\t'
  else if letter = 'r' then '\r'
  else if letter = 'n' then '\n'
  else if letter = '0' then '\x00'
  else letter

/-- The forms in which a character is written between quotes. -/
inductive Form : Char → List Char → Prop where
  | plain {c : Char} (noQuote : c ≠ '"') (noBackslash : c ≠ '\\') : Form c [c]
  | letter (l : Char) (noCode : l ≠ 'u') : Form (named l) ['\\', l]
  | code {c : Char} : Form c (['\\', 'u', '\x7b'] ++ codePoint c ++ ['\x7d'])

/-- Every character is written in one of the forms. -/
theorem form_encodeChar (c : Char) : Form c (encodeChar c) := by
  unfold encodeChar
  split_ifs with self tab carriage line nul hidden
  · rcases self with rfl | rfl
    · exact .letter '"' (by decide)
    · exact .letter '\\' (by decide)
  · subst tab
    exact .letter 't' (by decide)
  · subst carriage
    exact .letter 'r' (by decide)
  · subst line
    exact .letter 'n' (by decide)
  · subst nul
    exact .letter '0' (by decide)
  · exact .code
  · exact .plain (fun quote => self (.inl quote)) fun backslash => self (.inr backslash)

namespace Form

/-- No form starts with a double quote. -/
theorem head_ne_quote (form : Form c cs) : cs ++ rest ≠ '"' :: rest' := by
  cases form with
  | plain noQuote _ => exact fun same => noQuote (List.cons.inj same).1
  | letter l _ => exact fun same => absurd (List.cons.inj same).1 (by decide)
  | code => exact fun same => absurd (List.cons.inj same).1 (by decide)

/-- A form tells its character, and where it ends. -/
theorem append_inj (hc : Form c cs) (hd : Form d ds) (same : cs ++ rest = ds ++ rest') :
    c = d ∧ rest = rest' := by
  -- Different forms differ in their first character or in the second one.
  cases hc with
  | plain _ noBackslash =>
    cases hd with
    | plain => exact List.cons.inj same
    | letter => exact absurd (List.cons.inj same).1 noBackslash
    | code => exact absurd (List.cons.inj same).1 noBackslash
  | letter l noCode =>
    cases hd with
    | plain _ noBackslash => exact absurd (List.cons.inj same).1.symm noBackslash
    | letter m _ =>
      obtain ⟨letters, behind⟩ := List.cons.inj (List.cons.inj same).2
      exact ⟨congrArg named letters, behind⟩
    | code => exact absurd (List.cons.inj (List.cons.inj same).2).1 noCode
  | code =>
    cases hd with
    | plain _ noBackslash => exact absurd (List.cons.inj same).1.symm noBackslash
    | letter _ noCode => exact absurd (List.cons.inj (List.cons.inj same).2).1.symm noCode
    | code =>
      have digits : codePoint c ++ '\x7d' :: rest = codePoint d ++ '\x7d' :: rest' := by
        simpa using same
      obtain ⟨code, behind⟩ := append_cons_inj notMem_codePoint notMem_codePoint digits
      exact ⟨codePoint_inj code, behind⟩

end Form

/-! ### Texts -/

/-- The first double quote between two forms is where the quoted text ends. -/
theorem flatMap_encodeChar_append_inj
    (same : cs.flatMap encodeChar ++ '"' :: rest = ds.flatMap encodeChar ++ '"' :: rest') :
    cs = ds ∧ rest = rest' := by
  induction cs generalizing ds with
  | nil =>
    cases ds with
    | nil => exact ⟨rfl, (List.cons.inj same).2⟩
    | cons d ds =>
      rw [List.flatMap_cons, List.append_assoc] at same
      exact absurd same.symm (form_encodeChar d).head_ne_quote
  | cons c cs ih =>
    rw [List.flatMap_cons, List.append_assoc] at same
    cases ds with
    | nil => exact absurd same (form_encodeChar c).head_ne_quote
    | cons d ds =>
      rw [List.flatMap_cons, List.append_assoc] at same
      obtain ⟨rfl, others⟩ := (form_encodeChar c).append_inj (form_encodeChar d) same
      obtain ⟨rfl, behind⟩ := ih others
      exact ⟨rfl, behind⟩

end Quoted

/-- A quoted text tells what it quotes, and where it ends. -/
theorem quote_append_inj {s t : String} {rest rest' : List Char}
    (same : (quote s).toList ++ rest = (quote t).toList ++ rest') : s = t ∧ rest = rest' := by
  have body : s.toList.flatMap Quoted.encodeChar ++ '"' :: rest =
      t.toList.flatMap Quoted.encodeChar ++ '"' :: rest' := by
    simpa [quote, Quoted.encode] using same
  obtain ⟨text, behind⟩ := Quoted.flatMap_encodeChar_append_inj body
  exact ⟨String.toList_inj.mp text, behind⟩

end StringTransform
