import StringTransform.Proofs.Grammar.Recording

/-!
# What an escape by code point stands for

The backslash and the letter of an escape are followed by the four hexadecimal digits of a
code point, or by a plus sign and three of them. The escape then stands for the character,
as an atom outside sets, and in a set as a member or as either end of a range. Whatever else
follows the letter, be it the end of the text or the digits of a surrogate, the text is
refused with the offset of the backslash. The digits are taken one at a time, so the induction
is on what follows the letter, from any stage of the escape on.

## Main definitions

* `WritesCode` — what is written for a character behind the letter
* `Mode.AtEscape`, `Mode.AtDigits` — the stages of an escape, outside sets and in a set
* `Mode.named` — what an escape leads to that stands for a character

## Main results

* `hexValue?_eq_some_iff`, `writesCode_iff` — the digits, and what is written with them
* `Reading.read_of_names`, `Reading.refused_of_not_names` — digits that name a character,
  and all other texts
* `code_escape_read_or_refused` — what becomes of an escape by code point
-/

namespace StringTransform

/-! ### The written form -/

/-- The character is a hexadecimal digit of that value, in either case. -/
def IsHexDigit (c : Char) (d : Nat) : Prop :=
  d < 16 ∧ (c = Nat.digitChar d ∨ c = (Nat.digitChar d).toUpper)

instance (c : Char) (d : Nat) : Decidable (IsHexDigit c d) :=
  inferInstanceAs (Decidable (_ ∧ _))

theorem hexValue?_eq_some_iff {c : Char} {d : Nat} : hexValue? c = some d ↔ IsHexDigit c d := by
  constructor
  · intro digit
    -- No digit comes after the last small letter, so all of them can be looked at.
    have all : ∀ n ≤ 'f'.toNat, ∀ d ∈ hexValue? (Char.ofNat n), IsHexDigit (Char.ofNat n) d := by
      decide
    have char := all c.toNat (toNat_le_of_hexValue? digit) d
    rw [Char.ofNat_toNat] at char
    exact char digit
  · rintro ⟨small, rfl | rfl⟩
    · exact (by decide : ∀ d < 16, hexValue? (Nat.digitChar d) = some d) d small
    · exact (by decide : ∀ d < 16, hexValue? (Nat.digitChar d).toUpper = some d) d small

/-- Four hexadecimal digits and their value. -/
inductive HexCode : List Char → Nat → Prop where
  | digits {a b c d : Char} {w x y z : Nat} (first : IsHexDigit a w) (second : IsHexDigit b x)
      (third : IsHexDigit c y) (fourth : IsHexDigit d z) :
      HexCode [a, b, c, d] (16 * (16 * (16 * w + x) + y) + z)

/-- What may stand behind the letter of an escape for the character: the four digits of its
code point, or a plus sign in place of the first of them if that is zero. -/
def WritesCode (cs : List Char) (x : Char) : Prop :=
  HexCode cs x.toNat ∨ ∃ ds, cs = '+' :: ds ∧ HexCode ('0' :: ds) x.toNat

/-! ### What is written and the grammar -/

theorem toNat_ofNat_of_isValidChar {n : Nat} (valid : n.isValidChar) :
    (Char.ofNat n).toNat = n := by
  have char : Char.ofNat n = Char.ofNatAux n valid := dif_pos valid
  rw [char]
  rfl

theorem leadValue?_eq_some_iff {c : Char} {w : Nat} :
    Grammar.leadValue? c = some w ↔ IsHexDigit c w ∨ c = '+' ∧ w = 0 := by
  unfold Grammar.leadValue?
  split
  · next plus =>
    subst plus
    have noDigit : ¬IsHexDigit '+' w := fun digit => nomatch hexValue?_eq_some_iff.mpr digit
    simp [noDigit, eq_comm]
  · next other => simp [hexValue?_eq_some_iff, other]

theorem codePoint_of_value {a b c d : Char} {w x y z : Nat} {char : Char}
    (first : Grammar.leadValue? a = some w) (second : IsHexDigit b x) (third : IsHexDigit c y)
    (fourth : IsHexDigit d z) (value : char.toNat = 16 * (16 * (16 * w + x) + y) + z) :
    Grammar.CodePoint [a, b, c, d] char := by
  rw [← Char.ofNat_toNat char, value]
  exact .digits first (hexValue?_eq_some_iff.mpr second) (hexValue?_eq_some_iff.mpr third)
    (hexValue?_eq_some_iff.mpr fourth) (value ▸ char.valid)

/-- What is written for a character is what the grammar asks for. -/
theorem writesCode_iff {cs : List Char} {char : Char} :
    WritesCode cs char ↔ Grammar.CodePoint cs char := by
  simp only [WritesCode]
  constructor
  · rintro (code | ⟨ds, rfl, code⟩)
    · generalize value : char.toNat = n at code
      cases code with
      | digits first second third fourth =>
        exact codePoint_of_value (leadValue?_eq_some_iff.mpr (.inl first)) second third fourth value
    · generalize value : char.toNat = n at code
      cases code with
      | digits first second third fourth =>
        -- The zero that the plus sign replaces adds nothing to the value.
        cases hexValue?_eq_some_iff.mpr first
        exact codePoint_of_value (leadValue?_eq_some_iff.mpr (.inr ⟨rfl, rfl⟩))
          second third fourth value
  · intro point
    cases point with
    | digits first second third fourth scalar =>
      rw [toNat_ofNat_of_isValidChar scalar]
      have second := hexValue?_eq_some_iff.mp second
      have third := hexValue?_eq_some_iff.mp third
      have fourth := hexValue?_eq_some_iff.mp fourth
      obtain first | ⟨rfl, rfl⟩ := leadValue?_eq_some_iff.mp first
      · exact .inl (.digits first second third fourth)
      · exact .inr ⟨_, rfl, .digits (by decide) second third fourth⟩

/-! ### Reading an escape -/

/-- The start of the range that an escape ends, if there is one. -/
def SetMode.lo? : SetMode → Option Char
  | .escape lo? _ | .code lo? _ _ => lo?
  | .opening | .first | .item | .held _ | .dashed _ => none

/-- The last character that has been read is the backslash at `start`, which escapes the next
one, outside sets or in a set. -/
inductive Mode.AtEscape : Mode → Nat → Prop where
  | outside {start : Nat} : AtEscape (.escape start) start
  | inside {bracket start : Nat} {negated : Bool} {items : List Item} {lo? : Option Char} :
      AtEscape (.set ⟨bracket, negated, items, .escape lo? start⟩) start

/-- The last characters that have been read are digits of the escape at `start`. -/
inductive Mode.AtDigits : Mode → Nat → CodeDigits → Prop where
  | outside {start : Nat} {digits : CodeDigits} : AtDigits (.code start digits) start digits
  | inside {bracket start : Nat} {negated : Bool} {items : List Item} {lo? : Option Char}
      {digits : CodeDigits} :
      AtDigits (.set ⟨bracket, negated, items, .code lo? start digits⟩) start digits

/-- What an escape leads to that stands for the character: outside sets the character is an
atom, and in a set it is held back in case it starts a range, or ends the range that has been
started. -/
def Mode.named (mode : Mode) (x : Char) : Except PatternFault Mode :=
  match mode with
  | .set reading => (reading.takeChar reading.mode.lo? x).map .set
  | _ => .ok (.between (some (.single (.literal x))))

namespace Reading

variable {r : Reading} {start : Nat} {digits more : CodeDigits} {c x : Char} {cs : List Char}

/-- Behind the letter of an escape its digits come. -/
theorem step_letter (escape : r.mode.AtEscape start) :
    ∃ mode, r.step 'u' = .ok { r with mode, offset := r.offset + 1 } ∧
      mode.AtDigits start .empty ∧ mode.named = r.mode.named := by
  obtain ⟨offset, level, groups, mode⟩ := r
  cases escape with
  | outside => exact ⟨.code start .empty, rfl, .outside, rfl⟩
  | @inside bracket _ negated items lo? =>
    refine ⟨.set ⟨bracket, negated, items, .code lo? start .empty⟩, rfl, .inside, ?_⟩
    cases lo? <;> rfl

/-- One more digit of an escape. -/
theorem step_digit (code : r.mode.AtDigits start digits) (next : digits.extend? c = some more)
    (incomplete : more.count < 4) :
    ∃ mode, r.step c = .ok { r with mode, offset := r.offset + c.utf8Size } ∧
      mode.AtDigits start more ∧ mode.named = r.mode.named := by
  obtain ⟨offset, level, groups, mode⟩ := r
  cases code with
  | outside =>
    refine ⟨.code start more, ?_, .outside, rfl⟩
    simp only [step, take, stepCode, next, if_pos incomplete]
    rfl
  | @inside bracket _ negated items lo? =>
    refine ⟨.set ⟨bracket, negated, items, .code lo? start more⟩, ?_, .inside, ?_⟩
    · simp only [step, take, SetReading.step, SetReading.takeDigit, next, if_pos incomplete]
      rfl
    · cases lo? <;> rfl

/-- The last digit of an escape, if the digits name a character. -/
theorem step_lastDigit (code : r.mode.AtDigits start digits) (next : digits.extend? c = some more)
    (complete : ¬more.count < 4) (char : more.char? = some x) :
    r.step c = (r.mode.named x).map fun mode =>
      { r with mode, offset := r.offset + c.utf8Size } := by
  obtain ⟨offset, level, groups, mode⟩ := r
  cases code with
  | outside =>
    simp only [step, take, stepCode, next, if_neg complete, char]
    rfl
  | @inside bracket _ negated items lo? =>
    simp only [step, take, SetReading.step, SetReading.takeDigit, next, if_neg complete, char]
    simp only [Mode.named, SetMode.lo?]
    cases SetReading.takeChar ⟨bracket, negated, items, .code lo? start digits⟩ lo? x <;> rfl

/-- A character that is no digit of an escape is refused. -/
theorem step_noDigit (code : r.mode.AtDigits start digits) (next : digits.extend? c = none) :
    r.step c = .error (.invalidUnicodeEscape start) := by
  obtain ⟨offset, level, groups, mode⟩ := r
  cases code with
  | outside =>
    simp only [step, take, stepCode, next]
    rfl
  | inside =>
    simp only [step, take, SetReading.step, SetReading.takeDigit, next]
    rfl

/-- The last digit of an escape is refused if the digits name no character. -/
theorem step_namelessDigit (code : r.mode.AtDigits start digits)
    (next : digits.extend? c = some more) (complete : ¬more.count < 4)
    (char : more.char? = none) : r.step c = .error (.invalidUnicodeEscape start) := by
  obtain ⟨offset, level, groups, mode⟩ := r
  cases code with
  | outside =>
    simp only [step, take, stepCode, next, if_neg complete, char]
    rfl
  | inside =>
    simp only [step, take, SetReading.step, SetReading.takeDigit, next, if_neg complete, char]
    rfl

theorem read_singleton (r : Reading) (c : Char) : r.read [c] = r.step c := by
  rw [read_cons]
  cases r.step c <;> rfl

/-- Digits that name a character lead to that character. -/
theorem read_of_names (code : r.mode.AtDigits start digits) (names : Grammar.Names digits cs x) :
    r.read cs = (r.mode.named x).map fun mode =>
      { r with mode, offset := r.offset + String.utf8Len cs } := by
  induction names generalizing r with
  | @last digits more c x next complete char =>
    rw [read_singleton, step_lastDigit code next complete char, String.utf8Len_cons,
      String.utf8Len_nil, Nat.zero_add]
  | @more digits more c x cs next incomplete others ih =>
    obtain ⟨mode, step, code, same⟩ := step_digit code next incomplete
    rw [read_cons, step]
    show ({ r with mode, offset := r.offset + c.utf8Size } : Reading).read cs = _
    rw [ih code, same, String.utf8Len_cons, Nat.add_comm (String.utf8Len cs)]
    simp only [Nat.add_assoc]

/-- Without digits that name a character the escape is refused, and so it is if the text
ends too early. -/
theorem refused_of_not_names (code : r.mode.AtDigits start digits)
    (nameless : ∀ ds es x, cs = ds ++ es → ¬Grammar.Names digits ds x) :
    (r.read cs).bind finish = .error (.invalidUnicodeEscape start) := by
  induction cs generalizing r digits with
  | nil =>
    obtain ⟨offset, level, groups, mode⟩ := r
    cases code <;> rfl
  | cons c cs ih =>
    rw [read_cons]
    cases next : digits.extend? c with
    | none =>
      rw [step_noDigit code next]
      rfl
    | some more =>
      by_cases incomplete : more.count < 4
      · obtain ⟨mode, step, code, -⟩ := step_digit code next incomplete
        rw [step]
        refine ih code ?_
        rintro ds es x rfl names
        exact nameless (c :: ds) es x rfl (.more next incomplete names)
      · cases char : more.char? with
        | none =>
          rw [step_namelessDigit code next incomplete char]
          rfl
        | some x => exact absurd (.last next incomplete char) (nameless [c] cs x rfl)

/-- The backslash that a reading keeps is the one that has just been read. -/
theorem start_eq_of_read {before : List Char}
    (read : (Reading.start 0).read (before ++ ['\\']) = .ok r)
    (escape : r.mode.AtEscape start) : start = String.utf8Len before := by
  have recorded : r.mode.Recorded (before ++ ['\\']) := (recorded_of_read read).mode
  obtain ⟨offset, level, groups, mode⟩ := r
  have goes : GoesOn IsUnbroken start ['\\'] (before ++ ['\\']) := by
    cases escape with
    | outside => exact recorded
    | inside => exact recorded.mode
  obtain ⟨front, whole, bytes, -⟩ := goes
  rw [← bytes, List.append_cancel_right whole]

end Reading

theorem utf8Len_of_names {digits : CodeDigits} {cs : List Char} {x : Char}
    (names : Grammar.Names digits cs x) (few : digits.count < 4) :
    digits.count + String.utf8Len cs = 4 := by
  induction names with
  | last next complete =>
    obtain ⟨count, byte⟩ := CodeDigits.extend?_bytes next
    rw [String.utf8Len_cons, String.utf8Len_nil, byte]
    omega
  | more next incomplete _ ih =>
    obtain ⟨count, byte⟩ := CodeDigits.extend?_bytes next
    have rest := ih incomplete
    rw [String.utf8Len_cons, byte]
    omega

/-! ### Escapes in a text -/

/-- An escape by code point, wherever it stands, either has behind its letter what is written
for a character, and then it stands for exactly that character, or the text is refused for
it. -/
theorem code_escape_read_or_refused {before rest : String} {r : Reading} {start : Nat}
    (read : (Reading.start 0).read (before ++ "\\").toList = .ok r)
    (escape : r.mode.AtEscape start) :
    (∃ digits tail x, rest.toList = digits ++ tail ∧ WritesCode digits x ∧
        r.read ('u' :: digits) = (r.mode.named x).map fun mode =>
          { r with mode, offset := r.offset + 5 }) ∨
      (∀ digits tail x, rest.toList = digits ++ tail → ¬WritesCode digits x) ∧
        Pattern.parse (before ++ "\\u" ++ rest) =
          .error (.invalidUnicodeEscape before.utf8ByteSize) := by
  obtain ⟨mode, letter, code, same⟩ := Reading.step_letter escape
  by_cases written : ∃ digits tail x, rest.toList = digits ++ tail ∧ WritesCode digits x
  · obtain ⟨digits, tail, x, whole, writes⟩ := written
    have names : Grammar.Names .empty digits x :=
      Grammar.names_empty_iff.mpr (writesCode_iff.mp writes)
    refine .inl ⟨digits, tail, x, whole, writes, ?_⟩
    -- Neither the letter nor a digit changes what the escape is part of.
    rw [Reading.read_cons, letter]
    show ({ r with mode, offset := r.offset + 1 } : Reading).read digits = _
    rw [Reading.read_of_names code names, same]
    have bytes : 0 + String.utf8Len digits = 4 := utf8Len_of_names names (by decide)
    rw [Nat.zero_add] at bytes
    simp only [bytes]
  · have nameless : ∀ digits tail x, rest.toList = digits ++ tail → ¬WritesCode digits x :=
      fun digits tail x whole writes => written ⟨digits, tail, x, whole, writes⟩
    refine .inr ⟨nameless, ?_⟩
    have start_eq : start = before.utf8ByteSize := by
      rw [String.toList_append] at read
      rw [Reading.start_eq_of_read read escape, String.utf8Len_toList]
    have split : (before ++ "\\u" ++ rest).toList =
        (before ++ "\\").toList ++ 'u' :: rest.toList := by
      simp
    rw [Pattern.parse_eq_bind, split, Reading.read_append, read]
    show (r.read ('u' :: rest.toList)).bind Reading.finish = _
    rw [Reading.read_cons, letter, ← start_eq]
    exact Reading.refused_of_not_names code fun ds es x whole names =>
      nameless ds es x whole (writesCode_iff.mpr (Grammar.names_empty_iff.mp names))

/-- A surrogate at the end of a range. -/
theorem surrogate_in_range_refused :
    ∃ r, (Reading.start 0).read ("[ -" ++ "\\").toList = .ok r ∧ r.mode.AtEscape 3 ∧
      ((∃ digits tail x, "dFFF]".toList = digits ++ tail ∧ WritesCode digits x ∧
          r.read ('u' :: digits) = (r.mode.named x).map fun mode =>
            { r with mode, offset := r.offset + 5 }) ∨
        (∀ digits tail x, "dFFF]".toList = digits ++ tail → ¬WritesCode digits x) ∧
          Pattern.parse ("[ -" ++ "\\u" ++ "dFFF]") =
            .error (.invalidUnicodeEscape "[ -".utf8ByteSize)) :=
  ⟨_, rfl, .inside, code_escape_read_or_refused rfl .inside⟩

/-- A plus sign is no hexadecimal digit, but it may stand in place of the first one. -/
theorem plus_sign_taken_as_digit :
    Pattern.parse "\\u+041" = .ok (.seq [.single (.literal 'A')]) ∧
      ∀ v, ¬HexCode ['+', '0', '4', '1'] v := by
  refine ⟨by decide, ?_⟩
  rintro v ⟨first, -, -, -⟩
  exact nomatch hexValue?_eq_some_iff.mpr first

end StringTransform
