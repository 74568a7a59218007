import StringTransform.Proofs.Grammar.Culprits

/-!
# Which faults more text can mend

Nothing that has been decided depends on what comes later, so a character that cannot be read
is beyond mending: whatever follows, the fault is the same. A text that ends too early is
another matter. Wherever it ends, there is a text that brings the construct at its end to
rest, and then only closing parentheses are missing. Escapes by code point lie in between:
one that ends too early may have come to nothing already, since its digits may name a
surrogate, but once there is room for four digits it is a character that cannot be read.

## Main definitions

* `PatternFault.IsHopeless`, `PatternFault.IsUnfinished` — the two kinds of faults

## Main results

* `parse_append_of_hopeless` — a fault of the first kind stays
* `Reading.Rests.exists_finish` — closing parentheses finish a text at rest
* `Reading.exists_rests` — what is unfinished can be brought to rest
* `fault_under_extension` — what becomes of a fault when the text goes on
-/

namespace StringTransform

/-- A character cannot be read. An escape by code point has room for its four digits, which
take a byte each behind the two of the backslash and the letter. -/
def PatternFault.IsHopeless (source : String) : PatternFault → Prop
  | .nothingToRepeat _ _ | .unmatchedParen _ | .unsupportedGroup _ | .invalidRange _ _ => True
  | .invalidUnicodeEscape o => o + 2 + 4 ≤ source.utf8ByteSize
  | .unclosedGroup _ | .unclosedSet _ | .danglingEscape => False

/-- The text ends inside a construct. -/
def PatternFault.IsUnfinished : PatternFault → Prop
  | .unclosedGroup _ | .unclosedSet _ | .danglingEscape => True
  | .nothingToRepeat _ _ | .unmatchedParen _ | .unsupportedGroup _ | .invalidRange _ _
  | .invalidUnicodeEscape _ => False

/-! ### Characters that cannot be read -/

section

variable {source : String} {fault : PatternFault}

/-- A text that only ends too early is not beyond mending. -/
theorem PatternFault.Interrupts.not_isHopeless (interrupts : fault.Interrupts source.toList) :
    ¬fault.IsHopeless source := by
  cases fault with
  | invalidUnicodeEscape o =>
    obtain ⟨tail, ⟨before, whole, bytes, -⟩, few⟩ := interrupts
    have size : source.utf8ByteSize = o + (String.utf8Len tail + 1 + 1) := by
      rw [← String.utf8Len_toList, whole, String.utf8Len_append, bytes]
      rfl
    show ¬o + 2 + 4 ≤ source.utf8ByteSize
    omega
  | unclosedGroup _ | unclosedSet _ | danglingEscape => exact id
  | unmatchedParen _ | nothingToRepeat _ _ | unsupportedGroup _ | invalidRange _ _ =>
    exact interrupts.elim

/-- A character that cannot be read stays one, whatever follows. -/
theorem parse_append_of_hopeless (failed : Pattern.parse source = .error fault)
    (hopeless : fault.IsHopeless source) (more : String) :
    Pattern.parse (source ++ more) = .error fault := by
  obtain ⟨read, -⟩ | ⟨r, -, -, interrupts⟩ := refuses_or_interrupts failed
  · rw [Pattern.parse_eq_bind, String.toList_append, Reading.read_append, read]
    rfl
  · exact absurd hopeless interrupts.not_isHopeless

theorem PatternFault.Refuses.not_isUnfinished {cs : List Char} (refuses : fault.Refuses cs) :
    ¬fault.IsUnfinished := by
  cases fault with
  | unclosedGroup _ | unclosedSet _ | danglingEscape => exact fun _ => refuses
  | _ => exact id

end

/-! ### Closing groups -/

namespace Reading

variable {r : Reading} {fault : PatternFault}

/-- Between constructs a reading is at rest. -/
theorem rests_of_between {pending : Option Pattern} (mode : r.mode = .between pending) :
    r.Rests ⟨(r.flush pending).level, r.groups⟩ :=
  ⟨pending, mode, rfl⟩

/-- As many closing parentheses as there are open groups finish a text at rest. -/
theorem Rests.exists_finish {level : Level} {groups : List OpenGroup}
    (rests : r.Rests ⟨level, groups⟩) : ∃ cs p, (r.read cs).bind finish = .ok p := by
  induction groups generalizing r level with
  | nil => exact ⟨[], level.tree, finish_eq_ok_iff.mpr ⟨level, rests, rfl⟩⟩
  | cons group groups ih =>
    obtain ⟨next, closing, holds⟩ :
        ∃ next, r.read [')'] = .ok next ∧
          next.Holds ⟨group.enclosing, groups⟩ (group.kind.wrap level.tree) :=
      rests.read_closing
    obtain ⟨cs, p, finished⟩ := ih holds.rests
    refine ⟨[')'] ++ cs, p, ?_⟩
    rw [read_append, closing]
    exact finished

end Reading

/-! ### Ending sets -/

namespace SetReading

open Grammar

/-- No character comes after this one, so as the end of a range it suits every start. -/
def lastChar : Char := Char.ofNat 0x10FFFF

theorem le_lastChar (c : Char) : c ≤ lastChar := by
  rw [Char.le_def, UInt32.le_iff_toNat_le]
  have last : lastChar.val.toNat = 0x10FFFF := by decide
  rw [last]
  obtain small | ⟨-, large⟩ := c.valid
  · exact Nat.le_of_lt (Nat.lt_trans small (by decide))
  · exact Nat.le_of_lt_succ large

/-- Unless the digits of an escape come next, some text ends the set. A backslash is followed
by a letter for a kind of characters, or by the end of a range that started before it. -/
theorem exists_remains {mode : SetMode}
    (plain : ∀ lo? start digits, mode ≠ .code lo? start digits) :
    ∃ cs items, Remains mode cs items ∧ cs.head? ≠ some '^' := by
  cases mode with
  | opening | first => exact ⟨['\\', 'd', ']'], [.digit], .kind rfl .close, by decide⟩
  | item => exact ⟨[']'], [], .close, by decide⟩
  | held lo =>
    have after : AfterChar lo [']'] [.char lo] :=
      (afterChar_cons_of_ne (by decide)).mpr ⟨[], rfl, .close⟩
    exact ⟨_, _, after, by decide⟩
  | dashed lo =>
    have after : AfterChar lo ['-', ']'] [.char lo, .char '-'] :=
      afterChar_hyphen_cons_iff.mpr ⟨rfl, rfl⟩
    exact ⟨[']'], _, after, by decide⟩
  | escape lo? start =>
    cases lo? with
    | none =>
      have after : AfterBackslash none ['d', ']'] [.digit] :=
        afterBackslash_cons_iff.mpr ⟨rfl, [], rfl, .close⟩
      exact ⟨_, _, after, by decide⟩
    | some lo =>
      have after : AfterBackslash (some lo) [lastChar, ']'] [.range lo lastChar] :=
        afterBackslash_cons_iff.mpr ⟨le_lastChar lo, [], rfl, .close⟩
      exact ⟨_, _, after, by decide⟩
  | code lo? start digits => exact absurd rfl (plain lo? start digits)

theorem exists_completes {set : SetReading} (unfinished : set.fault.IsUnfinished) :
    ∃ cs test, set.Completes cs test := by
  have plain : ∀ lo? start digits, set.mode ≠ .code lo? start digits := by
    intro lo? start digits mode
    simp only [fault, mode] at unfinished
    exact unfinished
  obtain ⟨cs, items, remains, caret⟩ := exists_remains plain
  exact ⟨cs, _, (completes_iff fun _ => caret).mpr ⟨items, rfl, remains⟩⟩

end SetReading

/-! ### Texts that end too early -/

namespace Reading

variable {r : Reading} {fault : PatternFault}

/-- Some text brings what is unfinished to rest. -/
theorem exists_rests (ended : r.finish = .error fault) (unfinished : fault.IsUnfinished) :
    ∃ cs next place, r.read cs = .ok next ∧ next.Rests place := by
  cases mode : r.mode with
  | between pending => exact ⟨[], r, _, rfl, rests_of_between mode⟩
  | opened start =>
    -- The group that the parenthesis opens may be empty.
    have inside : (r.openGroup .plain start).Rests ⟨.empty, ⟨.plain, start, r.level⟩ :: r.groups⟩ :=
      ⟨none, rfl, rfl⟩
    obtain ⟨next, closing, holds⟩ :
        ∃ next, (r.openGroup .plain start).read [')'] = .ok next ∧
          next.Holds ⟨r.level, r.groups⟩ (GroupKind.plain.wrap Level.empty.tree) :=
      inside.read_closing
    refine ⟨[')'], next, _, ?_, holds.rests⟩
    rw [read_opened mode (by decide)]
    exact closing
  | kind start =>
    have step : r.step ':' = .ok { r.openGroup .plain start with offset := r.offset + 1 } := by
      simp only [step, take, mode, stepKind]
      rfl
    exact ⟨[':'], _, _, read_singleton_of_eq step, rests_of_between rfl⟩
  | escape start =>
    have step : r.step 'n' = .ok { r.hold (escapedAtom 'n') with offset := r.offset + 1 } := by
      simp only [step, take, mode]
      rfl
    exact ⟨['n'], _, _, read_singleton_of_eq step, rests_of_between rfl⟩
  | code start digits =>
    -- Digits that have been read may be beyond completing, so their fault is no unfinished one.
    simp only [finish, mode, Except.error.injEq] at ended
    subst ended
    exact unfinished.elim
  | set reading =>
    simp only [finish, mode, Except.error.injEq] at ended
    subst ended
    obtain ⟨cs, test, completes⟩ := SetReading.exists_completes unfinished
    obtain ⟨next, read, holds⟩ :
        ∃ next, r.read cs = .ok next ∧ next.Holds ⟨r.level, r.groups⟩ (.single test) :=
      read_set completes mode rfl rfl
    exact ⟨cs, next, _, read, holds.rests⟩

end Reading

section

variable {source : String} {fault : PatternFault}

/-- A text that ends too early can go on so that it denotes a pattern. -/
theorem exists_parse_append (failed : Pattern.parse source = .error fault)
    (unfinished : fault.IsUnfinished) :
    ∃ (more : String) (p : Pattern), Pattern.parse (source ++ more) = .ok p := by
  obtain ⟨-, refuses⟩ | ⟨r, read, ended, -⟩ := refuses_or_interrupts failed
  · exact absurd unfinished refuses.not_isUnfinished
  · obtain ⟨cs, next, place, first, rests⟩ := Reading.exists_rests ended unfinished
    obtain ⟨ds, p, finished⟩ := rests.exists_finish
    refine ⟨String.ofList (cs ++ ds), p, ?_⟩
    rw [Pattern.parse_eq_bind, String.toList_append, String.toList_ofList, Reading.read_append,
      read]
    show ((r.read (cs ++ ds)).bind Reading.finish) = .ok p
    rw [Reading.read_append, first]
    exact finished

/-- Whatever follows a text with a character that cannot be read, its fault is the same. A
text that ends too early can be continued to one that denotes a pattern. -/
theorem fault_under_extension (failed : Pattern.parse source = .error fault) :
    (fault.IsHopeless source → ∀ more : String,
      Pattern.parse (source ++ more) = .error fault) ∧
    (fault.IsUnfinished → ∃ (more : String) (p : Pattern),
      Pattern.parse (source ++ more) = .ok p) :=
  ⟨parse_append_of_hopeless failed, exists_parse_append failed⟩

/-- A quantifier in the first place of a group, and the end of a range that has to be
escaped. -/
theorem fault_under_extension_in_group :
    (Pattern.parse "(*" = .error (.nothingToRepeat '*' 1) ∧
      Pattern.parse ("(*" ++ "a)") = .error (.nothingToRepeat '*' 1)) ∧
    (Pattern.parse "(?:[a-\\" = .error .danglingEscape ∧
      ∃ (more : String) (p : Pattern), Pattern.parse ("(?:[a-\\" ++ more) = .ok p) := by
  have star : Pattern.parse "(*" = .error (.nothingToRepeat '*' 1) := by decide
  have backslash : Pattern.parse "(?:[a-\\" = .error .danglingEscape := by decide
  exact ⟨⟨star, (fault_under_extension star).1 trivial "a)"⟩,
    backslash, (fault_under_extension backslash).2 trivial⟩

end

end StringTransform
