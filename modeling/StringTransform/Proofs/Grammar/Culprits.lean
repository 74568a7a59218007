import StringTransform.Proofs.Grammar.Recording

/-!
# What a fault points at

A fault is found at a character that cannot be read, or at the end of a text that ends too
early. Where it points is an older matter, since the offset may have been recorded any number
of characters ago. Whatever it is, it lies inside the text and between two characters, what
is to blame stands there, and nothing is wrong with the text in front of it.

## Main definitions

* `PatternFault.Interrupts` — what a fault says about a text that ends too early
* `Culprit` — what stands at an offset, and how the text in front of it is read
* `PatternFault.PointsAtCulprit` — what stands where a fault points

## Main results

* `refuses_or_interrupts` — where the fault of a text comes from
* `pointsAtCulprit_of_parse` — the fault of a text points at its culprit
-/

namespace StringTransform

/-! ### Texts that end too early -/

/-- What the fault says about a text that ends too early. -/
def PatternFault.Interrupts (cs : List Char) : PatternFault → Prop
  | .unclosedGroup o => OpenedAt o '(' cs
  | .unclosedSet o => OpenedAt o '[' cs
  | .invalidUnicodeEscape o =>
    ∃ tail, GoesOn IsUnbroken o ('\\' :: 'u' :: tail) cs ∧ String.utf8Len tail < 4
  | .danglingEscape => True
  | .unmatchedParen _ | .nothingToRepeat _ _ | .unsupportedGroup _ | .invalidRange _ _ => False

/-- Where a text may not end, a construct is open that has been recorded, unless the text
ends with a backslash. -/
theorem Reading.interrupts_of_finish {r : Reading} {cs : List Char} {fault : PatternFault}
    (recorded : r.Recorded cs) (ended : r.finish = .error fault) : fault.Interrupts cs := by
  obtain ⟨offset, level, groups, mode⟩ := r
  have kept : mode.Recorded cs := recorded.mode
  cases mode with
  | between pending =>
    cases groups with
    | nil => cases ended
    | cons group groups =>
      cases ended
      exact recorded.groups group List.mem_cons_self
  | opened start | kind start =>
    cases ended
    exact kept
  | escape start =>
    cases ended
    trivial
  | code start digits =>
    cases ended
    obtain ⟨tail, goes, bytes, few⟩ := kept
    exact ⟨tail, goes, bytes ▸ few⟩
  | set reading =>
    cases ended
    obtain ⟨start, negated, items, mode⟩ := reading
    -- Inside an escape it is the escape that is unfinished, and otherwise the set.
    cases mode with
    | escape lo? start => trivial
    | code lo? start digits =>
      obtain ⟨tail, goes, bytes, few⟩ := kept.mode
      exact ⟨tail, goes, bytes ▸ few⟩
    | _ => exact kept.start

/-! ### Where a fault comes from -/

section

variable {source : String} {fault : PatternFault}

/-- A text is refused for one of its characters, or it ends too early. -/
theorem refuses_or_interrupts (failed : Pattern.parse source = .error fault) :
    ((Reading.start 0).read source.toList = .error fault ∧ fault.Refuses source.toList) ∨
      ∃ r, (Reading.start 0).read source.toList = .ok r ∧ r.finish = .error fault ∧
        fault.Interrupts source.toList := by
  rw [Pattern.parse_eq_bind] at failed
  cases read : (Reading.start 0).read source.toList with
  | error refused =>
    rw [read] at failed
    cases failed
    exact .inl ⟨rfl, Reading.refuses_of_read read⟩
  | ok r =>
    rw [read] at failed
    exact .inr ⟨r, rfl, failed, Reading.interrupts_of_finish (Reading.recorded_of_read read) failed⟩

/-! ### What stands there -/

/-- At a byte offset inside the text, between two characters, stands the mark, and reading
the text in front of it gives a result with the property. -/
structure Culprit (P : Except PatternFault Pattern → Prop) (source : String) (o : Nat)
    (mark : String) : Prop where
  inside : o < source.utf8ByteSize
  boundary : String.Pos.Raw.IsValid source ⟨o⟩
  stands : ∃ before after : String,
    source = before ++ mark ++ after ∧ before.utf8ByteSize = o ∧ P (Pattern.parse before)

/-- What stands where the fault points. Nothing is wrong in front of it, though the end of a
group may be missing, and in front of an escape that of a set. -/
def PatternFault.PointsAtCulprit (source : String) : PatternFault → Prop
  | .unclosedGroup o => Culprit IsSettled source o "("
  | .unclosedSet o => Culprit IsSettled source o "["
  | .unmatchedParen o => Culprit IsComplete source o ")"
  | .nothingToRepeat q o =>
    q ∈ ['?', '*', '+'] ∧ Culprit IsSettled source o (String.singleton q)
  | .invalidUnicodeEscape o => Culprit IsUnbroken source o "\\u"
  | .danglingEscape | .unsupportedGroup _ | .invalidRange _ _ => True

theorem GoesOn.culprit {P : Except PatternFault Pattern → Prop} {o : Nat} {mark : String}
    {tail : List Char} (goes : GoesOn P o (mark.toList ++ tail) source.toList)
    (nonempty : 0 < mark.utf8ByteSize) : Culprit P source o mark := by
  obtain ⟨before, whole, bytes, result⟩ := goes
  have split : source = String.ofList before ++ mark ++ String.ofList tail := by
    apply String.toList_inj.mp
    simp [whole]
  have size : (String.ofList before).utf8ByteSize = o := by
    rw [String.utf8ByteSize_ofList, bytes]
  refine ⟨?_, ?_, String.ofList before, String.ofList tail, split, size, result⟩
  · rw [split, String.utf8ByteSize_append, String.utf8ByteSize_append, size]
    omega
  · rw [split, String.append_assoc, ← size]
    exact String.Pos.Raw.isValid_rawEndPos.append_right _

theorem ofChar?_ne_none_iff {c : Char} :
    Quantifier.ofChar? c ≠ none ↔ c ∈ ['?', '*', '+'] := by
  unfold Quantifier.ofChar?
  split <;> simp_all

theorem PatternFault.Refuses.pointsAtCulprit (refuses : fault.Refuses source.toList) :
    fault.PointsAtCulprit source := by
  cases fault with
  | unmatchedParen o =>
    obtain ⟨tail, goes⟩ := refuses
    exact GoesOn.culprit goes (by decide)
  | nothingToRepeat q o =>
    obtain ⟨quantifier, tail, goes⟩ := refuses
    have mark : (String.singleton q).toList ++ tail = q :: tail := by
      rw [String.toList_singleton]
      rfl
    have nonempty : 0 < (String.singleton q).utf8ByteSize := by
      rw [String.utf8ByteSize_singleton]
      exact q.utf8Size_pos
    exact ⟨ofChar?_ne_none_iff.mp quantifier, GoesOn.culprit (mark ▸ goes) nonempty⟩
  | invalidUnicodeEscape o =>
    obtain ⟨tail, goes⟩ := refuses
    exact GoesOn.culprit goes (by decide)
  | unsupportedGroup _ | invalidRange _ _ => trivial
  | unclosedGroup _ | unclosedSet _ | danglingEscape => exact refuses.elim

theorem PatternFault.Interrupts.pointsAtCulprit (interrupts : fault.Interrupts source.toList) :
    fault.PointsAtCulprit source := by
  cases fault with
  | unclosedGroup o | unclosedSet o =>
    obtain ⟨tail, goes⟩ := interrupts
    exact GoesOn.culprit goes (by decide)
  | invalidUnicodeEscape o =>
    obtain ⟨tail, goes, -⟩ := interrupts
    exact GoesOn.culprit goes (by decide)
  | danglingEscape => trivial
  | unmatchedParen _ | nothingToRepeat _ _ | unsupportedGroup _ | invalidRange _ _ =>
    exact interrupts.elim

/-- The fault of a text points at its culprit. -/
theorem pointsAtCulprit_of_parse (failed : Pattern.parse source = .error fault) :
    fault.PointsAtCulprit source := by
  obtain ⟨-, refuses⟩ | ⟨r, -, -, interrupts⟩ := refuses_or_interrupts failed
  · exact refuses.pointsAtCulprit
  · exact interrupts.pointsAtCulprit

/-- A surrogate in a set in a group, behind a character of two bytes. -/
theorem pointsAtCulprit_surrogate :
    Pattern.parse "é(a|[b\\uD800]" = .error (.invalidUnicodeEscape 7) ∧
      (PatternFault.invalidUnicodeEscape 7).PointsAtCulprit "é(a|[b\\uD800]" :=
  ⟨by decide, pointsAtCulprit_of_parse (by decide)⟩

end

end StringTransform
