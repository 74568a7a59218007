import Mathlib.Data.String.Basic
import StringTransform.Proofs.Grammar.Completeness

/-!
# The offsets that reading records

A reading keeps offsets to have something to point at if the text turns out to be wrong: that
of the parenthesis of each open group, of the bracket of a set and of the backslash of an
escape. They were recorded when that character was read, any number of characters ago. The
invariant of reading is that each of them still is the offset of its character, in bytes, and
that the text in front of it was in order: it denotes a pattern, or only the end of a group is
missing, or, in front of a backslash, that of a set. A character that cannot be read is
refused with a fault that is right in the same sense.

## Main definitions

* `GoesOn` — a text goes on at an offset, behind a text that is read with some result
* `PatternFault.Refuses` — what a fault says about a text with a character that cannot be read
* `Reading.Recorded` — the offsets that a reading keeps are those of what was read there
* `Keeps` — the result of a step has a property, or the text is refused

## Main results

* `Reading.offset_of_read` — reading goes on by the bytes of what is read
* `Reading.step_keeps`, `Reading.read_keeps` — a step keeps the offsets right, and so does
  reading a text
* `Reading.recorded_of_read`, `Reading.refuses_of_read` — what that says from the start on
-/

namespace StringTransform

/-! ### The text in front of an offset -/

/-- The text denotes a pattern. -/
def IsComplete (result : Except PatternFault Pattern) : Prop :=
  ∃ p, result = .ok p

/-- The text denotes a pattern, or the end of a group is missing. -/
def IsSettled (result : Except PatternFault Pattern) : Prop :=
  IsComplete result ∨ ∃ start, result = .error (.unclosedGroup start)

/-- The text denotes a pattern, or the end of a group or of a set is missing. -/
def IsUnbroken (result : Except PatternFault Pattern) : Prop :=
  IsSettled result ∨ ∃ start, result = .error (.unclosedSet start)

/-- At the byte offset `o` the text `cs` goes on with `tail`, and the text in front of it is
read with a result that has the property. -/
def GoesOn (P : Except PatternFault Pattern → Prop) (o : Nat) (tail cs : List Char) : Prop :=
  ∃ before, cs = before ++ tail ∧ String.utf8Len before = o ∧
    P (Pattern.parse (String.ofList before))

theorem GoesOn.append {P : Except PatternFault Pattern → Prop} {o : Nat} {tail cs : List Char}
    (goes : GoesOn P o tail cs) (ds : List Char) : GoesOn P o (tail ++ ds) (cs ++ ds) := by
  obtain ⟨before, rfl, offset, result⟩ := goes
  exact ⟨before, List.append_assoc .., offset, result⟩

theorem Pattern.parse_eq_bind (source : String) :
    parse source = ((Reading.start 0).read source.toList).bind Reading.finish := by
  unfold parse parseChars
  cases (Reading.start 0).read source.toList with
  | error fault => rfl
  | ok r =>
    show (r.finish.map (·, r.offset)).map (·.1) = r.finish
    cases r.finish <;> rfl

/-! ### Faults -/

/-- What the fault says about a text in which a character cannot be read. -/
def PatternFault.Refuses (cs : List Char) : PatternFault → Prop
  | .unmatchedParen o => ∃ tail, GoesOn IsComplete o (')' :: tail) cs
  | .nothingToRepeat q o =>
    Quantifier.ofChar? q ≠ none ∧ ∃ tail, GoesOn IsSettled o (q :: tail) cs
  | .invalidUnicodeEscape o => ∃ tail, GoesOn IsUnbroken o ('\\' :: 'u' :: tail) cs
  | .unsupportedGroup _ | .invalidRange _ _ => True
  | .unclosedGroup _ | .unclosedSet _ | .danglingEscape => False

/-- What is read has the property, or else the text is refused for a reason. -/
def Keeps {α : Type} (P : α → Prop) (cs : List Char) : Except PatternFault α → Prop
  | .ok a => P a
  | .error fault => fault.Refuses cs

theorem Keeps.map {α β : Type} {P : α → Prop} {Q : β → Prop} {cs : List Char}
    {result : Except PatternFault α} (keeps : Keeps P cs result) {f : α → β}
    (imp : ∀ a, P a → Q (f a)) : Keeps Q cs (result.map f) := by
  cases result with
  | error fault => exact keeps
  | ok a => exact imp a keeps

theorem PatternFault.Refuses.append {cs : List Char} {fault : PatternFault}
    (refuses : fault.Refuses cs) (ds : List Char) : fault.Refuses (cs ++ ds) := by
  cases fault with
  | unmatchedParen o =>
    obtain ⟨tail, goes⟩ := refuses
    exact ⟨tail ++ ds, goes.append ds⟩
  | nothingToRepeat q o =>
    obtain ⟨quantifier, tail, goes⟩ := refuses
    exact ⟨quantifier, tail ++ ds, goes.append ds⟩
  | invalidUnicodeEscape o =>
    obtain ⟨tail, goes⟩ := refuses
    exact ⟨tail ++ ds, goes.append ds⟩
  | unsupportedGroup _ | invalidRange _ _ => trivial
  | unclosedGroup _ | unclosedSet _ | danglingEscape => exact refuses

/-! ### What has been recorded -/

/-- The character that the text has at `start` opens a construct whose end may be missing. -/
def OpenedAt (start : Nat) (mark : Char) (cs : List Char) : Prop :=
  ∃ tail, GoesOn IsSettled start (mark :: tail) cs

/-- The escape at `start` has been read up to some of its digits, which are a byte each. -/
def InCode (start : Nat) (digits : CodeDigits) (cs : List Char) : Prop :=
  ∃ tail, GoesOn IsUnbroken start ('\\' :: 'u' :: tail) cs ∧
    String.utf8Len tail = digits.count ∧ digits.count < 4

/-- The offset of an open group is that of its parenthesis. -/
def OpenGroup.Recorded (cs : List Char) (group : OpenGroup) : Prop :=
  OpenedAt group.start '(' cs

/-- The offset that a mode of a set keeps is that of the backslash. -/
def SetMode.Recorded (cs : List Char) : SetMode → Prop
  | .escape _ start => GoesOn IsUnbroken start ['\\'] cs
  | .code _ start digits => InCode start digits cs
  | .opening | .first | .item | .held _ | .dashed _ => True

/-- The offsets that a set keeps are those of its bracket and of the backslash. -/
structure SetReading.Recorded (set : SetReading) (cs : List Char) : Prop where
  start : OpenedAt set.start '[' cs
  mode : set.mode.Recorded cs

/-- The offset that a mode keeps is that of the character which has led to it. -/
def Mode.Recorded (cs : List Char) : Mode → Prop
  | .between _ => True
  | .opened start | .kind start => OpenedAt start '(' cs
  | .escape start => GoesOn IsUnbroken start ['\\'] cs
  | .code start digits => InCode start digits cs
  | .set reading => reading.Recorded cs

/-- The offsets that a reading keeps are those of what was read there. -/
structure Reading.Recorded (r : Reading) (cs : List Char) : Prop where
  groups : ∀ group ∈ r.groups, group.Recorded cs
  mode : r.mode.Recorded cs

section

variable {start : Nat} {mark c : Char} {digits more : CodeDigits} {cs : List Char}

theorem OpenedAt.append (opened : OpenedAt start mark cs) (ds : List Char) :
    OpenedAt start mark (cs ++ ds) := by
  obtain ⟨tail, goes⟩ := opened
  exact ⟨tail ++ ds, goes.append ds⟩

theorem InCode.of_letter (goes : GoesOn IsUnbroken start ['\\', 'u'] cs) :
    InCode start .empty cs :=
  ⟨[], goes, rfl, by decide⟩

theorem InCode.extend (code : InCode start digits cs) (next : digits.extend? c = some more)
    (incomplete : more.count < 4) : InCode start more (cs ++ [c]) := by
  obtain ⟨tail, goes, bytes, -⟩ := code
  obtain ⟨count, byte⟩ := CodeDigits.extend?_bytes next
  refine ⟨tail ++ [c], goes.append [c], ?_, incomplete⟩
  simp [bytes, byte, count]

theorem InCode.refuses (code : InCode start digits cs) (ds : List Char) :
    (PatternFault.invalidUnicodeEscape start).Refuses (cs ++ ds) := by
  obtain ⟨tail, goes, -⟩ := code
  exact ⟨tail ++ ds, goes.append ds⟩

/-- A digit of an escape leads to more digits or to the character that they name. Whatever is
no digit is refused, and so is the last digit if all of them name no character. -/
theorem InCode.keeps {α : Type} {P : α → Prop} {taken : CodeDigits → α}
    {named : Char → Except PatternFault α} (code : InCode start digits cs)
    (inside : ∀ more, InCode start more (cs ++ [c]) → P (taken more))
    (behind : ∀ x, Keeps P (cs ++ [c]) (named x)) :
    Keeps P (cs ++ [c]) (match digits.extend? c with
      | none => .error (.invalidUnicodeEscape start)
      | some more =>
        if more.count < 4 then .ok (taken more)
        else match more.char? with
          | none => .error (.invalidUnicodeEscape start)
          | some x => named x) := by
  cases next : digits.extend? c with
  | none => exact code.refuses [c]
  | some more =>
    by_cases incomplete : more.count < 4
    · simp only [if_pos incomplete]
      exact inside more (code.extend next incomplete)
    · simp only [if_neg incomplete]
      cases more.char? with
      | none => exact code.refuses [c]
      | some x => exact behind x

end

/-! ### Sets -/

namespace SetReading

variable {set : SetReading} {offset start : Nat} {lo? : Option Char} {c : Char} {cs : List Char}

theorem startItem_recorded (opened : OpenedAt set.start '[' cs)
    (here : GoesOn IsUnbroken offset [c] cs) : (set.startItem offset c).Recorded cs := by
  unfold startItem
  split
  · next backslash =>
    subst backslash
    exact ⟨opened, here⟩
  · exact ⟨opened, trivial⟩

theorem takeChar_keeps (opened : OpenedAt set.start '[' cs) :
    Keeps (Recorded · cs) cs (set.takeChar lo? c) := by
  unfold takeChar
  split
  · exact ⟨opened, trivial⟩
  · split
    · exact ⟨opened, trivial⟩
    · trivial

theorem takeKind_keeps {item : Item} (opened : OpenedAt set.start '[' cs) :
    Keeps (Recorded · cs) cs (set.takeKind lo? item) := by
  cases lo? with
  | none => exact ⟨opened, trivial⟩
  | some lo => trivial

theorem takeEscape_keeps (opened : OpenedAt set.start '[' cs)
    (goes : GoesOn IsUnbroken start ['\\', c] cs) :
    Keeps (Recorded · cs) cs (set.takeEscape lo? start c) := by
  unfold takeEscape
  split
  case h_4 => exact ⟨opened, .of_letter goes⟩
  case h_5 => exact takeChar_keeps opened
  all_goals exact takeKind_keeps opened

theorem takeDigit_keeps {digits : CodeDigits} (opened : OpenedAt set.start '[' (cs ++ [c]))
    (code : InCode start digits cs) :
    Keeps (Recorded · (cs ++ [c])) (cs ++ [c]) (set.takeDigit lo? start digits c) :=
  code.keeps (fun _ code => ⟨opened, code⟩) fun _ => takeChar_keeps opened

/-- What a step leads to, unless the set is closed, keeps the offsets right. -/
theorem step_keeps (recorded : set.Recorded cs)
    (here : set.fault = .unclosedSet set.start → GoesOn IsUnbroken offset [c] (cs ++ [c])) :
    Keeps (Sum.elim (Recorded · (cs ++ [c])) fun _ => True) (cs ++ [c]) (set.step offset c) := by
  have opened : OpenedAt set.start '[' (cs ++ [c]) := recorded.start.append [c]
  obtain ⟨_, negated, items, mode⟩ := set
  unfold step
  -- A backslash is recorded, and it comes where no other escape is being read.
  cases mode with
  | opening =>
    simp only
    split
    · exact ⟨opened, trivial⟩
    · exact startItem_recorded opened (here rfl)
  | first => exact startItem_recorded opened (here rfl)
  | item =>
    simp only
    split
    · trivial
    · exact startItem_recorded opened (here rfl)
  | held lo =>
    simp only
    split
    · exact ⟨opened, trivial⟩
    · split
      · trivial
      · exact startItem_recorded opened (here rfl)
  | dashed lo =>
    simp only
    split
    · trivial
    · split
      · next backslash =>
        subst backslash
        exact ⟨opened, here rfl⟩
      · exact (takeChar_keeps opened).map fun _ recorded => recorded
  | escape lo? start =>
    exact (takeEscape_keeps opened (recorded.mode.append [c])).map fun _ recorded => recorded
  | code lo? start digits =>
    exact (takeDigit_keeps opened recorded.mode).map fun _ recorded => recorded

end SetReading

/-! ### Readings -/

namespace Reading

variable {r next : Reading} {c : Char} {cs ds : List Char} {fault : PatternFault}

/-- Reading goes on by the bytes of the characters that are read. -/
theorem offset_of_read (read : r.read cs = .ok next) :
    next.offset = r.offset + String.utf8Len cs := by
  induction cs generalizing r with
  | nil =>
    cases read
    rfl
  | cons c cs ih =>
    obtain ⟨after, step, rest⟩ := bind_eq_ok_iff.mp (read_cons r c cs ▸ read)
    obtain ⟨taken, -, rfl⟩ := map_eq_ok_iff.mp step
    rw [ih rest, String.utf8Len_cons]
    show r.offset + c.utf8Size + _ = _
    omega

/-- What comes next stands where reading has got to, behind the text that has been read. -/
theorem goesOn_of_read {P : Except PatternFault Pattern → Prop}
    (read : (start 0).read cs = .ok r) (result : P r.finish) (tail : List Char) :
    GoesOn P r.offset tail (cs ++ tail) := by
  refine ⟨cs, rfl, ?_, ?_⟩
  · rw [offset_of_read read]
    exact (Nat.zero_add _).symm
  · rw [Pattern.parse_eq_bind, String.toList_ofList, read]
    exact result

theorem openGroup_recorded {kind : GroupKind} {start : Nat}
    (groups : ∀ group ∈ r.groups, group.Recorded cs) (opened : OpenedAt start '(' cs) :
    (r.openGroup kind start).Recorded cs := by
  refine ⟨?_, trivial⟩
  rintro group (_ | ⟨_, outer⟩)
  · exact opened
  · exact groups group outer

theorem closeGroup_keeps (recorded : r.Recorded cs)
    (outside : r.groups = [] → GoesOn IsComplete r.offset [')'] cs) :
    Keeps (Recorded · cs) cs r.closeGroup := by
  unfold closeGroup
  split
  · next outermost => exact ⟨[], outside outermost⟩
  · next group groups open_ =>
    exact ⟨fun outer mem => recorded.groups outer (open_ ▸ List.mem_cons_of_mem _ mem), trivial⟩

theorem startAtom_keeps (recorded : r.Recorded cs) (here : GoesOn IsSettled r.offset [c] cs)
    (outside : r.groups = [] → GoesOn IsComplete r.offset [c] cs) :
    Keeps (Recorded · cs) cs (r.startAtom c) := by
  unfold startAtom
  split
  case h_1 => exact ⟨recorded.groups, [], here⟩
  case h_2 => exact closeGroup_keeps recorded outside
  case h_3 => exact ⟨recorded.groups, recorded.mode⟩
  case h_4 => exact ⟨recorded.groups, ⟨[], here⟩, trivial⟩
  case h_5 =>
    obtain ⟨before, whole, offset, settled⟩ := here
    exact ⟨recorded.groups, before, whole, offset, .inl settled⟩
  all_goals exact ⟨recorded.groups, trivial⟩

theorem stepBetween_keeps {pending : Option Pattern}
    (groups : ∀ group ∈ r.groups, group.Recorded cs)
    (here : GoesOn IsSettled r.offset [c] cs)
    (outside : r.groups = [] → GoesOn IsComplete r.offset [c] cs) :
    Keeps (Recorded · cs) cs (r.stepBetween pending c) := by
  cases quantifier : Quantifier.ofChar? c with
  | none =>
    rw [stepBetween_eq_startAtom quantifier]
    exact startAtom_keeps ⟨groups, trivial⟩ here outside
  | some q =>
    unfold stepBetween
    rw [quantifier]
    cases pending with
    | some p => exact ⟨groups, trivial⟩
    | none => exact ⟨by simp [quantifier], [], here⟩

theorem stepKind_keeps {start : Nat} (groups : ∀ group ∈ r.groups, group.Recorded cs)
    (opened : OpenedAt start '(' cs) : Keeps (Recorded · cs) cs (r.stepKind start c) := by
  unfold stepKind
  split
  case h_4 => trivial
  all_goals exact openGroup_recorded groups opened

theorem stepCode_keeps {start : Nat} {digits : CodeDigits}
    (groups : ∀ group ∈ r.groups, group.Recorded (cs ++ [c])) (code : InCode start digits cs) :
    Keeps (Recorded · (cs ++ [c])) (cs ++ [c]) (r.stepCode start digits c) :=
  code.keeps (fun _ code => ⟨groups, code⟩) fun _ => ⟨groups, trivial⟩

/-- Between constructs a text may end unless a group is open. -/
theorem finish_of_between {pending : Option Pattern} (mode : r.mode = .between pending) :
    IsSettled r.finish ∧ (r.groups = [] → IsComplete r.finish) := by
  unfold finish
  rw [mode]
  cases groups : r.groups with
  | nil => exact ⟨.inl ⟨_, rfl⟩, fun _ => ⟨_, rfl⟩⟩
  | cons group groups => exact ⟨.inr ⟨_, rfl⟩, nofun⟩

theorem take_keeps (read : (start 0).read cs = .ok r) (recorded : r.Recorded cs) (c : Char) :
    Keeps (Recorded · (cs ++ [c])) (cs ++ [c]) (r.take c) := by
  have groups : ∀ group ∈ r.groups, group.Recorded (cs ++ [c]) :=
    fun group mem => OpenedAt.append (recorded.groups group mem) [c]
  have kept : r.mode.Recorded cs := recorded.mode
  unfold take
  -- How the text so far would end matters where the character may be one that is recorded.
  cases mode : r.mode with rw [mode] at kept
  | between pending =>
    obtain ⟨settled, complete⟩ := finish_of_between mode
    exact stepBetween_keeps groups (goesOn_of_read read settled [c])
      fun outside => goesOn_of_read read (complete outside) [c]
  | opened start =>
    have opened : OpenedAt start '(' (cs ++ [c]) := kept.append [c]
    by_cases question : c = '?'
    · simp only [if_pos question]
      exact ⟨groups, opened⟩
    · simp only [if_neg question]
      have settled : IsSettled r.finish := .inr ⟨start, by simp only [finish, mode]⟩
      exact stepBetween_keeps (openGroup_recorded groups opened).groups
        (goesOn_of_read read settled [c]) nofun
  | kind start => exact stepKind_keeps groups (kept.append [c])
  | escape start =>
    have goes : GoesOn IsUnbroken start ['\\', c] (cs ++ [c]) := kept.append [c]
    by_cases code : c = 'u'
    · subst code
      exact ⟨groups, .of_letter goes⟩
    · simp only [if_neg code]
      exact ⟨groups, trivial⟩
  | code start digits => exact stepCode_keeps groups kept
  | set reading =>
    have here : reading.fault = .unclosedSet reading.start →
        GoesOn IsUnbroken r.offset [c] (cs ++ [c]) := by
      intro open_
      refine goesOn_of_read read (.inr ⟨reading.start, ?_⟩) [c]
      simp only [finish, mode, open_]
    refine (SetReading.step_keeps kept here).map fun result recorded => ?_
    cases result with
    | inl reading => exact ⟨groups, recorded⟩
    | inr test => exact ⟨groups, trivial⟩

/-- A step keeps the offsets right, or the character is refused. -/
theorem step_keeps (read : (start 0).read cs = .ok r) (recorded : r.Recorded cs) (c : Char) :
    Keeps (Recorded · (cs ++ [c])) (cs ++ [c]) (r.step c) :=
  (take_keeps read recorded c).map fun _ recorded => ⟨recorded.groups, recorded.mode⟩

/-- Reading on keeps the offsets right, or the text is refused. -/
theorem read_keeps (read : (start 0).read cs = .ok r) (recorded : r.Recorded cs)
    (ds : List Char) : Keeps (Recorded · (cs ++ ds)) (cs ++ ds) (r.read ds) := by
  induction ds generalizing r cs with
  | nil =>
    rw [List.append_nil]
    exact recorded
  | cons d ds ih =>
    have keeps := step_keeps read recorded d
    rw [read_cons, List.append_cons]
    cases step : r.step d with
    | error fault =>
      rw [step] at keeps
      exact keeps.append ds
    | ok next =>
      rw [step] at keeps
      exact ih (read_append_of_eq read (read_singleton_of_eq step)) keeps

theorem recorded_start : (start 0).Recorded [] :=
  ⟨nofun, trivial⟩

theorem recorded_of_read (read : (start 0).read cs = .ok r) : r.Recorded cs := by
  have keeps : Keeps (Recorded · cs) cs ((start 0).read cs) :=
    read_keeps rfl recorded_start cs
  rw [read] at keeps
  exact keeps

theorem refuses_of_read (read : (start 0).read cs = .error fault) : fault.Refuses cs := by
  have keeps : Keeps (Recorded · cs) cs ((start 0).read cs) :=
    read_keeps rfl recorded_start cs
  rw [read] at keeps
  exact keeps

end Reading

end StringTransform
