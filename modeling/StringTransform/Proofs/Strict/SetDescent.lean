import StringTransform.Proofs.Grammar.CodeEscapes
import StringTransform.Proofs.Strict.Cursor

/-!
# Descending into character sets

The members of a character set are read in a loop whose turns read one member each, or the
closing bracket. A turn looks up to two characters ahead to see whether a member is the start
of a range, and the digits of an escape are taken as four bytes at once, which need not be
four characters. All of this comes to what reading one character at a time comes to: where a
descent looks ahead, reading holds a character back.

## Main definitions

* `hexNumber?`, `codeChar?` — the digits of an escape, all at once
* `Descent.codePoint`, `Descent.setEscape` — descending into escapes
* `Descent.charOrRange`, `Descent.setTurn`, `Descent.charSet` — descending into sets

## Main results

* `codeChar?_eq_some_iff` — the digits are those of the grammar
* `Descent.codePoint_tracks`, `Descent.setTurn_tracks`, `Descent.charSet_tracks` — these
  descents agree with reading
-/

namespace StringTransform

/-! ### The digits of an escape -/

/-- A number with one more digit behind it. -/
def appendDigit? (n : Nat) (c : Char) : Option Nat := (hexValue? c).map (16 * n + ·)

/-- The number that hexadecimal digits denote, in front of which a plus sign may stand. -/
def hexNumber? (cs : List Char) : Option Nat :=
  let digits := if cs.head? = some '+' then cs.tail else cs
  if digits = [] then none else digits.foldlM appendDigit? 0

/-- The character whose code point the first four bytes denote. -/
def codeChar? (cs : List Char) : Option Char := do
  let digits ← takeBytes? cs 4
  let n ← hexNumber? digits
  if n.isValidChar then some (Char.ofNat n) else none

theorem utf8Size_of_hexValue? {c : Char} {d : Nat} (digit : hexValue? c = some d) :
    c.utf8Size = 1 :=
  Char.utf8Size_eq_one_iff.mpr (Nat.le_trans (toNat_le_of_hexValue? digit) (by decide))

theorem appendDigit?_eq_some_iff {m n : Nat} {c : Char} :
    appendDigit? m c = some n ↔ ∃ d, hexValue? c = some d ∧ 16 * m + d = n :=
  Option.map_eq_some_iff

/-- Digits are as many as their bytes. -/
theorem length_of_foldlM {cs : List Char} {m n : Nat}
    (number : cs.foldlM appendDigit? m = some n) : cs.length = String.utf8Len cs := by
  induction cs generalizing m with
  | nil => rfl
  | cons c cs ih =>
    rw [List.foldlM_cons] at number
    obtain ⟨k, first, others⟩ := Option.bind_eq_some_iff.mp number
    obtain ⟨d, digit, -⟩ := appendDigit?_eq_some_iff.mp first
    rw [List.length_cons, String.utf8Len_cons, ih others, utf8Size_of_hexValue? digit]

theorem hexNumber?_cons_cons (a b : Char) (cs : List Char) :
    hexNumber? (a :: b :: cs) =
      (Grammar.leadValue? a).bind fun w => (b :: cs).foldlM appendDigit? w := by
  by_cases plus : a = '+'
  · subst plus
    rfl
  · rw [hexNumber?, Grammar.leadValue?, if_neg plus, List.head?_cons,
      if_neg (fun same => plus (Option.some_inj.mp same)), if_neg (List.cons_ne_nil _ _),
      List.foldlM_cons, appendDigit?]
    cases hexValue? a <;> simp

theorem foldlM_three_eq_some_iff {b c d : Char} {w n : Nat} :
    [b, c, d].foldlM appendDigit? w = some n ↔ ∃ x y z, hexValue? b = some x ∧
      hexValue? c = some y ∧ hexValue? d = some z ∧ 16 * (16 * (16 * w + x) + y) + z = n := by
  simp [appendDigit?_eq_some_iff, Option.bind_eq_some_iff]

theorem length_of_hexNumber? {cs : List Char} {n : Nat} (number : hexNumber? cs = some n) :
    cs.length = String.utf8Len cs := by
  cases cs with
  | nil => rfl
  | cons c cs =>
    obtain ⟨-, number⟩ := Option.ite_none_left_eq_some.mp number
    have digits := length_of_foldlM number
    by_cases plus : c = '+'
    · subst plus
      exact congrArg (· + 1) digits
    · simpa [plus] using digits

theorem codePoint_of_hexNumber? {ds : List Char} {n : Nat} (bytes : String.utf8Len ds = 4)
    (number : hexNumber? ds = some n) (scalar : n.isValidChar) :
    Grammar.CodePoint ds (Char.ofNat n) := by
  have length : ds.length = 3 + 1 := (length_of_hexNumber? number).trans bytes
  obtain ⟨a, ds, rfl⟩ := List.exists_cons_of_length_eq_add_one length
  obtain ⟨b, c, d, rfl⟩ := List.length_eq_three.mp (Nat.succ_inj.mp length)
  obtain ⟨w, first, others⟩ := Option.bind_eq_some_iff.mp (hexNumber?_cons_cons a b _ ▸ number)
  obtain ⟨x, y, z, second, third, fourth, rfl⟩ := foldlM_three_eq_some_iff.mp others
  exact .digits first second third fourth scalar

theorem utf8Len_of_codePoint {ds : List Char} {x : Char} (point : Grammar.CodePoint ds x) :
    String.utf8Len ds = 4 := by
  have bytes := utf8Len_of_names (Grammar.names_empty_iff.mpr point) (by decide)
  rwa [CodeDigits.empty, Nat.zero_add] at bytes

/-- Four bytes denote a character if they are digits that name it in the grammar. -/
theorem codeChar?_eq_some_iff {cs : List Char} {x : Char} :
    codeChar? cs = some x ↔ ∃ ds es, cs = ds ++ es ∧ Grammar.CodePoint ds x := by
  constructor
  · intro char
    obtain ⟨ds, taken, others⟩ := Option.bind_eq_some_iff.mp char
    obtain ⟨n, number, named⟩ := Option.bind_eq_some_iff.mp others
    obtain ⟨scalar, same⟩ := Option.ite_none_right_eq_some.mp named
    obtain ⟨es, rfl, bytes⟩ := exists_append_of_takeBytes? taken
    exact ⟨ds, es, rfl, Option.some_inj.mp same ▸ codePoint_of_hexNumber? bytes number scalar⟩
  · rintro ⟨ds, es, rfl, point⟩
    rw [codeChar?, ← utf8Len_of_codePoint point, takeBytes?_append]
    cases point with
    | @digits a b c d w x y z first second third fourth scalar =>
      have number : [b, c, d].foldlM appendDigit? w =
          some (16 * (16 * (16 * w + x) + y) + z) :=
        foldlM_three_eq_some_iff.mpr ⟨x, y, z, second, third, fourth, rfl⟩
      show (hexNumber? [a, b, c, d]).bind _ = _
      rw [hexNumber?_cons_cons, first, Option.bind_some, number, Option.bind_some, if_pos scalar]

/-! ### Descending -/

namespace Descent

/-- The four digits of an escape, with the backslash at the offset `start`. -/
def codePoint (start : Nat) : Descent Char := do
  let cs ← slice (← get)
  match codeChar? cs with
  | none => throw (.invalidUnicodeEscape start)
  | some x =>
    moveTo ((← get) + 4)
    return x

/-- What stands behind the backslash of an escape in a set. -/
def setEscape : Descent Item := do
  let start ← backslashBefore
  match ← advance with
  | none => throw .danglingEscape
  | some c =>
    match Grammar.kind? c with
    | some item => return item
    | none =>
      if c = 'u' then
        return .char (← codePoint start)
      else
        return .char (unescape c)

/-- A member of a set whose first character has been read. -/
def setMember (c : Char) : Descent Item := do
  if c = '\\' then
    setEscape
  else
    return .char c

/-- Whether a hyphen is next, and behind it something other than the end of the set. -/
def rangeFollows : Descent Bool := do
  if (← peek) = some '-' then
    let cs ← slice ((← get) + 1)
    return cs.head?.any (· != ']')
  else
    return false

/-- The end of the range that `lo` starts, in the set that has been opened at `start`. -/
def rangeEnd (start : Nat) (lo : Char) : Descent Char := do
  match ← advance with
  | none => throw (.unclosedSet start)
  | some c =>
    match ← setMember c with
    | .char hi => return hi
    | _ => throw (.invalidRange lo '\\')

/-- A member that the character `lo` starts: a range, or the character alone. -/
def charOrRange (start : Nat) (lo : Char) : Descent Item := do
  if ← rangeFollows then
    let _ ← advance
    let hi ← rangeEnd start lo
    if hi < lo then
      throw (.invalidRange lo hi)
    else
      return .range lo hi
  else
    return .char lo

/-- One turn of the loop over a set that has been opened at `start`: a member, or `none` for
the closing bracket. -/
def setTurn (start : Nat) (first : Bool) : Descent (Option Item) := do
  match ← advance with
  | none => throw (.unclosedSet start)
  | some c =>
    if c = ']' ∧ first = false then
      return none
    else
      match ← setMember c with
      | .char lo => return some (← charOrRange start lo)
      | item => return some item

/-- The turns of the loop, each of which has to move the cursor. -/
def setMembers : Nat → Nat → Bool → List Item → Bool → Descent CharTest
  | 0, _, _, _, _ => stuck
  | depth + 1, start, negated, items, first => do
    let offset ← get
    let turn ← setTurn start first
    requireBeyond offset
    match turn with
    | none => return .set negated items
    | some item => setMembers depth start negated (items ++ [item]) false

/-- What stands behind the opening bracket at `start`. -/
def charSet (depth start : Nat) : Descent CharTest := do
  let negated ← expect '^'
  setMembers depth start negated [] true

end Descent

/-! ### Readings of sets -/

/-- What an escape in a set leads to, behind `lo` and a hyphen if there is a `lo`. -/
def SetReading.takeItem (set : SetReading) (lo? : Option Char) :
    Item → Except PatternFault SetReading
  | .char c => set.takeChar lo? c
  | item => set.takeKind lo? item

theorem SetReading.takeItem_of_kind {set : SetReading} {lo? : Option Char} {c : Char} {item : Item}
    (kind : Grammar.kind? c = some item) : set.takeItem lo? item = set.takeKind lo? item := by
  unfold Grammar.kind? at kind
  split at kind <;> cases kind <;> rfl

theorem Reading.step_of_set {r : Reading} {set : SetReading} {c : Char}
    (mode : r.mode = .set set) :
    r.step c = (set.step r.offset c).map (Sum.elim
      (fun next => { r with mode := .set next, offset := r.offset + c.utf8Size })
      fun test => { r.hold (.single test) with offset := r.offset + c.utf8Size }) := by
  rw [step, take, mode]
  dsimp only
  cases set.step r.offset c with
  | error fault => rfl
  | ok next => cases next <;> rfl

/-- It makes no difference between sets if both take the next character alike. -/
theorem Reading.outcome_congr {r : Reading} {set other : SetReading} {c : Char} {cs : List Char}
    (mode : r.mode = .set set) (same : set.step r.offset c = other.step r.offset c) :
    r.outcome (c :: cs) = ({ r with mode := .set other } : Reading).outcome (c :: cs) := by
  rw [outcome_cons, outcome_cons, step_of_set mode, step_of_set rfl, same]
  rfl

/-- The next character starts a member of the set, or the end of the range that `lo` starts. -/
def SetReading.AwaitsMember (set : SetReading) (lo? : Option Char) (c : Char) : Prop :=
  ∀ offset, set.step offset c =
    (if c = '\\' then .ok { set with mode := .escape lo? offset } else set.takeChar lo? c).map .inl

namespace SetReading

variable {set : SetReading} {lo c : Char}

theorem awaitsMember_first (mode : set.mode = .first) : set.AwaitsMember none c := by
  intro offset
  simp only [step, mode, startItem, takeChar]
  split <;> rfl

theorem awaitsMember_item (mode : set.mode = .item) (inside : c ≠ ']') :
    set.AwaitsMember none c := by
  intro offset
  simp only [step, mode, if_neg inside, startItem, takeChar]
  split <;> rfl

theorem awaitsMember_dashed (mode : set.mode = .dashed lo) (inside : c ≠ ']') :
    set.AwaitsMember (some lo) c := by
  intro offset
  simp only [step, mode, if_neg inside]
  split <;> rfl

end SetReading

/-- What a turn leads to: the set with one more member, or the atom that the set is. -/
def SetReading.afterTurn (set : SetReading) : Option Item → Mode
  | none => .between (some (.single set.test))
  | some item => .set (set.push item)

/-- The members come first if no caret stands in front of them. -/
theorem Reading.outcome_of_opened {r : Reading} {start : Nat} {cs : List Char}
    (mode : r.mode = .set (.opened start)) (plain : cs.head? ≠ some '^') :
    r.outcome cs =
      ({ r with mode := .set ⟨start, false, [], .first⟩ } : Reading).outcome cs := by
  cases cs with
  | nil =>
    obtain ⟨offset, level, groups, stage⟩ := r
    subst mode
    rfl
  | cons c cs =>
    have other : c ≠ '^' := fun same => plain (same ▸ List.head?_cons)
    refine outcome_congr mode ?_
    simp only [SetReading.step, SetReading.opened, if_neg other, SetReading.startItem]

/-- A character that is held back is a member if it does not start a range. -/
theorem Reading.outcome_of_held {r : Reading} {set : SetReading} {lo : Char} {cs : List Char}
    (mode : r.mode = .set { set with mode := .held lo }) (alone : ¬Grammar.StartsRange cs) :
    r.outcome cs = ({ r with mode := .set (set.push (.char lo)) } : Reading).outcome cs := by
  obtain ⟨offset, level, groups, stage⟩ := r
  subst mode
  cases cs with
  | nil => rfl
  | cons c cs =>
    by_cases hyphen : c = '-'
    · subst hyphen
      cases cs with
      | nil => rfl
      | cons d ds =>
        have close : d = ']' := by_contra fun inside => alone ⟨d, ds, rfl, inside⟩
        subst close
        rfl
    · refine outcome_congr rfl ?_
      simp only [SetReading.step, if_neg hyphen, SetReading.push]

namespace Descent

/-! ### Agreement with reading -/

variable {s : String} {result : Except PatternFault (Pattern × Nat)} {r : Reading}
  {set : SetReading} {lo? : Option Char} {start : Nat} {first : Bool} {c lo : Char}
  {cs : List Char}

theorem codePoint_tracks (code : r.mode.AtDigits start .empty) (ahead : r.Ahead s result cs) :
    Tracks s result (codePoint start) r.offset fun x =>
      r.GoesOnIn s result cs (r.mode.named x) := by
  rw [codePoint]
  refine .step get_run (.step (slice_run ahead.here) ?_)
  cases char : codeChar? cs with
  | none =>
    -- The four bytes are refused at once, and one of the characters that make them up later on.
    refine .throw (ahead.refused_later (Reading.refused_of_not_names code ?_))
    rintro ds es x rfl names
    have named := codeChar?_eq_some_iff.mpr ⟨ds, es, rfl, Grammar.names_empty_iff.mp names⟩
    exact nomatch char.symm.trans named
  | some x =>
    obtain ⟨ds, es, rfl, point⟩ := codeChar?_eq_some_iff.mp char
    have names := Grammar.names_empty_iff.mpr point
    have bytes := utf8Len_of_codePoint point
    have there : IsAt s (r.offset + 4) es := bytes ▸ ahead.here.append
    refine .step get_run (.step (moveTo_run there) (.pure ⟨es, there, ?_, ?_⟩))
    · have nonempty : 0 < ds.length := by cases point; exact Nat.succ_pos 3
      rw [List.length_append]
      omega
    · rw [← ahead.comes, Reading.outcome, Reading.read_append, Reading.read_of_names code names,
        bytes]
      cases r.mode.named x <;> rfl

theorem setEscape_tracks (mode : r.mode = .set set) (escape : set.mode = .escape lo? start)
    (back : IsAt s start ('\\' :: cs)) (behind : r.offset = start + 1)
    (ahead : r.Ahead s result cs) :
    Tracks s result setEscape r.offset fun item =>
      r.GoesOnIn s result cs ((set.takeItem lo? item).map .set) := by
  rw [setEscape]
  refine .step (behind ▸ backslashBefore_run back) ?_
  cases cs with
  | nil =>
    refine .step (advance_run_nil ahead.here) (.throw (ahead.refused_at_end ?_))
    rw [Reading.finish, mode]
    simp only [SetReading.fault, escape]
  | cons c cs =>
    refine .step (advance_run ahead.here) ?_
    have comes : result = (set.takeEscape lo? start c).bind fun next =>
        ({ r with mode := .set next, offset := r.offset + c.utf8Size } : Reading).outcome cs := by
      rw [← ahead.comes, Reading.outcome_cons, Reading.step_of_set mode]
      simp only [SetReading.step, escape]
      cases set.takeEscape lo? start c <;> rfl
    dsimp only
    cases kind : Grammar.kind? c with
    | some item =>
      refine .pure ⟨cs, ahead.here.next, Nat.lt_succ_self _, ?_⟩
      rw [comes, SetReading.takeEscape_of_kind kind, SetReading.takeItem_of_kind kind]
      cases set.takeKind lo? item <;> rfl
    | none =>
      dsimp only
      by_cases code : c = 'u'
      · rw [if_pos code]
        subst code
        have atEscape : r.mode.AtEscape start := by
          obtain ⟨bracket, negated, items, stage⟩ := set
          subst escape
          exact mode ▸ .inside
        obtain ⟨digits, letter, atDigits, same⟩ := Reading.step_letter atEscape
        refine .bind (codePoint_tracks (r := { r with mode := digits, offset := r.offset + 1 })
          atDigits (ahead.step letter)) ?_
        rintro x stop ⟨ds, there, shorter, comes⟩
        have named : digits.named x = (set.takeItem lo? (.char x)).map .set := by
          rw [same, mode, Mode.named, escape]
          rfl
        exact .pure ⟨ds, there, Nat.lt_succ_of_lt shorter, named ▸ comes⟩
      · rw [if_neg code]
        refine .pure ⟨cs, ahead.here.next, Nat.lt_succ_self _, ?_⟩
        rw [comes, SetReading.takeEscape_of_single kind code, SetReading.takeItem]
        cases set.takeChar lo? (unescape c) <;> rfl

theorem setMember_tracks (mode : r.mode = .set set) (next : set.AwaitsMember lo? c)
    (ahead : r.Ahead s result (c :: cs)) :
    Tracks s result (setMember c) (r.offset + c.utf8Size) fun item =>
      r.GoesOnIn s result (c :: cs) ((set.takeItem lo? item).map .set) := by
  have read := Reading.step_of_set (c := c) mode
  rw [next] at read
  rw [setMember]
  by_cases escaped : c = '\\'
  · subst escaped
    rw [if_pos rfl] at read ⊢
    refine (setEscape_tracks rfl rfl ahead.here rfl (ahead.step read)).mono ?_
    rintro item stop ⟨ds, there, shorter, comes⟩
    refine ⟨ds, there, Nat.lt_succ_of_lt shorter, ?_⟩
    rw [comes]
    -- An escape leads to the same set from any stage.
    cases item <;> cases lo? <;> rfl
  · rw [if_neg escaped] at read ⊢
    refine .pure ⟨cs, ahead.here.next, Nat.lt_succ_self _, ?_⟩
    rw [← ahead.comes, Reading.outcome_cons, read, SetReading.takeItem]
    cases set.takeChar lo? c <;> rfl

theorem rangeFollows_run {i : Nat} (here : IsAt s i ('-' :: c :: cs)) (inside : c ≠ ']') :
    rangeFollows s i = some (.ok (true, i)) := by
  have beyond : IsAt s (i + 1) (c :: cs) := here.next
  have other : (c :: cs).head?.any (· != ']') = true := by simp [inside]
  rw [rangeFollows, bind_run_of_ok (peek_run here), if_pos List.head?_cons,
    bind_run_of_ok get_run, bind_run_of_ok (slice_run beyond), other]
  rfl

theorem rangeFollows_run_of_alone {i : Nat} (here : IsAt s i cs)
    (alone : ¬Grammar.StartsRange cs) : rangeFollows s i = some (.ok (false, i)) := by
  rw [rangeFollows, bind_run_of_ok (peek_run here)]
  by_cases hyphen : cs.head? = some '-'
  · obtain ⟨ds, rfl⟩ := List.head?_eq_some_iff.mp hyphen
    have beyond : IsAt s (i + 1) ds := here.next
    have close : ds.head?.any (· != ']') = false := by
      rw [← Bool.not_eq_true, Option.any_eq_true]
      rintro ⟨c, first, inside⟩
      obtain ⟨es, rfl⟩ := List.head?_eq_some_iff.mp first
      exact alone ⟨c, es, rfl, bne_iff_ne.mp inside⟩
    rw [if_pos hyphen, bind_run_of_ok get_run, bind_run_of_ok (slice_run beyond), close]
    rfl
  · rw [if_neg hyphen]
    rfl

theorem rangeEnd_tracks (mode : r.mode = .set set) (dashed : set.mode = .dashed lo)
    (inside : c ≠ ']') (ahead : r.Ahead s result (c :: cs)) :
    Tracks s result (rangeEnd start lo) r.offset fun hi =>
      r.GoesOnIn s result (c :: cs) ((set.takeChar (some lo) hi).map .set) := by
  rw [rangeEnd]
  refine .step (advance_run ahead.here) ?_
  refine .bind (setMember_tracks mode (SetReading.awaitsMember_dashed dashed inside) ahead) ?_
  intro item stop goes
  cases item with
  | char hi => exact .pure goes
  | range | digit | word | space => exact .throw goes.refused

theorem charOrRange_tracks (mode : r.mode = .set { set with mode := .held lo })
    (ahead : r.Ahead s result cs) :
    Tracks s result (charOrRange start lo) r.offset fun item stop => ∃ ds,
      ({ r with mode := .set (set.push item), offset := stop } : Reading).Ahead s result ds ∧
        ds.length ≤ cs.length := by
  rw [charOrRange]
  by_cases range : Grammar.StartsRange cs
  · obtain ⟨d, ds, rfl, inside⟩ := range
    have read : r.step '-' =
        .ok { r with mode := .set { set with mode := .dashed lo }, offset := r.offset + 1 } :=
      Reading.step_of_set mode
    refine .step (rangeFollows_run ahead.here inside) ?_
    rw [if_pos rfl]
    refine .step (advance_run ahead.here) ?_
    refine .bind (rangeEnd_tracks rfl rfl inside (ahead.step read)) ?_
    intro hi stop goes
    by_cases reversed : hi < lo
    · rw [SetReading.takeChar, if_neg (not_le.mpr reversed)] at goes
      rw [if_pos reversed]
      exact .throw goes.refused
    · rw [SetReading.takeChar, if_pos (not_lt.mp reversed)] at goes
      rw [if_neg reversed]
      obtain ⟨es, behind, shorter⟩ := goes.nears
      exact .pure ⟨es, behind, Nat.le_succ_of_le (Nat.le_of_lt shorter)⟩
  · -- A hyphen in front of the closing bracket is left for the next turn.
    refine .step (rangeFollows_run_of_alone ahead.here range) ?_
    refine .pure ⟨cs, ⟨ahead.here, ?_⟩, Nat.le_refl _⟩
    exact (Reading.outcome_of_held mode range).symm.trans ahead.comes

theorem setTurn_tracks (mode : r.mode = .set set) (opened : set.start = start)
    (place : set.mode = if first then .first else .item) (ahead : r.Ahead s result cs) :
    Tracks s result (setTurn start first) r.offset fun turn =>
      ({ r with mode := set.afterTurn turn } : Reading).Nears s result cs := by
  rw [setTurn]
  cases cs with
  | nil =>
    refine .step (advance_run_nil ahead.here) (.throw (ahead.refused_at_end ?_))
    rw [Reading.finish, mode]
    cases first <;> simp [SetReading.fault, place, opened]
  | cons c cs =>
    refine .step (advance_run ahead.here) ?_
    dsimp only
    by_cases close : c = ']' ∧ first = false
    · obtain ⟨rfl, rfl⟩ := close
      rw [if_pos ⟨rfl, rfl⟩]
      have read := Reading.step_of_set (c := ']') mode
      simp only [SetReading.step, place] at read
      exact .pure ⟨cs, ahead.step read, Nat.lt_succ_self _⟩
    · rw [if_neg close]
      have awaits : set.AwaitsMember none c := by
        cases first with
        | true => exact SetReading.awaitsMember_first place
        | false => exact SetReading.awaitsMember_item place fun same => close ⟨same, rfl⟩
      refine .bind (setMember_tracks mode awaits ahead) ?_
      intro item stop goes
      cases item with
      | char lo =>
        obtain ⟨ds, held, shorter⟩ := goes.nears
        refine .bind (charOrRange_tracks rfl held) ?_
        rintro item stop ⟨es, behind, fewer⟩
        exact .pure ⟨es, behind, Nat.lt_of_le_of_lt fewer shorter⟩
      | range | digit | word | space => exact .pure goes.nears

theorem setMembers_tracks {depth : Nat} (mode : r.mode = .set set)
    (place : set.mode = if first then .first else .item) (deep : cs.length < depth)
    (ahead : r.Ahead s result cs) :
    Tracks s result (setMembers depth set.start set.negated set.items.reverse first) r.offset
      fun test => (r.hold (.single test)).Nears s result cs := by
  -- Every turn leaves fewer characters, be it for the next turn or behind the set.
  induction depth generalizing r set first cs with
  | zero => exact absurd deep (Nat.not_lt_zero _)
  | succ depth ih =>
    rw [setMembers]
    refine .step get_run (.bind (setTurn_tracks mode rfl place ahead) ?_)
    rintro turn stop ⟨ds, behind, shorter⟩
    refine .step (requireBeyond_run (ahead.here.lt behind.here shorter)) ?_
    cases turn with
    | none => exact .pure ⟨ds, behind, shorter⟩
    | some item =>
      -- Members are gathered in order here, and in reverse by reading.
      have others : Tracks s result
          (setMembers depth set.start set.negated (set.push item).items.reverse false) stop
          fun test => (r.hold (.single test)).Nears s result ds :=
        ih rfl rfl (Nat.lt_of_lt_of_le shorter (Nat.le_of_lt_succ deep)) behind
      rw [SetReading.push, List.reverse_cons] at others
      exact others.mono fun test stop nears => nears.trans shorter

theorem charSet_tracks {depth : Nat} (mode : r.mode = .set (.opened start))
    (deep : cs.length < depth) (ahead : r.Ahead s result cs) :
    Tracks s result (charSet depth start) r.offset fun test =>
      (r.hold (.single test)).Nears s result cs := by
  rw [charSet]
  by_cases caret : cs.head? = some '^'
  · obtain ⟨ds, rfl⟩ := List.head?_eq_some_iff.mp caret
    let set : SetReading := ⟨start, true, [], .first⟩
    have read : r.step '^' = .ok { r with mode := .set set, offset := r.offset + 1 } :=
      Reading.step_of_set mode
    have members : Tracks s result (setMembers depth start true [] true) (r.offset + 1) fun test =>
        (r.hold (.single test)).Nears s result ds :=
      setMembers_tracks rfl rfl (Nat.lt_of_succ_lt deep) (ahead.step read)
    refine .step (expect_run ahead.here) (members.mono ?_)
    exact fun test stop nears => nears.trans (Nat.lt_succ_self _)
  · -- Without a caret reading has not taken any character yet.
    let set : SetReading := ⟨start, false, [], .first⟩
    have comes := Reading.outcome_of_opened mode caret
    have members : Tracks s result (setMembers depth start false [] true) r.offset fun test =>
        (r.hold (.single test)).Nears s result cs :=
      setMembers_tracks (r := { r with mode := .set set }) rfl rfl deep
        ⟨ahead.here, comes.symm.trans ahead.comes⟩
    exact .step (expect_run_of_ne ahead.here caret) members

end Descent

end StringTransform
