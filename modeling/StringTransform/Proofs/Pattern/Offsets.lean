import StringTransform.Pattern.Reading

/-!
# Reading further on

Where a pattern text starts does not matter to how it is read. The offsets that a reading
keeps only serve to tell where a fault is, so reading the same characters `k` bytes further
on gives the same pattern, or the same fault `k` bytes further on.

## Main definitions

* `PatternFault.shift`, `Reading.shift` — a fault and a reading, moved by some bytes
* `shiftResult` — the result of reading, moved by some bytes

## Main results

* `Reading.step_shift`, `Reading.read_shift` — reading commutes with moving
* `Pattern.parseChars_shift`, `Pattern.parse_eq_ok_iff_parseChars` — so does the whole of it
-/

namespace StringTransform

/-! ### Results -/

section

variable {ε α β : Type} {x : Except ε α} {b : β}

theorem map_eq_ok_iff {f : α → β} : x.map f = .ok b ↔ ∃ a, x = .ok a ∧ f a = b := by
  cases x <;> simp [Except.map]

theorem bind_eq_ok_iff {f : α → Except ε β} : x.bind f = .ok b ↔ ∃ a, x = .ok a ∧ f a = .ok b := by
  cases x <;> simp [Except.bind]

end

/-- The same fault, `k` bytes further on. -/
def PatternFault.shift (k : Nat) : PatternFault → PatternFault
  | unclosedGroup offset => unclosedGroup (k + offset)
  | unclosedSet offset => unclosedSet (k + offset)
  | unmatchedParen offset => unmatchedParen (k + offset)
  | danglingEscape => danglingEscape
  | nothingToRepeat quantifier offset => nothingToRepeat quantifier (k + offset)
  | unsupportedGroup kind => unsupportedGroup kind
  | invalidUnicodeEscape offset => invalidUnicodeEscape (k + offset)
  | invalidRange lo hi => invalidRange lo hi

/-- The result of reading `k` bytes further on, where `move` is what becomes of a value. -/
def shiftResult {α β : Type} (k : Nat) (move : α → β) :
    Except PatternFault α → Except PatternFault β
  | .ok a => .ok (move a)
  | .error fault => .error (fault.shift k)

section

variable {α β γ : Type} {k : Nat}

@[simp] theorem shiftResult_ok (move : α → β) (a : α) :
    shiftResult k move (.ok a) = .ok (move a) := rfl

@[simp] theorem shiftResult_error (move : α → β) (fault : PatternFault) :
    shiftResult k move (.error fault) = .error (fault.shift k) := rfl

theorem shiftResult_map (move : β → γ) (f : α → β) (x : Except PatternFault α) :
    shiftResult k move (x.map f) = shiftResult k (fun a => move (f a)) x := by
  cases x <;> rfl

theorem map_shiftResult (f : β → γ) (move : α → β) (x : Except PatternFault α) :
    (shiftResult k move x).map f = shiftResult k (fun a => f (move a)) x := by
  cases x <;> rfl

theorem shiftResult_eq_ok_iff {move : α → β} {x : Except PatternFault α} {b : β} :
    shiftResult k move x = .ok b ↔ ∃ a, x = .ok a ∧ move a = b := by
  cases x <;> simp

theorem shiftResult_bind {move : α → β} {f : α → Except PatternFault γ} {δ : Type}
    {g : β → Except PatternFault δ} {move' : γ → δ}
    (h : ∀ a, g (move a) = shiftResult k move' (f a)) (x : Except PatternFault α) :
    (shiftResult k move x).bind g = shiftResult k move' (x.bind f) := by
  cases x with
  | error fault => rfl
  | ok a => exact h a

end

variable {k : Nat}

/-! ### Sets -/

def SetMode.shift (k : Nat) : SetMode → SetMode
  | escape lo start => escape lo (k + start)
  | code lo start digits => code lo (k + start) digits
  | mode => mode

namespace SetReading

/-- The reading of the same set, `k` bytes further on. -/
def shift (k : Nat) (set : SetReading) : SetReading :=
  { set with start := k + set.start, mode := set.mode.shift k }

variable (set : SetReading)

theorem startItem_shift (offset : Nat) (c : Char) :
    (set.shift k).startItem (k + offset) c = (set.startItem offset c).shift k := by
  unfold startItem
  split <;> rfl

theorem takeChar_shift (lo : Option Char) (c : Char) :
    (set.shift k).takeChar lo c = shiftResult k (shift k) (set.takeChar lo c) := by
  cases lo with
  | none => rfl
  | some lo =>
    unfold takeChar
    by_cases ordered : lo ≤ c
    · simp only [if_pos ordered]; rfl
    · simp only [if_neg ordered]; rfl

theorem takeKind_shift (lo : Option Char) (item : Item) :
    (set.shift k).takeKind lo item = shiftResult k (shift k) (set.takeKind lo item) := by
  cases lo <;> rfl

theorem takeEscape_shift (lo : Option Char) (start : Nat) (c : Char) :
    (set.shift k).takeEscape lo (k + start) c =
      shiftResult k (shift k) (set.takeEscape lo start c) := by
  unfold takeEscape
  split
  · exact set.takeKind_shift lo _
  · exact set.takeKind_shift lo _
  · exact set.takeKind_shift lo _
  · rfl
  · exact set.takeChar_shift lo _

theorem takeDigit_shift (lo : Option Char) (start : Nat) (digits : CodeDigits) (c : Char) :
    (set.shift k).takeDigit lo (k + start) digits c =
      shiftResult k (shift k) (set.takeDigit lo start digits c) := by
  unfold takeDigit
  cases digits.extend? c with
  | none => rfl
  | some more =>
    by_cases unfinished : more.count < 4
    · simp only [if_pos unfinished]; rfl
    · simp only [if_neg unfinished]
      cases more.char? with
      | none => rfl
      | some c => exact set.takeChar_shift lo c

/-- A step inside a set commutes with moving the set. -/
theorem step_shift (offset : Nat) (c : Char) :
    (set.shift k).step (k + offset) c =
      shiftResult k (Sum.map (shift k) id) (set.step offset c) := by
  -- A step starts a member or takes what completes one, and both commute.
  have startItem (set : SetReading) :
      Except.ok (Sum.inl ((set.shift k).startItem (k + offset) c)) =
        shiftResult k (Sum.map (shift k) (id : CharTest → CharTest))
          (.ok (.inl (set.startItem offset c))) := by
    rw [startItem_shift]
    rfl
  have complete {x y : Except PatternFault SetReading} (h : y = shiftResult k (shift k) x) :
      y.map Sum.inl =
        shiftResult k (Sum.map (shift k) (id : CharTest → CharTest)) (x.map .inl) := by
    rw [h, map_shiftResult, shiftResult_map]
    rfl
  obtain ⟨start, negated, items, mode⟩ := set
  cases mode with
  | opening =>
    simp only [step, shift, SetMode.shift]
    split
    · rfl
    · exact startItem ⟨start, negated, items, .opening⟩
  | first => exact startItem ⟨start, negated, items, .first⟩
  | item =>
    simp only [step, shift, SetMode.shift]
    split
    · rfl
    · exact startItem ⟨start, negated, items, .item⟩
  | held lo =>
    simp only [step, shift, SetMode.shift]
    split
    · rfl
    · split
      · rfl
      · exact startItem (push ⟨start, negated, items, .held lo⟩ (.char lo))
  | dashed lo =>
    simp only [step, shift, SetMode.shift]
    split
    · rfl
    · split
      · rfl
      · exact complete (takeChar_shift ⟨start, negated, items, .dashed lo⟩ (some lo) c)
  | escape lo back => exact complete (takeEscape_shift _ lo back c)
  | code lo back digits => exact complete (takeDigit_shift _ lo back digits c)

theorem fault_shift : (set.shift k).fault = set.fault.shift k := by
  obtain ⟨start, negated, items, mode⟩ := set
  cases mode <;> rfl

end SetReading

/-! ### Patterns -/

def OpenGroup.shift (k : Nat) (group : OpenGroup) : OpenGroup :=
  { group with start := k + group.start }

def Mode.shift (k : Nat) : Mode → Mode
  | between pending => between pending
  | opened start => opened (k + start)
  | kind start => kind (k + start)
  | escape start => escape (k + start)
  | code start digits => code (k + start) digits
  | set reading => set (reading.shift k)

namespace Reading

/-- The reading of the same characters, `k` bytes further on. -/
def shift (k : Nat) (r : Reading) : Reading :=
  ⟨k + r.offset, r.level, r.groups.map (·.shift k), r.mode.shift k⟩

variable (r : Reading)

theorem closeGroup_shift : (r.shift k).closeGroup = shiftResult k (shift k) r.closeGroup := by
  obtain ⟨offset, level, groups, mode⟩ := r
  cases groups <;> rfl

theorem startAtom_shift (c : Char) :
    (r.shift k).startAtom c = shiftResult k (shift k) (r.startAtom c) := by
  unfold startAtom
  split
  case h_2 => exact r.closeGroup_shift
  all_goals rfl

theorem stepBetween_shift (pending : Option Pattern) (c : Char) :
    (r.shift k).stepBetween pending c = shiftResult k (shift k) (r.stepBetween pending c) := by
  unfold stepBetween
  split
  · rfl
  · rfl
  · exact (r.flush _).startAtom_shift c

theorem stepKind_shift (start : Nat) (c : Char) :
    (r.shift k).stepKind (k + start) c = shiftResult k (shift k) (r.stepKind start c) := by
  unfold stepKind
  split <;> rfl

theorem stepCode_shift (start : Nat) (digits : CodeDigits) (c : Char) :
    (r.shift k).stepCode (k + start) digits c =
      shiftResult k (shift k) (r.stepCode start digits c) := by
  unfold stepCode
  cases digits.extend? c with
  | none => rfl
  | some more =>
    by_cases unfinished : more.count < 4
    · simp only [if_pos unfinished]; rfl
    · simp only [if_neg unfinished]
      cases more.char? <;> rfl

theorem take_shift (c : Char) :
    (r.shift k).take c = shiftResult k (shift k) (r.take c) := by
  obtain ⟨offset, level, groups, mode⟩ := r
  cases mode with
  | between pending => exact stepBetween_shift _ pending c
  | opened start =>
    simp only [take, shift, Mode.shift]
    split
    · rfl
    · exact stepBetween_shift (openGroup ⟨offset, level, groups, .opened start⟩ .plain start) none c
  | kind start => exact stepKind_shift _ start c
  | escape start =>
    simp only [take, shift, Mode.shift]
    split <;> rfl
  | code start digits => exact stepCode_shift _ start digits c
  | set reading =>
    simp only [take, shift, Mode.shift, SetReading.step_shift, map_shiftResult, shiftResult_map]
    cases reading.step offset c with
    | error fault => rfl
    | ok result => cases result <;> rfl

/-- A step commutes with moving the reading. -/
theorem step_shift (c : Char) : (r.shift k).step c = shiftResult k (shift k) (r.step c) := by
  rw [step, step, take_shift, map_shiftResult, shiftResult_map]
  cases r.take c with
  | error fault => rfl
  | ok next =>
    simp only [shiftResult_ok, shift, Nat.add_assoc]

theorem read_shift (cs : List Char) :
    (r.shift k).read cs = shiftResult k (shift k) (r.read cs) := by
  induction cs generalizing r with
  | nil => rfl
  | cons c cs ih =>
    show (step (r.shift k) c).bind (fun next => next.read cs) = _
    rw [step_shift]
    apply shiftResult_bind
    intro next
    exact ih next

theorem finish_shift : (r.shift k).finish = shiftResult k id r.finish := by
  obtain ⟨offset, level, groups, mode⟩ := r
  cases mode with
  | between pending => cases groups <;> rfl
  | set reading => exact congrArg Except.error reading.fault_shift
  | _ => rfl

end Reading

/-- Reading the same characters `k` bytes further on gives the same pattern and stops `k`
bytes further on, or finds the same fault `k` bytes further on. -/
theorem Pattern.parseChars_shift (k offset : Nat) (cs : List Char) :
    parseChars (k + offset) cs =
      shiftResult k (fun result => (result.1, k + result.2)) (parseChars offset cs) := by
  have moved : Reading.start (k + offset) = (Reading.start offset).shift k := rfl
  rw [parseChars, parseChars, moved, Reading.read_shift]
  apply shiftResult_bind
  intro r
  rw [Reading.finish_shift, map_shiftResult, shiftResult_map]
  rfl

/-- A text denotes the same pattern wherever it starts. -/
theorem Pattern.parse_eq_ok_iff_parseChars {source : String} {p : Pattern} (offset : Nat) :
    parse source = .ok p ↔ ∃ stop, parseChars offset source.toList = .ok (p, stop) := by
  have moved : parseChars offset source.toList = shiftResult offset
      (fun result => (result.1, offset + result.2)) (parseChars 0 source.toList) :=
    parseChars_shift offset 0 source.toList
  rw [moved, parse, map_eq_ok_iff]
  simp only [shiftResult_eq_ok_iff]
  constructor
  · rintro ⟨⟨p, stop⟩, parsed, rfl⟩
    exact ⟨offset + stop, ⟨p, stop⟩, parsed, rfl⟩
  · rintro ⟨_, ⟨p, stop⟩, parsed, moved⟩
    exact ⟨⟨p, stop⟩, parsed, congrArg Prod.fst moved⟩

end StringTransform
