import StringTransform.Proofs.Strict.Matching
import StringTransform.Proofs.Pattern.Suffixes

/-!
# Strict cursors

A pattern text can be read by descent: a cursor stands at some byte of the text, and every
construct has a procedure of its own that moves the cursor over it, calling the procedures of
its parts. Reading one character at a time cannot go wrong, since nothing but characters is
ever looked at, and it ends with the text. A cursor can come to stand inside a character or
behind the end, and a descent need not come to an end at all. In all of these cases it has no
result. A fault of the text is a proper result.

To show that a descent always has a result it is followed next to the reading of the same
characters: whatever it does, reading is left with what stands behind the cursor, and comes
to the same outcome from there.

## Main definitions

* `afterBytes?`, `takeBytes?` — cutting a text at a byte, where a character has to start
* `Descent` — procedures that move a cursor over a pattern text
* `IsAt` — what stands behind a cursor
* `Reading.Ahead` — what reading is left with, and what it comes to
* `Descent.Tracks` — a descent has a result, which agrees with the outcome of reading

## Main results

* `Descent.peek_run`, `Descent.advance_run`, `Descent.backslashBefore_run` — cursors at the
  start of a character
* `Descent.Tracks.bind` — one descent behind the other
-/

namespace StringTransform

/-! ### Cutting a text -/

/-- The characters of a text from a byte offset on, which has to be that of a character or
that of the end. -/
def afterBytes? : List Char → Nat → Option (List Char)
  | [], n => if n = 0 then some [] else none
  | c :: cs, n => if n = 0 then some (c :: cs) else (sub? n c.utf8Size).bind (afterBytes? cs)

/-- The characters that make up the first bytes of a text, if no character continues behind
them. -/
def takeBytes? : List Char → Nat → Option (List Char)
  | [], n => if n = 0 then some [] else none
  | c :: cs, n =>
    if n = 0 then some [] else ((sub? n c.utf8Size).bind (takeBytes? cs)).map (c :: ·)

theorem afterBytes?_append (cs ds : List Char) :
    afterBytes? (cs ++ ds) (String.utf8Len cs) = some ds := by
  induction cs with
  | nil => cases ds <;> rfl
  | cons c cs ih =>
    have positive : String.utf8Len cs + c.utf8Size ≠ 0 := by have := c.utf8Size_pos; omega
    have bytes := sub?_eq (Nat.le_add_left c.utf8Size (String.utf8Len cs))
    rw [List.cons_append, String.utf8Len_cons, afterBytes?, if_neg positive, bytes,
      Nat.add_sub_cancel]
    exact ih

theorem takeBytes?_append (cs ds : List Char) :
    takeBytes? (cs ++ ds) (String.utf8Len cs) = some cs := by
  induction cs with
  | nil => cases ds <;> rfl
  | cons c cs ih =>
    have positive : String.utf8Len cs + c.utf8Size ≠ 0 := by have := c.utf8Size_pos; omega
    have bytes := sub?_eq (Nat.le_add_left c.utf8Size (String.utf8Len cs))
    rw [List.cons_append, String.utf8Len_cons, takeBytes?, if_neg positive, bytes,
      Nat.add_sub_cancel, Option.bind_some, ih]
    rfl

theorem exists_append_of_takeBytes? {cs ds : List Char} {n : Nat}
    (taken : takeBytes? cs n = some ds) : ∃ es, cs = ds ++ es ∧ String.utf8Len ds = n := by
  induction cs generalizing ds n with
  | nil =>
    obtain ⟨zero, taken⟩ := Option.ite_none_right_eq_some.mp taken
    cases taken
    exact ⟨[], rfl, zero.symm⟩
  | cons c cs ih =>
    rw [takeBytes?] at taken
    split at taken
    · next zero =>
      cases taken
      exact ⟨c :: cs, rfl, zero.symm⟩
    · obtain ⟨rest, others, rfl⟩ := Option.map_eq_some_iff.mp taken
      obtain ⟨m, left, others⟩ := Option.bind_eq_some_iff.mp others
      obtain ⟨fits, left⟩ := Option.ite_none_right_eq_some.mp left
      obtain ⟨es, rfl, bytes⟩ := ih others
      refine ⟨es, rfl, ?_⟩
      rw [String.utf8Len_cons, bytes, ← Option.some_inj.mp left, Nat.sub_add_cancel fits]

/-- The characters of the text from a byte offset on. -/
def IsAt (s : String) (offset : Nat) (cs : List Char) : Prop :=
  ∃ before, s.toList = before ++ cs ∧ String.utf8Len before = offset

namespace IsAt

variable {s : String} {i j : Nat} {c : Char} {cs ds : List Char}

theorem of_pos (k : s.Pos) : IsAt s k.offset.byteIdx (s.sliceFrom k).copy.toList := by
  obtain ⟨whole, offset⟩ := k.splits
  refine ⟨(s.sliceTo k).copy.toList, ?_, ?_⟩
  · rw [← String.toList_append, ← whole]
  · rw [offset, String.utf8Len_toList]
    rfl

/-- A character starts there, or the text ends. -/
theorem exists_pos (here : IsAt s i cs) : ∃ k : s.Pos, k.offset.byteIdx = i := by
  obtain ⟨before, whole, bytes⟩ := here
  have valid : String.Pos.Raw.IsValid s ⟨i⟩ := by
    refine String.Pos.Raw.isValid_iff_exists_append.mpr
      ⟨.ofList before, .ofList cs, ?_, ?_⟩
    · rw [← String.ofList_append, ← whole, String.ofList_toList]
    · rw [← bytes]
      simp [String.rawEndPos, ← String.utf8Len_toList]
  exact ⟨⟨⟨i⟩, valid⟩, rfl⟩

theorem afterBytes?_eq (here : IsAt s i cs) : afterBytes? s.toList i = some cs := by
  obtain ⟨before, whole, rfl⟩ := here
  rw [whole, afterBytes?_append]

theorem afterBytes_eq (here : IsAt s i cs) : afterBytes s.toList i = cs := by
  obtain ⟨before, whole, rfl⟩ := here
  rw [whole, afterBytes_append]

theorem append (here : IsAt s i (cs ++ ds)) : IsAt s (i + String.utf8Len cs) ds := by
  obtain ⟨before, whole, rfl⟩ := here
  exact ⟨before ++ cs, by rw [whole, List.append_assoc], String.utf8Len_append _ _⟩

theorem next (here : IsAt s i (c :: cs)) : IsAt s (i + c.utf8Size) cs := by
  have step : IsAt s (i + String.utf8Len [c]) cs := append here
  rwa [String.utf8Len_cons, String.utf8Len_nil, Nat.zero_add] at step

/-- Where fewer characters are left, the cursor stands further on. -/
theorem lt (first : IsAt s i cs) (second : IsAt s j ds) (shorter : ds.length < cs.length) :
    i < j := by
  obtain ⟨before, whole, rfl⟩ := first
  obtain ⟨front, split, rfl⟩ := second
  obtain ⟨es, rfl, rfl⟩ | ⟨es, rfl, rfl⟩ :=
    List.append_eq_append_iff.mp (whole.symm.trans split)
  · cases es with
    | nil => simp at shorter
    | cons c es =>
      have size := c.utf8Size_pos
      rw [String.utf8Len_append, String.utf8Len_cons]
      omega
  · simp at shorter

end IsAt

/-! ### Descents -/

/-- A procedure that moves a cursor from one byte offset of a pattern text to another, unless it
finds a fault. It need not have a result: it may cut the text where no character starts, or its
calls may be nested too deep. -/
abbrev Descent (α : Type) : Type :=
  ReaderT String (StateT Nat (ExceptT PatternFault Option)) α

namespace Descent

variable {α β : Type}

/-- Has no result. -/
def stuck : Descent α := fun _ _ => none

/-- Has the value as its result, if there is one. -/
def ofOption (x : Option α) : Descent α := fun _ offset => x.map fun value => .ok (value, offset)

/-- What stands behind a byte offset, where a character has to start. -/
def slice (offset : Nat) : Descent (List Char) := do
  ofOption (afterBytes? (← read).toList offset)

/-- The character behind the cursor. -/
def peek : Descent (Option Char) := do
  let cs ← slice (← get)
  return cs.head?

/-- Moves the cursor to a byte offset, where a character has to start. -/
def moveTo (offset : Nat) : Descent Unit := do
  let _ ← slice offset
  set offset

/-- Moves the cursor over the next character. -/
def advance : Descent (Option Char) := do
  match ← peek with
  | none => return none
  | some c =>
    moveTo ((← get) + c.utf8Size)
    return some c

/-- Moves the cursor over the next character if that is the expected one. -/
def expect (c : Char) : Descent Bool := do
  if (← peek) = some c then
    let _ ← advance
    return true
  else
    return false

/-- The offset one byte back, where a backslash has to stand. -/
def backslashBefore : Descent Nat := do
  let offset ← ofOption (sub? (← get) 1)
  let cs ← slice offset
  if cs.head? = some '\\' then
    return offset
  else
    stuck

/-- Has a result only if the cursor stands behind the offset. -/
def requireBeyond (offset : Nat) : Descent Unit := do
  if offset < (← get) then
    return ()
  else
    stuck

/-! ### Running descents -/

variable {s : String} {i j : Nat} {x : α} {fault : PatternFault} {d : Descent α}
  {k : α → Descent β} {c : Char} {cs : List Char}

theorem bind_run_of_ok (run : d s i = some (.ok (x, j))) : (d >>= k) s i = k x s j := by
  show (d s i).bind _ = _
  rw [run]
  rfl

theorem bind_run_of_error (run : d s i = some (.error fault)) :
    (d >>= k) s i = some (.error fault) := by
  show (d s i).bind _ = _
  rw [run]
  rfl

theorem get_run : (get : Descent Nat) s i = some (.ok (i, i)) := rfl

theorem ofOption_run (s : String) (i : Nat) (x : α) :
    ofOption (some x) s i = some (.ok (x, i)) := rfl

theorem slice_run (here : IsAt s j cs) : slice j s i = some (.ok (cs, i)) := by
  show ofOption (afterBytes? s.toList j) s i = _
  rw [here.afterBytes?_eq, ofOption_run]

theorem peek_run (here : IsAt s i cs) : peek s i = some (.ok (cs.head?, i)) := by
  rw [peek, bind_run_of_ok get_run, bind_run_of_ok (slice_run here)]
  rfl

/-- Where the cursor comes from makes no difference. -/
theorem moveTo_run (there : IsAt s j cs) : moveTo j s i = some (.ok ((), j)) := by
  rw [moveTo, bind_run_of_ok (slice_run there)]
  rfl

theorem advance_run_nil (here : IsAt s i []) : advance s i = some (.ok (none, i)) := by
  rw [advance, bind_run_of_ok (peek_run here)]
  rfl

theorem advance_run (here : IsAt s i (c :: cs)) :
    advance s i = some (.ok (some c, i + c.utf8Size)) := by
  rw [advance, bind_run_of_ok (peek_run here)]
  show (get >>= fun pos => moveTo (pos + c.utf8Size) >>= fun _ => pure (some c)) s i = _
  rw [bind_run_of_ok get_run, bind_run_of_ok (moveTo_run here.next)]
  rfl

theorem expect_run (here : IsAt s i (c :: cs)) :
    expect c s i = some (.ok (true, i + c.utf8Size)) := by
  rw [expect, bind_run_of_ok (peek_run here), if_pos List.head?_cons,
    bind_run_of_ok (advance_run here)]
  rfl

theorem expect_run_of_ne (here : IsAt s i cs) (other : cs.head? ≠ some c) :
    expect c s i = some (.ok (false, i)) := by
  rw [expect, bind_run_of_ok (peek_run here), if_neg other]
  rfl

/-- Behind a backslash the cursor can look back. -/
theorem backslashBefore_run (back : IsAt s i ('\\' :: cs)) :
    backslashBefore s (i + 1) = some (.ok (i, i + 1)) := by
  rw [backslashBefore, bind_run_of_ok get_run, sub?_eq (Nat.le_add_left 1 i), Nat.add_sub_cancel,
    bind_run_of_ok (ofOption_run s (i + 1) i), bind_run_of_ok (slice_run back),
    if_pos List.head?_cons]
  rfl

theorem requireBeyond_run (beyond : i < j) : requireBeyond i s j = some (.ok ((), j)) := by
  rw [requireBeyond, bind_run_of_ok get_run, if_pos beyond]
  rfl

end Descent

/-! ### Reading what stands behind a cursor -/

namespace Reading

variable {s : String} {r next : Reading} {c : Char} {cs : List Char} {fault : PatternFault}
  {result : Except PatternFault (Pattern × Nat)}

/-- What reading comes to if the characters are all that is left. -/
def outcome (r : Reading) (cs : List Char) : Except PatternFault (Pattern × Nat) :=
  (r.read cs).bind fun next => next.finish.map (·, next.offset)

theorem outcome_cons (r : Reading) (c : Char) (cs : List Char) :
    r.outcome (c :: cs) = (r.step c).bind (·.outcome cs) := by
  rw [outcome, read_cons]
  cases r.step c <;> rfl

/-- Reading comes to the result with the characters of the text from its offset on. -/
structure Ahead (r : Reading) (s : String) (result : Except PatternFault (Pattern × Nat))
    (cs : List Char) : Prop where
  here : IsAt s r.offset cs
  comes : r.outcome cs = result

/-- Reading that has got to the offset is left with fewer characters. -/
def Nears (r : Reading) (s : String) (result : Except PatternFault (Pattern × Nat))
    (cs : List Char) (offset : Nat) : Prop :=
  ∃ ds, ({ r with offset } : Reading).Ahead s result ds ∧ ds.length < cs.length

/-- Reading goes on in the mode, if there is one, and is left with fewer characters. -/
def GoesOnIn (r : Reading) (s : String) (result : Except PatternFault (Pattern × Nat))
    (cs : List Char) (mode : Except PatternFault Mode) (offset : Nat) : Prop :=
  ∃ ds, IsAt s offset ds ∧ ds.length < cs.length ∧
    result = mode.bind fun mode => ({ r with mode, offset } : Reading).outcome ds

theorem GoesOnIn.nears {mode : Mode} {offset : Nat}
    (goes : r.GoesOnIn s result cs (.ok mode) offset) :
    ({ r with mode } : Reading).Nears s result cs offset := by
  obtain ⟨ds, there, shorter, comes⟩ := goes
  exact ⟨ds, ⟨there, comes.symm⟩, shorter⟩

theorem GoesOnIn.refused {offset : Nat} (goes : r.GoesOnIn s result cs (.error fault) offset) :
    result = .error fault := by
  obtain ⟨ds, -, -, comes⟩ := goes
  exact comes

theorem Nears.trans {ds : List Char} {offset : Nat} (nears : r.Nears s result ds offset)
    (shorter : ds.length < cs.length) : r.Nears s result cs offset := by
  obtain ⟨es, ahead, fewer⟩ := nears
  exact ⟨es, ahead, Nat.lt_trans fewer shorter⟩

theorem Ahead.step (ahead : r.Ahead s result (c :: cs)) (stepped : r.step c = .ok next) :
    next.Ahead s result cs := by
  constructor
  · obtain ⟨taken, -, rfl⟩ := map_eq_ok_iff.mp stepped
    exact ahead.here.next
  · rw [← ahead.comes, outcome_cons, stepped]
    rfl

theorem Ahead.refused (ahead : r.Ahead s result (c :: cs)) (stepped : r.step c = .error fault) :
    result = .error fault := by
  rw [← ahead.comes, outcome_cons, stepped]
  rfl

theorem Ahead.refused_later (ahead : r.Ahead s result cs)
    (refused : (r.read cs).bind finish = .error fault) : result = .error fault := by
  rw [← ahead.comes, Reading.outcome]
  cases read : r.read cs with
  | error other =>
    rw [read] at refused
    cases refused
    rfl
  | ok next =>
    rw [read] at refused
    show next.finish.map (·, next.offset) = _
    rw [show next.finish = .error fault from refused]
    rfl

theorem Ahead.refused_at_end (ahead : r.Ahead s result []) (finished : r.finish = .error fault) :
    result = .error fault :=
  ahead.refused_later finished

end Reading

namespace Descent

variable {α β : Type} {s : String} {result : Except PatternFault (Pattern × Nat)} {i j : Nat}
  {d : Descent α} {k : α → Descent β} {x : α} {post : α → Nat → Prop} {goal : β → Nat → Prop}

/-- A descent from an offset on has a result. If that is a fault, reading comes to the same one,
and otherwise the postcondition holds of the value and the offset at which the descent stops. -/
inductive Tracks (s : String) (result : Except PatternFault (Pattern × Nat)) (d : Descent α)
    (offset : Nat) (post : α → Nat → Prop) : Prop where
  | fault {fault : PatternFault} (run : d s offset = some (.error fault))
      (refused : result = .error fault)
  | value {x : α} {stop : Nat} (run : d s offset = some (.ok (x, stop))) (holds : post x stop)

namespace Tracks

theorem pure (holds : post x i) : Tracks s result (Pure.pure x) i post := .value rfl holds

theorem throw {fault : PatternFault} (refused : result = .error fault) :
    Tracks s result (MonadExcept.throw fault) i post := .fault rfl refused

theorem mono {weaker : α → Nat → Prop} (tracks : Tracks s result d i post)
    (weaken : ∀ x j, post x j → weaker x j) : Tracks s result d i weaker := by
  cases tracks with
  | fault run refused => exact .fault run refused
  | value run holds => exact .value run (weaken _ _ holds)

/-- A part with a known result is left behind. -/
theorem step (run : d s i = some (.ok (x, j))) (others : Tracks s result (k x) j goal) :
    Tracks s result (d >>= k) i goal := by
  have same : (d >>= k) s i = k x s j := bind_run_of_ok run
  cases others with
  | fault run refused => exact .fault (same.trans run) refused
  | value run holds => exact .value (same.trans run) holds

theorem bind (first : Tracks s result d i post)
    (others : ∀ x j, post x j → Tracks s result (k x) j goal) :
    Tracks s result (d >>= k) i goal := by
  cases first with
  | fault run refused => exact .fault (bind_run_of_error run) refused
  | value run holds => exact step run (others _ _ holds)

end Tracks

end Descent

end StringTransform
