import StringTransform.Proofs.Strict.SetDescent

/-!
# Reading patterns by descent

Alternatives are branches with bars between them, a branch is a sequence of atoms that may
have a quantifier, and the content of a group is alternatives again. Each of these has a
procedure of its own. They call each other, and have no result where the calls are nested
deeper than a limit allows. They have none either where an atom is looked for at the end of
the text, or where a member of a branch leaves the cursor where it was.

Descent has a result from every place of a text on, the one of reading, if four calls may be
nested for every character that is left. The procedures call each other in a circle only by
way of the content of a group, behind its parenthesis. So each of them is followed under the
hypothesis that descending into contents agrees with reading where fewer characters are left,
and an induction on the characters left closes the circle.

## Main definitions

* `Descent.groupKind`, `Descent.escape` — descending into groups and escapes
* `Descent.alternatives`, `Descent.sequence`, `Descent.repetition`, `Descent.atom` — the
  procedures that call each other
* `Pattern.parseFrom?` — reading a pattern by descent
* `Descent.Advances` — a descent has a result and moves the cursor

## Main results

* `Descent.atom_tracks`, `Descent.repetition_tracks`, `Descent.sequence_tracks`,
  `Descent.alternatives_tracks` — descent agrees with reading
* `Pattern.parseFrom?_eq_parse_rest` — descent from an offset on is reading the rest
* `strict_parsing_succeeds` — descent has a result from every place of a text on
-/

namespace StringTransform

namespace Descent

/-- The kind of the group whose opening parenthesis stands at `start`. -/
def groupKind (start : Nat) : Descent GroupKind := do
  if ← expect '?' then
    match ← advance with
    | none => throw (.unclosedGroup start)
    | some c =>
      match c with
      | ':' => return .plain
      | '!' => return .look true
      | '=' => return .look false
      | c => throw (.unsupportedGroup c)
  else
    return .plain

/-- What stands behind the backslash of an escape outside sets. -/
def escape : Descent Pattern := do
  let start ← backslashBefore
  match ← advance with
  | none => throw .danglingEscape
  | some c =>
    if c = 'u' then
      return .single (.literal (← codePoint start))
    else
      return escapedAtom c

mutual

/-- Branches with bars between them. -/
def alternatives : Nat → Descent Pattern
  | 0 => stuck
  | depth + 1 => do
    let branch ← sequence depth []
    moreAlternatives depth [branch]

/-- The branches behind those that have been read. -/
def moreAlternatives : Nat → List Pattern → Descent Pattern
  | 0, _ => stuck
  | depth + 1, branches => do
    if ← expect '|' then
      let branch ← sequence depth []
      moreAlternatives depth (branches ++ [branch])
    else
      return Grammar.choice branches

/-- The members of a branch behind those that have been read. Each of them has to move the
cursor. -/
def sequence : Nat → List Pattern → Descent Pattern
  | 0, _ => stuck
  | depth + 1, members => do
    match ← peek with
    | none => return .seq members
    | some c =>
      if c = ')' ∨ c = '|' then
        return .seq members
      else
        let offset ← get
        let member ← repetition depth
        requireBeyond offset
        sequence depth (members ++ [member])

/-- An atom with the quantifier behind it, if there is one. -/
def repetition : Nat → Descent Pattern
  | 0 => stuck
  | depth + 1 => do
    match (← peek).filter fun c => (Quantifier.ofChar? c).isSome with
    | some c => throw (.nothingToRepeat c (← get))
    | none =>
      let p ← atom depth
      match (← peek).bind Quantifier.ofChar? with
      | none => return p
      | some q =>
        let _ ← advance
        return .quantified q p

/-- A group, a set, an escape, an anchor or a single character. -/
def atom : Nat → Descent Pattern
  | 0 => stuck
  | depth + 1 => do
    let start ← get
    match ← advance with
    | none => stuck
    | some c =>
      match c with
      | '(' =>
        let kind ← groupKind start
        let content ← alternatives depth
        if ← expect ')' then
          return kind.wrap content
        else
          throw (.unclosedGroup start)
      | '[' => return .single (← charSet depth start)
      | '\\' => escape
      | '.' => return .single .dot
      | '^' => return .anchor .textStart
      | '$' => return .anchor .textEnd
      | c => return .single (.literal c)

end

/-- A whole text. A closing parenthesis that is left closes nothing. -/
def whole (depth : Nat) : Descent Pattern := do
  let p ← alternatives depth
  if (← peek) = some ')' then
    throw (.unmatchedParen (← get))
  else
    return p

end Descent

/-- The pattern that a text denotes from a byte offset on, by descent with calls nested up to a
depth, and the offset at which the descent stopped. -/
def Pattern.parseFrom? (depth : Nat) (pattern : String) (offset : Nat) :
    Option (Except PatternFault (Pattern × Nat)) :=
  Descent.whole depth pattern offset

/-! ### Readings between two constructs -/

namespace Reading

variable {r : Reading} {start : Nat} {c : Char} {cs : List Char}

theorem step_of_between {pending : Option Pattern} (mode : r.mode = .between pending)
    (plain : Quantifier.ofChar? c = none) :
    r.step c = ((r.flush pending).startAtom c).map fun next =>
      { next with offset := r.offset + c.utf8Size } := by
  rw [step, take, mode]
  show (r.stepBetween pending c).map _ = _
  rw [stepBetween_eq_startAtom plain]

/-- A quantifier applies to the atom that is held back. -/
theorem step_of_quantifier {pending : Option Pattern} {q : Quantifier}
    (mode : r.mode = .between pending) (quantifier : Quantifier.ofChar? c = some q) :
    r.step c = pending.elim (.error (.nothingToRepeat c r.offset)) fun p =>
      .ok { r.flush (some (.quantified q p)) with offset := r.offset + c.utf8Size } := by
  rw [step, take, mode]
  dsimp only
  unfold stepBetween
  rw [quantifier]
  cases pending <;> rfl

/-- An atom that is held back is a member if no quantifier follows. -/
theorem outcome_of_hold (r : Reading) (p : Pattern)
    (plain : cs.head?.bind Quantifier.ofChar? = none) :
    (r.hold p).outcome cs = (r.flush (some p)).outcome cs := by
  cases cs with
  | nil => rfl
  | cons c cs =>
    rw [outcome_cons, outcome_cons, step_of_between rfl plain, step_of_between rfl plain]
    rfl

/-- A group without a question mark is a plain one. -/
theorem outcome_of_parenthesis (mode : r.mode = .opened start) (plain : cs.head? ≠ some '?') :
    r.outcome cs = (r.openGroup .plain start).outcome cs := by
  cases cs with
  | nil =>
    obtain ⟨offset, level, groups, stage⟩ := r
    subst mode
    rfl
  | cons c cs =>
    have other : c ≠ '?' := fun same => plain (same ▸ List.head?_cons)
    rw [outcome, outcome, read_opened mode other]

end Reading

namespace Descent

variable {s : String} {result : Except PatternFault (Pattern × Nat)} {r : Reading} {start : Nat}
  {c : Char} {cs : List Char}

/-! ### Agreement with reading -/

theorem groupKind_tracks (mode : r.mode = .opened start) (ahead : r.Ahead s result cs) :
    Tracks s result (groupKind start) r.offset fun kind stop => ∃ ds,
      ({ r.openGroup kind start with offset := stop } : Reading).Ahead s result ds ∧
        ds.length ≤ cs.length := by
  rw [groupKind]
  by_cases question : cs.head? = some '?'
  · obtain ⟨ds, rfl⟩ := List.head?_eq_some_iff.mp question
    have read : r.step '?' = .ok { r with mode := .kind start, offset := r.offset + 1 } := by
      rw [Reading.step, Reading.take, mode]
      rfl
    have behind := ahead.step read
    refine .step (expect_run ahead.here) ?_
    rw [if_pos rfl]
    cases ds with
    | nil => exact .step (advance_run_nil behind.here) (.throw (behind.refused_at_end rfl))
    | cons c ds =>
      refine .step (advance_run behind.here) ?_
      have fewer : ds.length ≤ ('?' :: c :: ds).length :=
        Nat.le_trans (Nat.le_succ _) (Nat.le_succ _)
      dsimp only
      split
      case h_1 | h_2 | h_3 => exact .pure ⟨ds, behind.step rfl, fewer⟩
      case h_4 plain absent present =>
        refine .throw (behind.refused ?_)
        show (Reading.stepKind _ start c).map _ = _
        unfold Reading.stepKind
        split <;> first | rfl | contradiction
  · refine .step (expect_run_of_ne ahead.here question) ?_
    refine .pure ⟨cs, ⟨ahead.here, ?_⟩, Nat.le_refl _⟩
    exact (Reading.outcome_of_parenthesis mode question).symm.trans ahead.comes

theorem escape_tracks (mode : r.mode = .escape start) (back : IsAt s start ('\\' :: cs))
    (behind : r.offset = start + 1) (ahead : r.Ahead s result cs) :
    Tracks s result escape r.offset fun p => (r.hold p).Nears s result cs := by
  rw [escape]
  refine .step (behind ▸ backslashBefore_run back) ?_
  cases cs with
  | nil =>
    refine .step (advance_run_nil ahead.here) (.throw (ahead.refused_at_end ?_))
    rw [Reading.finish, mode]
  | cons c cs =>
    refine .step (advance_run ahead.here) ?_
    dsimp only
    by_cases code : c = 'u'
    · subst code
      rw [if_pos rfl]
      have atEscape : r.mode.AtEscape start := mode ▸ .outside
      obtain ⟨digits, letter, atDigits, same⟩ := Reading.step_letter atEscape
      refine .bind (codePoint_tracks (r := { r with mode := digits, offset := r.offset + 1 })
        atDigits (ahead.step letter)) ?_
      intro x stop goes
      have named : digits.named x = .ok (.between (some (.single (.literal x)))) := by
        rw [same, mode]
        rfl
      dsimp only at goes
      rw [named] at goes
      exact .pure (goes.nears.trans (Nat.lt_succ_self _))
    · rw [if_neg code]
      have read : r.step c =
          .ok { r.hold (escapedAtom c) with offset := r.offset + c.utf8Size } := by
        rw [Reading.step, Reading.take, mode]
        dsimp only
        rw [if_neg code]
        rfl
      exact .pure ⟨cs, ahead.step read, Nat.lt_succ_self _⟩

/-- Behind a branch reading stands at a bar, a closing parenthesis or the end of the text. -/
def BranchRead (s : String) (result : Except PatternFault (Pattern × Nat))
    (branches : List Pattern) (groups : List OpenGroup) (cs : List Char) (p : Pattern)
    (stop : Nat) : Prop :=
  ∃ members ds, p = .seq members.reverse ∧
    Reading.Ahead ⟨stop, ⟨branches, members⟩, groups, .between none⟩ s result ds ∧
      ds.length ≤ cs.length ∧ ∀ d ∈ ds.head?, d = ')' ∨ d = '|'

/-- Behind the content of a group reading stands at the closing parenthesis or at the end of
the text. -/
def ContentRead (s : String) (result : Except PatternFault (Pattern × Nat))
    (groups : List OpenGroup) (cs : List Char) (p : Pattern) (stop : Nat) : Prop :=
  ∃ level ds, p = level.tree ∧ Reading.Ahead ⟨stop, level, groups, .between none⟩ s result ds ∧
    ds.length ≤ cs.length ∧ ∀ d ∈ ds.head?, d = ')'

/-- From where the characters are left, descending into the content of a group agrees with
reading, given calls that may be nested deep enough. -/
def ContentTracks (s : String) (cs : List Char) : Prop :=
  ∀ (depth i : Nat) (groups : List OpenGroup) (result : Except PatternFault (Pattern × Nat)),
    4 * cs.length + 2 ≤ depth → Reading.Ahead ⟨i, .empty, groups, .between none⟩ s result cs →
    Tracks s result (alternatives depth) i (ContentRead s result groups cs)

theorem BranchRead.of_le {branches : List Pattern} {groups : List OpenGroup} {ds : List Char}
    {p : Pattern} {stop : Nat} (read : BranchRead s result branches groups ds p stop)
    (fewer : ds.length ≤ cs.length) : BranchRead s result branches groups cs p stop := by
  obtain ⟨members, es, same, behind, few, ends⟩ := read
  exact ⟨members, es, same, behind, Nat.le_trans few fewer, ends⟩

theorem ContentRead.of_le {groups : List OpenGroup} {ds : List Char} {p : Pattern} {stop : Nat}
    (read : ContentRead s result groups ds p stop) (fewer : ds.length ≤ cs.length) :
    ContentRead s result groups cs p stop := by
  obtain ⟨level, es, same, behind, few, ends⟩ := read
  exact ⟨level, es, same, behind, Nat.le_trans few fewer, ends⟩

variable {depth i : Nat} {branches members : List Pattern} {groups : List OpenGroup}
  {level : Level}

theorem atom_tracks (inner : ∀ ds, ds.length < (c :: cs).length → ContentTracks s ds)
    (deep : 4 * cs.length + 3 ≤ depth) (mode : r.mode = .between none)
    (plain : Quantifier.ofChar? c = none) (member : c ≠ ')' ∧ c ≠ '|')
    (ahead : r.Ahead s result (c :: cs)) :
    Tracks s result (atom depth) r.offset fun p => (r.hold p).Nears s result (c :: cs) := by
  obtain ⟨depth, rfl⟩ := Nat.exists_eq_add_one.mpr (Nat.zero_lt_of_lt deep)
  rw [atom]
  refine .step get_run (.step (advance_run ahead.here) ?_)
  have read := Reading.step_of_between mode plain
  dsimp only
  split
  case h_1 =>
    have behind : Reading.Ahead { r with mode := .opened r.offset, offset := r.offset + 1 }
        s result cs := ahead.step read
    refine .bind (groupKind_tracks rfl behind) ?_
    rintro kind stop ⟨ds, opened, fewer⟩
    -- The parenthesis pays for the calls between one content and the next one inside it.
    refine .bind (inner ds (Nat.lt_succ_of_le fewer) depth _ _ _ (by omega) opened) ?_
    rintro p stop ⟨level, es, rfl, content, few, close⟩
    cases es with
    | nil =>
      exact .step (expect_run_of_ne content.here nofun) (.throw (content.refused_at_end rfl))
    | cons d es =>
      obtain rfl : d = ')' := close d rfl
      refine .step (expect_run content.here) (.pure ⟨es, content.step rfl, ?_⟩)
      exact Nat.lt_succ_of_le (Nat.le_trans (Nat.le_of_succ_le few) fewer)
  case h_2 =>
    have behind : Reading.Ahead { r with mode := .set (.opened r.offset), offset := r.offset + 1 }
        s result cs := ahead.step read
    refine .bind (charSet_tracks rfl (by omega) behind) ?_
    exact fun test stop nears => .pure (nears.trans (Nat.lt_succ_self _))
  case h_3 =>
    have behind : Reading.Ahead { r with mode := .escape r.offset, offset := r.offset + 1 }
        s result cs := ahead.step read
    refine (escape_tracks rfl ahead.here rfl behind).mono ?_
    exact fun p stop nears => nears.trans (Nat.lt_succ_self _)
  case h_4 | h_5 | h_6 => exact .pure ⟨cs, ahead.step read, Nat.lt_succ_self _⟩
  case h_7 =>
    -- A bar or a closing parenthesis would end the branch, and so is no character of its own.
    have started :
        (r.flush none).startAtom c = .ok ((r.flush none).hold (.single (.literal c))) := by
      unfold Reading.startAtom
      split
      case h_2 => exact absurd rfl member.1
      case h_3 => exact absurd rfl member.2
      case h_9 => rfl
      all_goals contradiction
    rw [started] at read
    exact .pure ⟨cs, ahead.step read, Nat.lt_succ_self _⟩

theorem repetition_tracks (inner : ∀ ds, ds.length < (c :: cs).length → ContentTracks s ds)
    (deep : 4 * (c :: cs).length ≤ depth) (mode : r.mode = .between none)
    (member : c ≠ ')' ∧ c ≠ '|') (ahead : r.Ahead s result (c :: cs)) :
    Tracks s result (repetition depth) r.offset fun p =>
      (r.flush (some p)).Nears s result (c :: cs) := by
  rw [List.length_cons] at deep
  obtain ⟨depth, rfl⟩ := Nat.exists_eq_add_one.mpr (Nat.zero_lt_of_lt deep)
  rw [repetition]
  refine .step (peek_run ahead.here) ?_
  cases quantifier : Quantifier.ofChar? c with
  | some q =>
    have next : (c :: cs).head?.filter (fun c => (Quantifier.ofChar? c).isSome) = some c := by
      simp [quantifier]
    rw [next]
    exact .step get_run (.throw (ahead.refused (Reading.step_of_quantifier mode quantifier)))
  | none =>
    have next : (c :: cs).head?.filter (fun c => (Quantifier.ofChar? c).isSome) = none := by
      simp [quantifier]
    rw [next]
    refine .bind (atom_tracks inner (by omega) mode quantifier member ahead) ?_
    rintro p stop ⟨ds, held, shorter⟩
    refine .step (peek_run held.here) ?_
    cases more : ds.head?.bind Quantifier.ofChar? with
    | none =>
      -- Descent hands out the atom now, reading when it sees what follows.
      have same := Reading.outcome_of_hold { r with offset := stop } p more
      exact .pure ⟨ds, ⟨held.here, same.symm.trans held.comes⟩, shorter⟩
    | some q =>
      obtain ⟨d, first, quantifier⟩ := Option.bind_eq_some_iff.mp more
      obtain ⟨es, rfl⟩ := List.head?_eq_some_iff.mp first
      have step := Reading.step_of_quantifier (r := { r.hold p with offset := stop }) rfl quantifier
      exact .step (advance_run held.here) (.pure ⟨es, held.step step, Nat.lt_of_succ_lt shorter⟩)

theorem sequence_tracks (inner : ∀ ds, ds.length < cs.length → ContentTracks s ds)
    (deep : 4 * cs.length + 1 ≤ depth)
    (ahead : Reading.Ahead ⟨i, ⟨branches, members⟩, groups, .between none⟩ s result cs) :
    Tracks s result (sequence depth members.reverse) i
      (BranchRead s result branches groups cs) := by
  induction depth generalizing i members cs with
  | zero => exact absurd deep (Nat.not_succ_le_zero _)
  | succ depth ih =>
    rw [sequence]
    refine .step (peek_run ahead.here) ?_
    cases cs with
    | nil => exact .pure ⟨members, [], rfl, ahead, Nat.le_refl _, nofun⟩
    | cons c cs =>
      dsimp only [List.head?_cons]
      by_cases close : c = ')' ∨ c = '|'
      · rw [if_pos close]
        have ends : ∀ d ∈ (c :: cs).head?, d = ')' ∨ d = '|' := by
          rintro d ⟨⟩
          exact close
        exact .pure ⟨members, c :: cs, rfl, ahead, Nat.le_refl _, ends⟩
      · rw [if_neg close]
        have member := repetition_tracks inner (Nat.le_of_succ_le_succ deep) rfl
          (not_or.mp close) ahead
        refine .step get_run (.bind member ?_)
        rintro p stop ⟨ds, behind, shorter⟩
        -- The member has moved the cursor, so the rest of the branch is left with fewer characters.
        refine .step (requireBeyond_run (ahead.here.lt behind.here shorter)) ?_
        rw [← List.reverse_cons]
        have others := ih (fun es fewer => inner es (Nat.lt_trans fewer shorter)) (by omega) behind
        exact others.mono fun branch stop read => read.of_le (Nat.le_of_lt shorter)

theorem moreAlternatives_tracks (inner : ∀ ds, ds.length < cs.length → ContentTracks s ds)
    (deep : 4 * cs.length + 1 ≤ depth) (ends : ∀ d ∈ cs.head?, d = ')' ∨ d = '|')
    (ahead : Reading.Ahead ⟨i, level, groups, .between none⟩ s result cs) :
    Tracks s result (moreAlternatives depth level.split.branches.reverse) i
      (ContentRead s result groups cs) := by
  induction depth generalizing i level cs with
  | zero => exact absurd deep (Nat.not_succ_le_zero _)
  | succ depth ih =>
    rw [moreAlternatives]
    by_cases bar : cs.head? = some '|'
    · obtain ⟨ds, rfl⟩ := List.head?_eq_some_iff.mp bar
      rw [List.length_cons] at deep
      have behind : Reading.Ahead ⟨i + 1, level.split, groups, .between none⟩ s result ds :=
        ahead.step rfl
      refine .step (expect_run ahead.here) ?_
      rw [if_pos rfl]
      refine .bind (sequence_tracks (fun es fewer => inner es (Nat.lt_succ_of_lt fewer)) (by omega)
        behind) ?_
      rintro branch stop ⟨members, es, rfl, there, fewer, ends⟩
      have shorter : es.length < ('|' :: ds).length := Nat.lt_succ_of_le fewer
      -- The branch that has been read joins the others when the next bar or the end comes.
      have read : (⟨level.split.branches, members⟩ : Level).split.branches.reverse =
          level.split.branches.reverse ++ [.seq members.reverse] := List.reverse_cons
      rw [← read]
      have others := ih (fun fs less => inner fs (Nat.lt_trans less shorter)) (by omega) ends there
      exact others.mono fun p stop read => read.of_le (Nat.le_of_lt shorter)
    · refine .step (expect_run_of_ne ahead.here bar) ?_
      refine .pure ⟨level, cs, (Grammar.tree_eq_choice level).symm, ahead, Nat.le_refl _, ?_⟩
      intro d first
      exact (ends d first).resolve_right fun same => bar (same ▸ first)

theorem alternatives_tracks (s : String) (cs : List Char) : ContentTracks s cs := by
  induction length : cs.length using Nat.strong_induction_on generalizing cs with
  | h n ih =>
    subst length
    intro depth i groups result deep ahead
    -- What a parenthesis opens has fewer characters, and so all that follows is known to agree.
    have inner : ∀ ds, ds.length < cs.length → ContentTracks s ds :=
      fun ds shorter => ih ds.length shorter ds rfl
    obtain ⟨depth, rfl⟩ := Nat.exists_eq_add_one.mpr (Nat.zero_lt_of_lt deep)
    rw [alternatives]
    refine .bind (sequence_tracks inner (by omega) ahead) ?_
    rintro branch stop ⟨members, ds, rfl, behind, fewer, ends⟩
    have others : Tracks s result (moreAlternatives depth [.seq members.reverse]) stop
        (ContentRead s result groups ds) :=
      moreAlternatives_tracks (fun es less => inner es (Nat.lt_of_lt_of_le less fewer))
        (by omega) ends behind
    exact others.mono fun p stop read => read.of_le fewer

theorem whole_tracks (deep : 4 * cs.length + 2 ≤ depth)
    (ahead : (Reading.start i).Ahead s result cs) :
    Tracks s result (whole depth) i fun p stop => result = .ok (p, stop) := by
  rw [whole]
  refine .bind (alternatives_tracks s cs depth i [] result deep ahead) ?_
  rintro p stop ⟨level, ds, rfl, behind, -, close⟩
  refine .step (peek_run behind.here) ?_
  cases ds with
  | nil => exact .pure behind.comes.symm
  | cons d ds =>
    obtain rfl : d = ')' := close d rfl
    rw [if_pos List.head?_cons]
    exact .step get_run (.throw (behind.refused rfl))

/-! ### Descents that advance -/

/-- The descent has a result from the place on. If that is no fault, the descent stops at a
later place, where again a character starts or the text ends. -/
def Advances {α : Type} (d : Descent α) {pattern : String} (k : pattern.Pos) : Prop :=
  ∃ outcome, d pattern k.offset.byteIdx = some outcome ∧ ∀ x stop, outcome = .ok (x, stop) →
    ∃ j : pattern.Pos, j.offset.byteIdx = stop ∧ k < j

theorem Tracks.advances {α : Type} {d : Descent α} {pattern : String} {k : pattern.Pos}
    (here : IsAt pattern k.offset.byteIdx cs)
    (tracks : Tracks pattern result d k.offset.byteIdx fun _ stop =>
      ∃ r : Reading, r.Nears pattern result cs stop) : d.Advances k := by
  cases tracks with
  | fault run => exact ⟨_, run, nofun⟩
  | value run nears =>
    refine ⟨_, run, ?_⟩
    rintro x stop ⟨⟩
    obtain ⟨r, ds, behind, shorter⟩ := nears
    obtain ⟨j, rfl⟩ := behind.here.exists_pos
    exact ⟨j, rfl, String.Pos.lt_iff.mpr (here.lt behind.here shorter)⟩

end Descent

/-! ### Descent from a place of a text -/

namespace Pattern

/-- Descent comes to what reading makes of the characters that are left. -/
theorem parseFrom?_eq_parseChars {pattern : String} {offset depth : Nat} {cs : List Char}
    (here : IsAt pattern offset cs) (deep : 4 * cs.length + 2 ≤ depth) :
    parseFrom? depth pattern offset = some (parseChars offset cs) := by
  have ahead : (Reading.start offset).Ahead pattern (parseChars offset cs) cs := ⟨here, rfl⟩
  cases Descent.whole_tracks deep ahead with
  | fault run refused => exact run.trans (congrArg some refused.symm)
  | value run comes => exact run.trans (congrArg some comes.symm)

/-- Descent from an offset on comes to what the rest of the text denotes by itself. On success
it stops at the end of the text; on failure the fault is that of the rest, at its offset behind
what precedes the rest. -/
theorem parseFrom?_eq_parse_rest (pattern : String) (k : pattern.Pos) {depth : Nat}
    (deep : 4 * (pattern.sliceFrom k).copy.length + 2 ≤ depth) :
    parseFrom? depth pattern k.offset.byteIdx =
      some (shiftResult k.offset.byteIdx (fun p => (p, pattern.utf8ByteSize))
        (parse (pattern.sliceFrom k).copy)) := by
  rw [← String.length_toList] at deep
  rw [parseFrom?_eq_parseChars (.of_pos k) deep, parseChars_eq_shiftResult, byteIdx_add_rest]

end Pattern

/-- Descent from the start of any character on has a result, the one of reading: it slices the
text only where a character starts or the text ends, looks back only at a backslash, looks for
an atom only where a character stands, and comes to an end, with at most four calls nested for
every character that is left. Every member of a branch and every turn over a set brings it
further on, if it does not find a fault there. -/
theorem strict_parsing_succeeds (pattern : String) (k : pattern.Pos) {depth : Nat}
    (deep : 4 * (pattern.sliceFrom k).copy.length + 2 ≤ depth) :
    Pattern.parseFrom? depth pattern k.offset.byteIdx =
        some (Pattern.parseFrom pattern k.offset.byteIdx) ∧
      (∀ c ∈ (pattern.sliceFrom k).copy.toList.head?, c ≠ ')' → c ≠ '|' →
        (Descent.repetition depth).Advances k) ∧
      ∀ start first, (Descent.setTurn start first).Advances k := by
  have here := IsAt.of_pos k
  rw [← String.length_toList] at deep
  generalize (pattern.sliceFrom k).copy.toList = cs at deep here ⊢
  refine ⟨?_, ?_, ?_⟩
  · rw [Pattern.parseFrom, here.afterBytes_eq]
    exact Pattern.parseFrom?_eq_parseChars here deep
  · intro c first closing bar
    obtain ⟨ds, rfl⟩ := List.head?_eq_some_iff.mp first
    have tracks := Descent.repetition_tracks (r := .start k.offset.byteIdx)
      (fun ds _ => Descent.alternatives_tracks pattern ds) (Nat.le_of_add_right_le deep) rfl
      ⟨closing, bar⟩ ⟨here, rfl⟩
    exact (tracks.mono fun p stop nears => ⟨_, nears⟩).advances here
  · intro start first
    let set : SetReading := ⟨start, false, [], if first then .first else .item⟩
    have tracks := Descent.setTurn_tracks
      (r := ⟨k.offset.byteIdx, .empty, [], .set set⟩) rfl rfl rfl ⟨here, rfl⟩
    exact (tracks.mono fun turn stop nears => ⟨_, nears⟩).advances here

/-- The set behind a letter of two bytes. -/
theorem strict_parsing_behind_accent :
    ∃ k : ("é[a-]" : String).Pos, k.offset.byteIdx = 2 ∧
      4 * ("é[a-]".sliceFrom k).copy.length + 2 ≤ 18 ∧
        '[' ∈ ("é[a-]".sliceFrom k).copy.toList.head? ∧ '[' ≠ ')' ∧ '[' ≠ '|' ∧
          Pattern.parseFrom? 18 "é[a-]" 2 = some (Pattern.parseFrom "é[a-]" 2) ∧
            (Descent.repetition 18).Advances k := by
  let k : ("é[a-]" : String).Pos := ⟨⟨2⟩, by decide +kernel⟩
  have deep : 4 * ("é[a-]".sliceFrom k).copy.length + 2 ≤ 18 := by decide +kernel
  have first : '[' ∈ ("é[a-]".sliceFrom k).copy.toList.head? := by decide +kernel
  have closing : '[' ≠ ')' := by decide
  have bar : '[' ≠ '|' := by decide
  obtain ⟨parsed, members, -⟩ := strict_parsing_succeeds _ k deep
  exact ⟨k, rfl, deep, first, closing, bar, parsed, members '[' first closing bar⟩

/-- Between the two bytes of the letter a descent has no result. -/
example : Pattern.parseFrom? 18 "é[a-]" 1 = none := by rfl

end StringTransform
