import StringTransform.Proofs.Pattern.Offsets

/-!
# Splicing pattern texts

A pattern text can stand inside another one. Reading it there does what reading it alone
does, with the level and the groups around it left below: nothing that it contains reaches
out of it, with one exception. A bar outside all of its groups would cut in two the branch
in which it stands, so either it has no such bar or nothing precedes it in its branch.

## Main definitions

* `Place` — what stands around a pattern text
* `Reading.within` — what has been read, at a place
* `Reading.Rests` — no construct is open, and what has been read is what precedes a place
* `Reading.Holds` — the same with an atom held back behind it
* `Splices` — a text that adds given members to a branch wherever it stands

## Main results

* `Reading.read_within` — reading at a place is reading alone, at that place
* `Splices.append`, `splices_group` — side by side, and in a group
* `splices_of_parse`, `Splices.parse` — a sequence is a text that can be spliced
-/

namespace StringTransform

/-- The opening of a group of this kind, in the notation that tells all kinds apart. -/
def GroupKind.opening : GroupKind → String
  | .plain => "(?:"
  | .look true => "(?!"
  | .look false => "(?="

/-! ### Places -/

/-- The content of a level, put behind the content of another one. -/
def Level.atop (level before : Level) : Level :=
  ⟨level.branches ++ before.branches, level.members ++ before.members⟩

@[simp] theorem Level.atop_empty (level : Level) : level.atop .empty = level := by
  simp [atop, empty]

/-- A place in a pattern text: what precedes it at its level, and the open groups. -/
structure Place where
  before : Level
  groups : List OpenGroup

/-- The place behind more members of the branch being read. -/
def Place.add (place : Place) (ms : List Pattern) : Place :=
  { place with before := { place.before with members := ms.reverse ++ place.before.members } }

theorem Place.add_append (place : Place) (ms ns : List Pattern) :
    place.add (ms ++ ns) = (place.add ms).add ns := by
  simp [add]

/-- A level and the groups open around it, at a place. The outermost level goes behind what
precedes the place. -/
def Place.enclose (place : Place) : Level → List OpenGroup → Level × List OpenGroup
  | level, [] => (level.atop place.before, place.groups)
  | level, group :: groups =>
    let outer := place.enclose group.enclosing groups
    (level, { group with enclosing := outer.1 } :: outer.2)

/-- The level outside all open groups. -/
def outermost : Level → List OpenGroup → Level
  | level, [] => level
  | _, group :: groups => outermost group.enclosing groups

theorem Level.tree_eq_seq_iff {level : Level} {ms : List Pattern} :
    level.tree = .seq ms ↔ level.branches = [] ∧ level.members = ms.reverse := by
  obtain ⟨branches, members⟩ := level
  cases branches with
  | nil => simp [tree, List.reverse_eq_iff]
  | cons p ps => simp [tree]

theorem outermost_push (level : Level) (p : Pattern) (groups : List OpenGroup) :
    (outermost (level.push p) groups).branches = (outermost level groups).branches := by
  cases groups <;> rfl

namespace Reading

/-- What has been read, at a place. -/
def within (place : Place) (r : Reading) : Reading :=
  { r with
    level := (place.enclose r.level r.groups).1
    groups := (place.enclose r.level r.groups).2 }

/-- Whether what has been read may stand at a place: bars outside all of its groups need
an empty branch there. -/
def Fits (place : Place) (r : Reading) : Prop :=
  (outermost r.level r.groups).branches = [] ∨ place.before.members = []

variable {place : Place} {r next : Reading}

theorem flush_within (pending : Option Pattern) :
    (r.within place).flush pending = (r.flush pending).within place := by
  obtain ⟨offset, level, groups, mode⟩ := r
  cases pending with
  | none => rfl
  | some p => cases groups <;> rfl

theorem fits_of_flush {pending : Option Pattern} (fits : (r.flush pending).Fits place) :
    r.Fits place := by
  cases pending with
  | none => exact fits
  | some p => exact fits.imp_left fun h => (outermost_push r.level p r.groups).symm.trans h

theorem closeGroup_within (closed : r.closeGroup = .ok next) (fits : next.Fits place) :
    r.Fits place ∧ (r.within place).closeGroup = .ok (next.within place) := by
  obtain ⟨offset, level, groups, mode⟩ := r
  cases groups with
  | nil => exact nomatch closed
  | cons group groups =>
    cases closed
    exact ⟨fits, rfl⟩

/-- A bar may be read at the place if the branch it ends is empty below. -/
theorem split_within (fits : { r with level := r.level.split }.Fits place) :
    r.Fits place ∧ { r.within place with level := (r.within place).level.split } =
      { r with level := r.level.split }.within place := by
  obtain ⟨offset, level, groups, mode⟩ := r
  cases groups with
  | cons group groups => exact ⟨fits, rfl⟩
  | nil =>
    have noMembers : place.before.members = [] := fits.resolve_left (List.cons_ne_nil _ _)
    refine ⟨.inr noMembers, ?_⟩
    simp [within, Place.enclose, Level.atop, Level.split, noMembers]

theorem startAtom_within {c : Char} (taken : r.startAtom c = .ok next) (fits : next.Fits place) :
    r.Fits place ∧ (r.within place).startAtom c = .ok (next.within place) := by
  unfold startAtom at taken ⊢
  split at taken
  -- A closing parenthesis and a bar act on the levels; whatever else starts a construct
  -- leaves them as they are.
  case h_2 => exact closeGroup_within taken fits
  case h_3 =>
    cases taken
    obtain ⟨fits, split⟩ := split_within fits
    exact ⟨fits, congrArg Except.ok split⟩
  all_goals
    cases taken
    exact ⟨fits, rfl⟩

theorem stepBetween_eq_startAtom {pending : Option Pattern} {c : Char}
    (plain : Quantifier.ofChar? c = none) :
    r.stepBetween pending c = (r.flush pending).startAtom c := by
  unfold stepBetween
  rw [plain]

theorem stepBetween_within {pending : Option Pattern} {c : Char}
    (taken : r.stepBetween pending c = .ok next) (fits : next.Fits place) :
    r.Fits place ∧ (r.within place).stepBetween pending c = .ok (next.within place) := by
  cases quantifier : Quantifier.ofChar? c with
  | some q =>
    unfold stepBetween at taken ⊢
    rw [quantifier] at taken ⊢
    cases pending with
    | none => exact nomatch taken
    | some p =>
      cases taken
      exact ⟨fits_of_flush fits, congrArg Except.ok (flush_within _)⟩
  | none =>
    rw [stepBetween_eq_startAtom quantifier] at taken
    obtain ⟨fits, started⟩ := startAtom_within taken fits
    rw [stepBetween_eq_startAtom quantifier, flush_within]
    exact ⟨fits_of_flush fits, started⟩

theorem stepKind_within {start : Nat} {c : Char} (taken : r.stepKind start c = .ok next)
    (fits : next.Fits place) :
    r.Fits place ∧ (r.within place).stepKind start c = .ok (next.within place) := by
  unfold stepKind at taken ⊢
  split at taken <;> cases taken <;> exact ⟨fits, rfl⟩

theorem stepCode_within {start : Nat} {digits : CodeDigits} {c : Char}
    (taken : r.stepCode start digits c = .ok next) (fits : next.Fits place) :
    r.Fits place ∧ (r.within place).stepCode start digits c = .ok (next.within place) := by
  unfold stepCode at taken ⊢
  cases extended : digits.extend? c with
  | none =>
    rw [extended] at taken
    exact nomatch taken
  | some more =>
    simp only [extended] at taken ⊢
    by_cases unfinished : more.count < 4
    · rw [if_pos unfinished] at taken ⊢
      cases taken
      exact ⟨fits, rfl⟩
    · rw [if_neg unfinished] at taken ⊢
      cases named : more.char? with
      | none =>
        rw [named] at taken
        exact nomatch taken
      | some x =>
        rw [named] at taken
        cases taken
        exact ⟨fits, rfl⟩

theorem take_within {c : Char} (taken : r.take c = .ok next) (fits : next.Fits place) :
    r.Fits place ∧ (r.within place).take c = .ok (next.within place) := by
  obtain ⟨offset, level, groups, mode⟩ := r
  -- Inside an escape or a set only the mode changes, and the place is not looked at.
  cases mode with
  | between pending => exact stepBetween_within taken fits
  | opened start =>
    simp only [take, within] at taken ⊢
    split at taken
    · next question =>
      cases taken
      exact ⟨fits, if_pos question⟩
    · next other =>
      rw [if_neg other]
      exact stepBetween_within taken fits
  | kind start => exact stepKind_within taken fits
  | escape start =>
    simp only [take, within] at taken ⊢
    split at taken
    · next code =>
      cases taken
      exact ⟨fits, if_pos code⟩
    · next other =>
      cases taken
      exact ⟨fits, if_neg other⟩
  | code start digits => exact stepCode_within taken fits
  | set reading =>
    obtain ⟨result, step, rfl⟩ := map_eq_ok_iff.mp taken
    simp only [take, within, step]
    cases result <;> exact ⟨fits, rfl⟩

/-- A step that succeeds alone succeeds at a place as well, and leads to the same reading
at that place. -/
theorem step_within {c : Char} (step : r.step c = .ok next) (fits : next.Fits place) :
    r.Fits place ∧ (r.within place).step c = .ok (next.within place) := by
  obtain ⟨after, taken, rfl⟩ := map_eq_ok_iff.mp step
  obtain ⟨fits, taken⟩ : r.Fits place ∧ (r.within place).take c = .ok (after.within place) :=
    take_within taken fits
  exact ⟨fits, map_eq_ok_iff.mpr ⟨_, taken, rfl⟩⟩

theorem read_cons (r : Reading) (c : Char) (cs : List Char) :
    r.read (c :: cs) = (r.step c).bind fun next => next.read cs := rfl

/-- Reading at a place is reading alone, at that place. -/
theorem read_within {cs : List Char} (read : r.read cs = .ok next) (fits : next.Fits place) :
    r.Fits place ∧ (r.within place).read cs = .ok (next.within place) := by
  -- Whether the last reading fits decides whether all of them do: branches are only added.
  induction cs generalizing r with
  | nil =>
    cases read
    exact ⟨fits, rfl⟩
  | cons c cs ih =>
    obtain ⟨after, taken, rest⟩ := bind_eq_ok_iff.mp (read_cons r c cs ▸ read)
    obtain ⟨fits, rest⟩ := ih rest
    obtain ⟨fits, taken⟩ := step_within taken fits
    exact ⟨fits, bind_eq_ok_iff.mpr ⟨_, taken, rest⟩⟩

/-! ### Readings at rest -/

/-- No construct is open, and apart from an atom held back, which belongs to the branch
being read, nothing has been read but what precedes the place. -/
def Rests (r : Reading) (place : Place) : Prop :=
  ∃ pending, r.mode = .between pending ∧ r.flush pending = (start r.offset).within place

theorem rests_start (offset : Nat) : (start offset).Rests ⟨.empty, []⟩ :=
  ⟨none, rfl, rfl⟩

theorem Rests.within {level : Level} (rests : r.Rests ⟨level, []⟩) (place : Place) :
    (r.within place).Rests ⟨level.atop place.before, place.groups⟩ := by
  obtain ⟨pending, mode, flush⟩ := rests
  refine ⟨pending, mode, ?_⟩
  rw [flush_within, flush]
  rfl

/-- The atom is held back, and apart from it nothing has been read but what precedes the
place. -/
structure Holds (r : Reading) (place : Place) (p : Pattern) : Prop where
  mode : r.mode = .between (some p)
  level : r.level = place.before
  groups : r.groups = place.groups

/-- An atom held back is a member of the branch being read. -/
theorem Holds.rests {p : Pattern} (holds : r.Holds place p) : r.Rests (place.add [p]) := by
  obtain ⟨offset, level, groups, mode⟩ := r
  obtain ⟨rfl, rfl, rfl⟩ := holds
  exact ⟨some p, rfl, rfl⟩

/-- The pattern is finished at rest outside all groups, and only there. -/
theorem finish_eq_ok_iff {p : Pattern} :
    r.finish = .ok p ↔ ∃ level : Level, r.Rests ⟨level, []⟩ ∧ level.tree = p := by
  obtain ⟨offset, level, groups, mode⟩ := r
  constructor
  · intro finished
    cases mode with
    | between pending =>
      cases groups with
      | cons group groups => exact nomatch finished
      | nil =>
        cases finished
        exact ⟨_, ⟨pending, rfl, rfl⟩, rfl⟩
    | _ => exact nomatch finished
  · rintro ⟨last, ⟨pending, rfl, flush⟩, rfl⟩
    cases congrArg Reading.groups flush
    exact congrArg (fun r => Except.ok r.level.tree) flush

/-- A quantifier has nothing to apply to when no atom is held back. -/
theorem ofChar?_eq_none_of_read {c : Char} {cs : List Char} (fresh : r.mode = .between none)
    (read : r.read (c :: cs) = .ok next) : Quantifier.ofChar? c = none := by
  obtain ⟨after, step, -⟩ := bind_eq_ok_iff.mp (read_cons _ c cs ▸ read)
  obtain ⟨after, taken, -⟩ := map_eq_ok_iff.mp step
  cases quantifier : Quantifier.ofChar? c with
  | none => rfl
  | some q =>
    simp only [take, fresh, stepBetween, quantifier] at taken
    cases taken

/-- At rest the next character is read as at the start of a text, unless it is a
quantifier. -/
theorem Rests.step_eq (rests : r.Rests place) {c : Char} (plain : Quantifier.ofChar? c = none) :
    r.step c = ((start r.offset).within place).step c := by
  obtain ⟨pending, mode, flush⟩ := rests
  have taken : r.take c = ((start r.offset).within place).take c := by
    calc r.take c = r.stepBetween pending c := by simp only [take, mode]
      _ = (r.flush pending).startAtom c := stepBetween_eq_startAtom plain
      _ = (((start r.offset).within place).flush none).startAtom c := by rw [flush]; rfl
      _ = ((start r.offset).within place).stepBetween none c :=
        (stepBetween_eq_startAtom plain).symm
      _ = ((start r.offset).within place).take c := rfl
  rw [step, step, taken]
  rfl

/-- At rest nothing has been read at the start of a text. -/
theorem Rests.eq_empty {offset : Nat} {level : Level}
    (rests : (start offset).Rests ⟨level, []⟩) : level = .empty := by
  obtain ⟨pending, mode, flush⟩ := rests
  cases mode
  exact (congrArg Reading.level flush).symm

/-- What leads to rest when read alone leads to rest at any place that fits. -/
theorem Rests.read {cs : List Char} {level : Level} (rests : r.Rests place)
    (alone : (start r.offset).read cs = .ok next) (atEnd : next.Rests ⟨level, []⟩)
    (fits : level.branches = [] ∨ place.before.members = []) :
    ∃ last, r.read cs = .ok last ∧ last.Rests ⟨level.atop place.before, place.groups⟩ := by
  cases cs with
  | nil =>
    cases alone
    exact ⟨r, rfl, atEnd.eq_empty ▸ rests⟩
  | cons c cs =>
    have fits : next.Fits place := by
      obtain ⟨pending, -, flush⟩ := atEnd
      have settled : (next.flush pending).Fits place := by
        rw [flush]
        simpa [Fits, Reading.within, Place.enclose, outermost, start, Level.atop, Level.empty]
          using fits
      exact fits_of_flush settled
    refine ⟨next.within place, ?_, atEnd.within place⟩
    rw [read_cons, rests.step_eq (ofChar?_eq_none_of_read rfl alone), ← read_cons]
    exact (read_within alone fits).2

/-- An opening parenthesis with the mark of its kind leads to the start of a group. -/
theorem Rests.read_opening (rests : r.Rests place) (kind : GroupKind) :
    ∃ next, r.read kind.opening.toList = .ok next ∧
      next.Rests ⟨.empty, ⟨kind, r.offset, place.before⟩ :: place.groups⟩ := by
  have parenthesis : r.step '(' = ((start r.offset).within place).step '(' := rests.step_eq rfl
  let next : Reading :=
    ⟨r.offset + 1 + 1 + 1, .empty, ⟨kind, r.offset, place.before⟩ :: place.groups, .between none⟩
  refine ⟨next, ?_, none, rfl, rfl⟩
  cases kind with
  | plain =>
    show r.read ['(', '?', ':'] = _
    rw [read_cons, parenthesis]
    rfl
  | look negated =>
    cases negated with
    | true =>
      show r.read ['(', '?', '!'] = _
      rw [read_cons, parenthesis]
      rfl
    | false =>
      show r.read ['(', '?', '='] = _
      rw [read_cons, parenthesis]
      rfl

/-- The closing parenthesis makes an atom of a group. -/
theorem Rests.read_closing {level : Level} {kind : GroupKind} {start : Nat}
    (rests : r.Rests ⟨level, ⟨kind, start, place.before⟩ :: place.groups⟩) :
    ∃ next, r.read [')'] = .ok next ∧ next.Holds place (kind.wrap level.tree) := by
  let next : Reading :=
    ⟨r.offset + 1, place.before, place.groups, .between (some (kind.wrap level.tree))⟩
  refine ⟨next, ?_, rfl, rfl, rfl⟩
  rw [read_cons, rests.step_eq rfl]
  rfl

end Reading

/-! ### Splicing -/

/-- A pattern text that adds the members `ms` to a branch wherever it stands, and does
nothing else. -/
def Splices (source : String) (ms : List Pattern) : Prop :=
  ∀ ⦃r : Reading⦄ ⦃place : Place⦄, r.Rests place →
    ∃ next, r.read source.toList = .ok next ∧ next.Rests (place.add ms)

namespace Pattern

/-- A text denotes a pattern if reading it alone, wherever it starts, leads to rest outside
all groups with that pattern read. -/
theorem parse_eq_ok_iff {source : String} {p : Pattern} (offset : Nat) :
    parse source = .ok p ↔
      ∃ next level, (Reading.start offset).read source.toList = .ok next ∧
        next.Rests ⟨level, []⟩ ∧ level.tree = p := by
  rw [parse_eq_ok_iff_parseChars offset]
  constructor
  · rintro ⟨stop, parsed⟩
    obtain ⟨next, read, finished⟩ := bind_eq_ok_iff.mp parsed
    obtain ⟨q, finished, result⟩ := map_eq_ok_iff.mp finished
    obtain ⟨level, rests, tree⟩ := Reading.finish_eq_ok_iff.mp finished
    exact ⟨next, level, read, rests, tree.trans (congrArg Prod.fst result)⟩
  · rintro ⟨next, level, read, rests, tree⟩
    have finished : next.finish = .ok p := Reading.finish_eq_ok_iff.mpr ⟨level, rests, tree⟩
    exact ⟨next.offset, bind_eq_ok_iff.mpr ⟨next, read, map_eq_ok_iff.mpr ⟨p, finished, rfl⟩⟩⟩

/-- A text denotes a sequence or alternatives. -/
theorem seq_or_alt_of_parse {source : String} {p : Pattern} (parsed : parse source = .ok p) :
    (∃ ms, p = .seq ms) ∨ ∃ bs, p = .alt bs := by
  obtain ⟨next, ⟨branches, members⟩, -, -, rfl⟩ := (parse_eq_ok_iff 0).mp parsed
  cases branches with
  | nil => exact .inl ⟨_, rfl⟩
  | cons b bs => exact .inr ⟨_, rfl⟩

end Pattern

theorem Splices.append {s t : String} {ms ns : List Pattern} (hs : Splices s ms)
    (ht : Splices t ns) : Splices (s ++ t) (ms ++ ns) := by
  intro r place rests
  obtain ⟨middle, first, rests⟩ := hs rests
  obtain ⟨last, second, rests⟩ := ht rests
  refine ⟨last, ?_, place.add_append ms ns ▸ rests⟩
  rw [String.toList_append, Reading.read_append, first]
  exact second

/-- A text that denotes a sequence adds the members of that sequence. -/
theorem splices_of_parse {source : String} {ms : List Pattern}
    (parsed : Pattern.parse source = .ok (.seq ms)) : Splices source ms := by
  intro r place rests
  obtain ⟨next, level, read, atEnd, tree⟩ := (Pattern.parse_eq_ok_iff r.offset).mp parsed
  obtain ⟨branches, members⟩ := Level.tree_eq_seq_iff.mp tree
  obtain ⟨last, read, rests⟩ := rests.read read atEnd (.inl branches)
  have added : ⟨level.atop place.before, place.groups⟩ = place.add ms := by
    simp [Level.atop, Place.add, branches, members]
  exact ⟨last, read, added ▸ rests⟩

/-- A text that adds members to a branch denotes the sequence of these members. -/
theorem Splices.parse {source : String} {ms : List Pattern} (splices : Splices source ms) :
    Pattern.parse source = .ok (.seq ms) := by
  obtain ⟨next, read, rests⟩ := splices (Reading.rests_start 0)
  refine (Pattern.parse_eq_ok_iff 0).mpr ⟨next, _, read, rests, ?_⟩
  simp [Level.tree, Level.empty]

/-- A pattern text put into a group adds one member, whatever it denotes. -/
theorem splices_group (kind : GroupKind) {source : String} {p : Pattern}
    (parsed : Pattern.parse source = .ok p) :
    Splices (kind.opening ++ source ++ ")") [kind.wrap p] := by
  intro r place rests
  obtain ⟨opened, opening, rests⟩ := rests.read_opening kind
  obtain ⟨next, level, read, atEnd, tree⟩ := (Pattern.parse_eq_ok_iff opened.offset).mp parsed
  obtain ⟨content, reads, rests⟩ := rests.read read atEnd (.inr rfl)
  obtain ⟨last, closing, holds⟩ := (level.atop_empty ▸ rests).read_closing
  refine ⟨last, ?_, tree ▸ holds.rests⟩
  rw [String.toList_append, String.toList_append, Reading.read_append, Reading.read_append,
    opening]
  show ((opened.read source.toList).bind fun next => next.read [')']) = _
  rw [reads]
  exact closing

end StringTransform
