import StringTransform.Proofs.Grammar.Sets
import StringTransform.Proofs.Pattern.Splicing

/-!
# What derives from the grammar is read

Reading decides what a character belongs to when it comes, and the grammar splits a text
into phrases as a whole. The induction is on the derivation. For each kind of phrase it says
what reading such a text does from any place in a pattern text: a branch adds its members,
an atom is held back, and branches leave the last of them as the one being read. Nothing that
follows the phrase matters to this, because no character is looked at before its turn.

## Main definitions

* `Reads` — reading a text does what its phrase says, wherever the text stands

## Main results

* `reads_of_derives` — whatever derives a phrase is read as that phrase
* `parse_of_denotes` — a text that derives a pattern is read as that pattern
-/

namespace StringTransform.Reading

variable {r next last : Reading} {place : Place} {p : Pattern} {c : Char} {cs ds : List Char}

theorem read_append_of_eq (first : r.read cs = .ok next) (second : next.read ds = .ok last) :
    r.read (cs ++ ds) = .ok last := by
  rw [read_append, first]
  exact second

theorem read_cons_of_eq (first : r.step c = .ok next) (others : next.read cs = .ok last) :
    r.read (c :: cs) = .ok last := by
  rw [read_cons, first]
  exact others

theorem read_singleton_of_eq (step : r.step c = .ok next) : r.read [c] = .ok next :=
  read_cons_of_eq step rfl

/-! ### Characters outside character sets -/

/-- At rest a character starts a construct at the place, unless it is a quantifier. -/
theorem Rests.step_of_startAtom (rests : r.Rests place) (plain : Quantifier.ofChar? c = none)
    (started : startAtom ⟨r.offset, place.before, place.groups, .between none⟩ c = .ok next) :
    r.step c = .ok { next with offset := r.offset + c.utf8Size } := by
  rw [rests.step_eq plain, step, take]
  refine map_eq_ok_iff.mpr ⟨next, ?_, rfl⟩
  rw [← started]
  exact stepBetween_eq_startAtom plain

/-- A character without a meaning of its own is held back as itself. -/
theorem startAtom_of_plain (plain : Grammar.isSpecial c = false) :
    r.startAtom c = .ok (r.hold (.single (.literal c))) := by
  unfold startAtom
  split
  case h_9 => rfl
  all_goals cases plain

theorem ofChar?_eq_none_of_plain (plain : Grammar.isSpecial c = false) :
    Quantifier.ofChar? c = none := by
  unfold Quantifier.ofChar?
  split
  case h_4 => rfl
  all_goals cases plain

/-- A quantifier applies to the atom that is held back. -/
theorem Holds.read_quantifier {q : Quantifier} (holds : r.Holds place p)
    (quantifier : Quantifier.ofChar? c = some q) :
    ∃ next, r.read [c] = .ok next ∧ next.Rests (place.add [.quantified q p]) := by
  obtain ⟨offset, level, groups, mode⟩ := r
  obtain ⟨rfl, rfl, rfl⟩ := holds
  let next : Reading :=
    ⟨offset + c.utf8Size, place.before.push (.quantified q p), place.groups, .between none⟩
  have step : step ⟨offset, place.before, place.groups, .between (some p)⟩ c = .ok next := by
    simp only [Reading.step, take, stepBetween, quantifier]
    rfl
  exact ⟨next, read_singleton_of_eq step, none, rfl, rfl⟩

/-- A bar completes the branch being read. -/
theorem Rests.step_bar (rests : r.Rests place) :
    ∃ next, r.step '|' = .ok next ∧ next.Rests ⟨place.before.split, place.groups⟩ :=
  ⟨_, rests.step_of_startAtom rfl rfl, none, rfl, rfl⟩

/-- Behind a parenthesis without a question mark the content of a group comes. -/
theorem read_opened {start : Nat} (mode : r.mode = .opened start) (plain : c ≠ '?') :
    r.read (c :: cs) = (r.openGroup .plain start).read (c :: cs) := by
  have step : r.step c = (r.openGroup .plain start).step c := by
    simp only [step, take, mode, if_neg plain]
    rfl
  rw [read_cons, read_cons, step]

/-! ### Code points and character sets -/

/-- The digits that complete a code-point escape lead to the character that they name. -/
theorem read_code {digits : CodeDigits} {start : Nat} {x : Char} (names : Grammar.Names digits cs x)
    (mode : r.mode = .code start digits) (level : r.level = place.before)
    (groups : r.groups = place.groups) :
    ∃ next, r.read cs = .ok next ∧ next.Holds place (.single (.literal x)) := by
  induction names generalizing r with
  | @last digits more c x next complete names =>
    have step : r.step c =
        .ok { r.hold (.single (.literal x)) with offset := r.offset + c.utf8Size } := by
      simp only [step, take, mode, stepCode, next, if_neg complete, names]
      rfl
    exact ⟨_, read_singleton_of_eq step, rfl, level, groups⟩
  | @more digits more c x cs next incomplete others ih =>
    have step : r.step c =
        .ok { r with mode := .code start more, offset := r.offset + c.utf8Size } := by
      simp only [step, take, mode, stepCode, next, if_pos incomplete]
      rfl
    obtain ⟨last, read, holds⟩ := ih (r := { r with mode := .code start more, offset := _ })
      rfl level groups
    exact ⟨last, read_cons_of_eq step read, holds⟩

/-- The text that completes a set leads to its test. -/
theorem read_set {set : SetReading} {test : CharTest} (completes : set.Completes cs test)
    (mode : r.mode = .set set) (level : r.level = place.before)
    (groups : r.groups = place.groups) :
    ∃ next, r.read cs = .ok next ∧ next.Holds place (.single test) := by
  -- What a character leaves of the text completes the set that it leads to.
  induction cs generalizing r set with
  | nil => exact absurd completes SetReading.not_completes_nil
  | cons c cs ih =>
    have follows : SetReading.Follows (set.step r.offset c) cs test :=
      SetReading.completes_cons_iff.mp completes
    cases result : set.step r.offset c with
    | error fault =>
      rw [result] at follows
      cases follows
    | ok taken =>
      rw [result] at follows
      cases taken with
      | inl more =>
        have step : r.step c =
            .ok { r with mode := .set more, offset := r.offset + c.utf8Size } := by
          simp only [step, take, mode, result]
          rfl
        obtain ⟨last, read, holds⟩ := ih (r := { r with mode := .set more, offset := _ })
          follows rfl level groups
        exact ⟨last, read_cons_of_eq step read, holds⟩
      | inr closed =>
        obtain ⟨rfl, rfl⟩ := follows
        have step : r.step c =
            .ok { r.hold (.single closed) with offset := r.offset + c.utf8Size } := by
          simp only [step, take, mode, result]
          rfl
        exact ⟨_, read_singleton_of_eq step, rfl, level, groups⟩

theorem Rests.read_bracket {test : CharTest} (rests : r.Rests place)
    (body : Grammar.SetBody cs test) :
    ∃ next, r.read ('[' :: cs) = .ok next ∧ next.Holds place (.single test) := by
  have bracket : startAtom ⟨r.offset, place.before, place.groups, .between none⟩ '[' =
      .ok ⟨r.offset, place.before, place.groups, .set (.opened r.offset)⟩ := rfl
  let inside : Reading :=
    ⟨r.offset + 1, place.before, place.groups, .set (.opened r.offset)⟩
  have step : r.step '[' = .ok inside := rests.step_of_startAtom rfl bracket
  obtain ⟨next, read, holds⟩ :
      ∃ next, inside.read cs = .ok next ∧ next.Holds place (.single test) :=
    read_set (SetReading.completes_opened_iff.mpr body) rfl rfl rfl
  exact ⟨next, read_cons_of_eq step read, holds⟩

/-- Behind a backslash the construct is an escape. -/
theorem Rests.step_backslash (rests : r.Rests place) :
    r.step '\\' = .ok ⟨r.offset + 1, place.before, place.groups, .escape r.offset⟩ := by
  have backslash : startAtom ⟨r.offset, place.before, place.groups, .between none⟩ '\\' =
      .ok ⟨r.offset, place.before, place.groups, .escape r.offset⟩ := rfl
  exact rests.step_of_startAtom rfl backslash

theorem Rests.read_escape (rests : r.Rests place) (plain : c ≠ 'u') :
    ∃ next, r.read ['\\', c] = .ok next ∧ next.Holds place (escapedAtom c) := by
  let next : Reading :=
    ⟨r.offset + 1 + c.utf8Size, place.before, place.groups, .between (some (escapedAtom c))⟩
  have escaped :
      step ⟨r.offset + 1, place.before, place.groups, .escape r.offset⟩ c = .ok next := by
    simp only [step, take, if_neg plain]
    rfl
  exact ⟨next, read_cons_of_eq rests.step_backslash (read_singleton_of_eq escaped), rfl, rfl, rfl⟩

theorem Rests.read_code_point {x : Char} (rests : r.Rests place) (digits : Grammar.CodePoint cs x) :
    ∃ next, r.read ('\\' :: 'u' :: cs) = .ok next ∧ next.Holds place (.single (.literal x)) := by
  let inside : Reading :=
    ⟨r.offset + 1 + 1, place.before, place.groups, .code r.offset .empty⟩
  have letter : step ⟨r.offset + 1, place.before, place.groups, .escape r.offset⟩ 'u' =
      .ok inside := rfl
  obtain ⟨next, read, holds⟩ : ∃ next, inside.read cs = .ok next ∧
      next.Holds place (.single (.literal x)) :=
    read_code (Grammar.names_empty_iff.mpr digits) rfl rfl rfl
  exact ⟨next, read_cons_of_eq rests.step_backslash (read_cons_of_eq letter read), holds⟩

end StringTransform.Reading

namespace StringTransform.Grammar

open Reading

/-! ### Phrases -/

/-- Wherever the text stands, reading it does what the phrase says. Branches start where no
member of a branch precedes them, and leave the last of them as the branch being read. -/
def Reads (cs : List Char) : Phrase → Prop
  | .branches bs => ∀ ⦃r : Reading⦄ ⦃before : List Pattern⦄ ⦃groups : List OpenGroup⦄,
    r.Rests ⟨⟨before, []⟩, groups⟩ → ∃ next level, r.read cs = .ok next ∧
      next.Rests ⟨level, groups⟩ ∧ level.split.branches = bs.reverse ++ before
  | .branch ms => ∀ ⦃r : Reading⦄ ⦃place : Place⦄, r.Rests place →
    ∃ next, r.read cs = .ok next ∧ next.Rests (place.add ms)
  | .member m => ∀ ⦃r : Reading⦄ ⦃place : Place⦄, r.Rests place →
    ∃ next, r.read cs = .ok next ∧ next.Rests (place.add [m])
  | .atom p => ∀ ⦃r : Reading⦄ ⦃place : Place⦄, r.Rests place →
    ∃ next, r.read cs = .ok next ∧ next.Holds place p

variable {cs ds : List Char} {c : Char} {p : Pattern} {bs : List Pattern}

theorem choice_concat {b : Pattern} (several : bs ≠ []) :
    choice (bs ++ [b]) = .alt (bs ++ [b]) := by
  have positive := List.length_pos_iff.mpr several
  apply choice_of_several
  rw [List.length_append, List.length_singleton]
  omega

/-- The content of a level is the choice between its branches. -/
theorem tree_eq_choice (level : Level) : level.tree = choice level.split.branches.reverse := by
  obtain ⟨branches, members⟩ := level
  cases branches with
  | nil => rfl
  | cons b bs =>
    have several : (b :: bs).reverse ≠ [] := by simp
    simpa [Level.tree, Level.split] using (choice_concat several).symm

/-- An atom that is a single character. -/
theorem reads_single (plain : Quantifier.ofChar? c = none)
    (started : ∀ r : Reading, r.startAtom c = .ok (r.hold p)) : Reads [c] (.atom p) := by
  intro r place rests
  exact ⟨_, read_singleton_of_eq (rests.step_of_startAtom plain (started _)), rfl, rfl, rfl⟩

/-- The content of a group and its closing parenthesis, behind the opening of the group. -/
theorem read_content {r : Reading} {place : Place} {kind : GroupKind} {start : Nat}
    (content : Reads cs (.branches bs))
    (rests : r.Rests ⟨.empty, ⟨kind, start, place.before⟩ :: place.groups⟩) :
    ∃ next, r.read (cs ++ [')']) = .ok next ∧ next.Holds place (kind.wrap (choice bs)) := by
  obtain ⟨inner, level, read, rests, branches⟩ := content rests
  obtain ⟨next, closing, holds⟩ := rests.read_closing
  have tree : level.tree = choice bs := by
    rw [tree_eq_choice, branches]
    simp
  exact ⟨next, read_append_of_eq read closing, tree ▸ holds⟩

/-- A parenthesis that nothing marks opens a group, since its content does not start with a
question mark. -/
theorem reads_bare_group (content : Reads cs (.branches bs)) :
    Reads ('(' :: (cs ++ [')'])) (.atom (.group (choice bs))) := by
  intro r place rests
  have parenthesis : startAtom ⟨r.offset, place.before, place.groups, .between none⟩ '(' =
      .ok ⟨r.offset, place.before, place.groups, .opened r.offset⟩ := rfl
  let opened : Reading := ⟨r.offset + 1, place.before, place.groups, .opened r.offset⟩
  have step : r.step '(' = .ok opened := rests.step_of_startAtom rfl parenthesis
  let inside : Reading := opened.openGroup .plain r.offset
  have fresh : inside.Rests ⟨.empty, ⟨.plain, r.offset, place.before⟩ :: place.groups⟩ :=
    ⟨none, rfl, rfl⟩
  obtain ⟨next, read, holds⟩ := read_content content fresh
  refine ⟨next, read_cons_of_eq step ?_, holds⟩
  -- The group is not opened before the next character, if only the closing parenthesis, has
  -- been looked at. A question mark there would be a quantifier with nothing to repeat.
  obtain ⟨d, ds, first⟩ : ∃ d ds, cs ++ [')'] = d :: ds :=
    List.exists_cons_of_ne_nil (by simp)
  rw [first] at read ⊢
  have plain : d ≠ '?' := by
    rintro rfl
    cases ofChar?_eq_none_of_read rfl read
  rw [read_opened rfl plain]
  exact read

theorem reads_group {kind : GroupKind} {opening : List Char} (opens : Opens kind opening)
    (content : Reads cs (.branches bs)) :
    Reads (opening ++ cs ++ [')']) (.atom (kind.wrap (choice bs))) := by
  -- With its mark every kind of group opens alike.
  have marked : ∀ kind : GroupKind,
      Reads (kind.opening.toList ++ cs ++ [')']) (.atom (kind.wrap (choice bs))) := by
    intro kind r place rests
    obtain ⟨inside, opened, rests⟩ := rests.read_opening kind
    obtain ⟨next, read, holds⟩ := read_content content rests
    rw [List.append_assoc]
    exact ⟨next, read_append_of_eq opened read, holds⟩
  cases opens with
  | bare => exact reads_bare_group content
  | plain => exact marked .plain
  | absent => exact marked (.look true)
  | present => exact marked (.look false)

/-- Whatever derives a phrase is read as that phrase, wherever it stands. -/
theorem reads_of_derives {phrase : Phrase} (derives : Derives cs phrase) : Reads cs phrase := by
  induction derives with
  | @lastBranch cs ms branch ih =>
    intro r before groups rests
    obtain ⟨next, read, rests⟩ := ih rests
    refine ⟨next, _, read, rests, ?_⟩
    simp [Level.split]
  | @moreBranches cs ds ms bs branch others ihBranch ihOthers =>
    intro r before groups rests
    obtain ⟨inner, first, rests⟩ := ihBranch rests
    -- Behind the bar no member precedes the other branches.
    obtain ⟨behind, bar, rests⟩ := rests.step_bar
    obtain ⟨next, level, second, rests, branches⟩ := ihOthers rests
    refine ⟨next, level, read_append_of_eq first (read_cons_of_eq bar second), rests, ?_⟩
    simp [branches, Place.add]
  | noMember =>
    intro r place rests
    exact ⟨r, rfl, rests⟩
  | @moreMembers cs ds m ms member others ihMember ihOthers =>
    intro r place rests
    obtain ⟨inner, first, rests⟩ := ihMember rests
    obtain ⟨next, second, rests⟩ := ihOthers rests
    refine ⟨next, read_append_of_eq first second, ?_⟩
    rw [← List.singleton_append, Place.add_append]
    exact rests
  | once atom ih =>
    intro r place rests
    obtain ⟨next, read, holds⟩ := ih rests
    exact ⟨next, read, holds.rests⟩
  | quantified atom quantifier ih =>
    intro r place rests
    obtain ⟨inner, first, holds⟩ := ih rests
    obtain ⟨next, second, rests⟩ := holds.read_quantifier quantifier
    exact ⟨next, read_append_of_eq first second, rests⟩
  | group opens content ih => exact reads_group opens ih
  | @set cs test body =>
    intro r place rests
    exact rests.read_bracket body
  | @escape c plain =>
    intro r place rests
    exact rests.read_escape plain
  | @code cs x digits =>
    intro r place rests
    exact rests.read_code_point digits
  | dot => exact reads_single rfl fun _ => rfl
  | start => exact reads_single rfl fun _ => rfl
  | stop => exact reads_single rfl fun _ => rfl
  | literal plain =>
    exact reads_single (ofChar?_eq_none_of_plain plain) fun _ => startAtom_of_plain plain

/-- A text that derives a pattern is read as that pattern. -/
theorem parse_of_denotes {source : String} (denotes : Denotes source p) :
    Pattern.parse source = .ok p := by
  obtain ⟨bs, derives, rfl⟩ := denotes
  obtain ⟨next, level, read, rests, branches⟩ := reads_of_derives derives (rests_start 0)
  refine (Pattern.parse_eq_ok_iff 0).mpr ⟨next, level, read, rests, ?_⟩
  rw [tree_eq_choice, branches]
  simp

end StringTransform.Grammar
