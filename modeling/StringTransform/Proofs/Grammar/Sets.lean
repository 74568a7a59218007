import StringTransform.Proofs.Grammar.CodePoints

/-!
# Reading character sets by the grammar

A set is read one character at a time, and a character is held back until the next one
shows whether a range starts. For every stage of this the grammar says which texts complete
the set, and with which members. One step takes the first character off such a text: the
texts that complete the set before it are those whose rest completes what it leads to. So
reading goes wrong only where no text completes the set, and ends where it is closed.

## Main definitions

* `AfterChar`, `AfterTaken`, `AfterBackslash`, `AfterStart` — what may come behind a
  character, depending on what it has to be
* `Remains` — what may come next in each mode, with the members it adds
* `SetReading.Completes` — the text completes the set
* `SetReading.Follows` — the text completes what a step leads to

## Main results

* `setItems_cons_iff`, `afterChar_hyphen_cons_iff`, `afterBackslash_cons_iff` — the grammar
  of sets, one character at a time
* `SetReading.completes_cons_iff` — a step leaves what completes the set behind its character
* `SetReading.completes_opened_iff` — what completes a set from its opening bracket on
-/

namespace StringTransform.Grammar

/-! ### What may come next in a set -/

section Sets

variable {first : Bool} {lo c x : Char} {lo? : Option Char} {cs : List Char} {items : List Item}

/-- What may come behind the character `lo`: it stands alone, or it starts a range. -/
def AfterChar (lo : Char) (cs : List Char) (items : List Item) : Prop :=
  (¬StartsRange cs ∧ ∃ rest, items = .char lo :: rest ∧ SetItems false cs rest) ∨
    ∃ ds es hi rest, cs = '-' :: (ds ++ es) ∧ SetChar false ds hi ∧ lo ≤ hi ∧
      items = .range lo hi :: rest ∧ SetItems false es rest

/-- What may come behind the character `c` if it ends the range that `lo` has started. -/
def AfterTaken (lo? : Option Char) (c : Char) (cs : List Char) (items : List Item) : Prop :=
  match lo? with
  | none => AfterChar c cs items
  | some lo => lo ≤ c ∧ ∃ rest, items = .range lo c :: rest ∧ SetItems false cs rest

/-- What may come behind a backslash. -/
def AfterBackslash (lo? : Option Char) (cs : List Char) (items : List Item) : Prop :=
  (lo? = none ∧ ∃ c ds item rest, cs = c :: ds ∧ kind? c = some item ∧ items = item :: rest ∧
      SetItems false ds rest) ∨
    ∃ ds es c, cs = ds ++ es ∧ SetChar false ('\\' :: ds) c ∧ AfterTaken lo? c es items

/-- What may come behind a character `c` that is not taken as the end of the set. -/
def AfterStart (c : Char) (cs : List Char) (items : List Item) : Prop :=
  if c = '\\' then AfterBackslash none cs items else AfterChar c cs items

/-- A backslash starts the same characters in every place of a set. -/
theorem SetChar.of_backslash {place : Bool} (char : SetChar first ('\\' :: cs) c) :
    SetChar place ('\\' :: cs) c := by
  cases char with
  | raw plain => exact absurd rfl plain
  | escaped single plain => exact .escaped single plain
  | code digits => exact .code digits

/-- A single character in front of a text is the first character of the text, unless that is
a backslash, to which more belongs. -/
theorem exists_setChar_cons_iff {P : Char → List Char → Prop} :
    (∃ ds es x, c :: cs = ds ++ es ∧ SetChar first ds x ∧ P x es) ↔
      if c = '\\' then ∃ ds es x, cs = ds ++ es ∧ SetChar false ('\\' :: ds) x ∧ P x es
      else (c = ']' → first = true) ∧ P c cs := by
  constructor
  · rintro ⟨ds, es, x, whole, char, after⟩
    cases ds with
    | nil => cases char
    | cons d ds =>
      obtain ⟨rfl, rfl⟩ := List.cons.inj whole
      split
      · next backslash =>
        subst backslash
        exact ⟨ds, es, x, rfl, char.of_backslash, after⟩
      · next other =>
        cases char with
        | raw plain place => exact ⟨place, after⟩
        | escaped => exact absurd rfl other
        | code => exact absurd rfl other
  · intro h
    split at h
    · next backslash =>
      obtain ⟨ds, es, x, rfl, char, after⟩ := h
      subst backslash
      exact ⟨'\\' :: ds, es, x, rfl, char.of_backslash, after⟩
    · next other => exact ⟨[c], cs, c, rfl, .raw other h.1, h.2⟩

theorem setItems_iff :
    SetItems first cs items ↔
      (first = false ∧ cs = [']'] ∧ items = []) ∨
      (∃ c ds item rest, cs = '\\' :: c :: ds ∧ kind? c = some item ∧ items = item :: rest ∧
        SetItems false ds rest) ∨
      ∃ ds es c, cs = ds ++ es ∧ SetChar first ds c ∧ AfterChar c es items := by
  constructor
  · intro derived
    cases derived with
    | close => exact .inl ⟨rfl, rfl, rfl⟩
    | kind names others => exact .inr (.inl ⟨_, _, _, _, rfl, names, rfl, others⟩)
    | char char alone others =>
      exact .inr (.inr ⟨_, _, _, rfl, char, .inl ⟨alone, _, rfl, others⟩⟩)
    | range low high ordered others =>
      exact .inr (.inr ⟨_, _, _, rfl, low, .inr ⟨_, _, _, _, rfl, high, ordered, rfl, others⟩⟩)
  · rintro (⟨rfl, rfl, rfl⟩ | ⟨c, ds, item, rest, rfl, names, rfl, others⟩ |
      ⟨ds, es, c, rfl, char, after⟩)
    · exact .close
    · exact .kind names others
    · rcases after with ⟨alone, rest, rfl, others⟩ |
        ⟨ds, es, hi, rest, rfl, high, ordered, rfl, others⟩
      · exact .char char alone others
      · exact .range char high ordered others

/-- The first character of the members closes the set, or it starts a member. -/
theorem setItems_cons_iff :
    SetItems first (c :: cs) items ↔
      (first = false ∧ c = ']' ∧ cs = [] ∧ items = []) ∨
        (c = ']' → first = true) ∧ AfterStart c cs items := by
  rw [setItems_iff, exists_setChar_cons_iff, AfterStart, AfterBackslash]
  by_cases backslash : c = '\\'
  · subst backslash
    simp [AfterTaken]
  · simp [backslash, and_assoc]

theorem not_setItems_nil : ¬SetItems first [] items := by
  rw [setItems_iff]
  rintro (⟨-, whole, -⟩ | ⟨c, ds, item, rest, whole, -⟩ | ⟨ds, es, c, whole, char, -⟩)
  · cases whole
  · cases whole
  · obtain ⟨rfl, -⟩ := List.append_eq_nil_iff.mp whole.symm
    cases char

theorem setItems_bracket_cons_iff : SetItems false (']' :: cs) items ↔ cs = [] ∧ items = [] := by
  simp [setItems_cons_iff]

theorem not_afterChar_nil : ¬AfterChar lo [] items := by
  rintro (⟨-, rest, -, others⟩ | ⟨ds, es, hi, rest, whole, -⟩)
  · exact not_setItems_nil others
  · cases whole

/-- Unless a hyphen comes next, a character stands alone. -/
theorem afterChar_cons_of_ne (plain : c ≠ '-') :
    AfterChar lo (c :: cs) items ↔
      ∃ rest, items = .char lo :: rest ∧ SetItems false (c :: cs) rest := by
  have alone : ¬StartsRange (c :: cs) := by
    rintro ⟨x, ds, whole, -⟩
    exact plain (List.cons.inj whole).1
  constructor
  · rintro (⟨-, standing⟩ | ⟨ds, es, hi, rest, whole, -⟩)
    · exact standing
    · exact absurd (List.cons.inj whole).1 plain
  · intro standing
    exact .inl ⟨alone, standing⟩

theorem not_afterChar_hyphen : ¬AfterChar lo ['-'] items := by
  rintro (⟨-, rest, -, others⟩ | ⟨ds, es, hi, rest, whole, char, -⟩)
  · -- A hyphen can be a member, but the set does not end behind it.
    rw [setItems_cons_iff] at others
    obtain ⟨-, absurd, -⟩ | ⟨-, start⟩ := others
    · cases absurd
    · exact not_afterChar_nil start
  · obtain ⟨rfl, -⟩ := List.append_eq_nil_iff.mp (List.cons.inj whole).2.symm
    cases char

/-- Behind a character and a hyphen the set ends, or else a range does. -/
theorem afterChar_hyphen_cons_iff :
    AfterChar lo ('-' :: c :: cs) items ↔
      if c = ']' then cs = [] ∧ items = [.char lo, .char '-']
      else if c = '\\' then AfterBackslash (some lo) cs items
      else AfterTaken (some lo) c cs items := by
  have high : (∃ ds es hi rest, '-' :: c :: cs = '-' :: (ds ++ es) ∧ SetChar false ds hi ∧ lo ≤ hi ∧
      items = .range lo hi :: rest ∧ SetItems false es rest) ↔
      ∃ ds es hi, c :: cs = ds ++ es ∧ SetChar false ds hi ∧ AfterTaken (some lo) hi es items := by
    simp [AfterTaken]
  rw [AfterChar, high, exists_setChar_cons_iff]
  by_cases bracket : c = ']'
  · subst bracket
    have alone : ¬StartsRange ('-' :: ']' :: cs) := by
      rintro ⟨x, ds, whole, other⟩
      simp only [List.cons.injEq] at whole
      exact other whole.2.1.symm
    -- In front of the closing bracket the hyphen is a member itself.
    have hyphen : ∀ rest,
        SetItems false ('-' :: ']' :: cs) rest ↔ cs = [] ∧ rest = [.char '-'] := by
      intro rest
      rw [setItems_cons_iff, AfterStart, if_neg (by decide), afterChar_cons_of_ne (by decide)]
      simp only [setItems_bracket_cons_iff]
      constructor
      · rintro (⟨-, absurd, -⟩ | ⟨-, _, rfl, rfl, rfl⟩)
        · cases absurd
        · exact ⟨rfl, rfl⟩
      · rintro ⟨rfl, rfl⟩
        exact .inr ⟨by decide, [], rfl, rfl, rfl⟩
    simp [alone, hyphen, and_comm]
  · have starts : StartsRange ('-' :: c :: cs) := ⟨c, cs, rfl, bracket⟩
    by_cases backslash : c = '\\'
    · subst backslash
      simp [starts, AfterBackslash]
    · simp [starts, bracket, backslash]

end Sets

section Escapes

variable {lo? : Option Char} {c : Char} {cs : List Char} {items : List Item}

theorem not_afterBackslash_nil : ¬AfterBackslash lo? [] items := by
  rintro (⟨-, c, ds, item, rest, whole, -⟩ | ⟨ds, es, c, whole, char, -⟩)
  · cases whole
  · obtain ⟨rfl, -⟩ := List.append_eq_nil_iff.mp whole.symm
    cases char with
    | raw plain => exact plain rfl

/-- Behind a backslash comes a letter for a kind of characters, which ends no range, or a
code point, or a character that stands for itself or for a control character. -/
theorem afterBackslash_cons_iff :
    AfterBackslash lo? (c :: cs) items ↔
      match kind? c with
      | some item => lo? = none ∧ ∃ rest, items = item :: rest ∧ SetItems false cs rest
      | none =>
        if c = 'u' then ∃ ds es x, cs = ds ++ es ∧ CodePoint ds x ∧ AfterTaken lo? x es items
        else AfterTaken lo? (unescape c) cs items := by
  have escaped : (∃ ds es x, c :: cs = ds ++ es ∧ SetChar false ('\\' :: ds) x ∧
      AfterTaken lo? x es items) ↔ kind? c = none ∧
        if c = 'u' then ∃ ds es x, cs = ds ++ es ∧ CodePoint ds x ∧ AfterTaken lo? x es items
        else AfterTaken lo? (unescape c) cs items := by
    constructor
    · rintro ⟨ds, es, x, whole, char, after⟩
      cases char with
      | raw plain => exact absurd rfl plain
      | escaped single plain =>
        obtain ⟨rfl, rfl⟩ := List.cons.inj whole
        rw [if_neg plain]
        exact ⟨single, after⟩
      | code digits =>
        obtain ⟨rfl, rfl⟩ := List.cons.inj whole
        exact ⟨rfl, _, _, _, rfl, digits, after⟩
    · rintro ⟨single, after⟩
      split at after
      · next code =>
        subst code
        obtain ⟨ds, es, x, rfl, digits, after⟩ := after
        exact ⟨'u' :: ds, es, x, rfl, .code digits, after⟩
      · next plain => exact ⟨[c], cs, unescape c, rfl, .escaped single plain, after⟩
  rw [AfterBackslash, escaped]
  cases kind : kind? c with
  | none =>
    constructor
    · rintro (⟨-, c', ds, item, rest, whole, names, -⟩ | ⟨-, after⟩)
      · obtain ⟨rfl, -⟩ := List.cons.inj whole
        rw [kind] at names
        cases names
      · exact after
    · intro after
      exact .inr ⟨rfl, after⟩
  | some item =>
    constructor
    · rintro (⟨free, c', ds, item', rest, whole, names, members, others⟩ | ⟨single, -⟩)
      · obtain ⟨rfl, rfl⟩ := List.cons.inj whole
        rw [kind] at names
        cases names
        exact ⟨free, rest, members, others⟩
      · cases single
    · rintro ⟨free, rest, members, others⟩
      exact .inl ⟨free, c, cs, item, rest, rfl, kind, members, others⟩

end Escapes

/-! ### What completes a set that is being read -/

/-- The text may come next in a mode, and adds the members. -/
def Remains : SetMode → List Char → List Item → Prop
  | .opening, cs, items | .first, cs, items => SetItems true cs items
  | .item, cs, items => SetItems false cs items
  | .held lo, cs, items => AfterChar lo cs items
  | .dashed lo, cs, items => AfterChar lo ('-' :: cs) items
  | .escape lo? _, cs, items => AfterBackslash lo? cs items
  | .code lo? _ digits, cs, items =>
    ∃ ds es c, cs = ds ++ es ∧ Names digits ds c ∧ AfterTaken lo? c es items

end StringTransform.Grammar

namespace StringTransform.SetReading

open Grammar

variable {set : SetReading} {item : Item} {c : Char} {lo? : Option Char} {cs : List Char}
  {test : CharTest} {offset start : Nat}

/-- The set becomes the test by adding members with a property. -/
def Gains (set : SetReading) (test : CharTest) (P : List Item → Prop) : Prop :=
  ∃ items, test = .set set.negated (set.items.reverse ++ items) ∧ P items

/-- The text completes the set, which then denotes the test. A caret is no member if nothing
after the opening bracket has been read. -/
def Completes (set : SetReading) (cs : List Char) (test : CharTest) : Prop :=
  match set.mode, cs with
  | .opening, '^' :: cs => { set with negated := true }.Gains test (SetItems true cs)
  | mode, cs => set.Gains test (Remains mode cs)

/-- What a step leads to is completed by the text, or the step completes the set and the
text is empty. -/
def Follows (result : Except PatternFault (SetReading ⊕ CharTest)) (cs : List Char)
    (test : CharTest) : Prop :=
  match result with
  | .ok (.inl set) => set.Completes cs test
  | .ok (.inr closed) => cs = [] ∧ closed = test
  | .error _ => False

theorem gains_congr {P Q : List Item → Prop} (same : ∀ items, P items ↔ Q items) :
    set.Gains test P ↔ set.Gains test Q :=
  exists_congr fun items => and_congr_right fun _ => same items

theorem gains_push {P : List Item → Prop} :
    (set.push item).Gains test P ↔
      set.Gains test fun items => ∃ rest, items = item :: rest ∧ P rest := by
  constructor
  · rintro ⟨rest, rfl, holds⟩
    refine ⟨item :: rest, ?_, rest, rfl, holds⟩
    simp [push]
  · rintro ⟨_, rfl, rest, rfl, holds⟩
    refine ⟨rest, ?_, holds⟩
    simp [push]

/-- Behind a complete member the other members come. -/
theorem completes_push :
    (set.push item).Completes cs test ↔
      set.Gains test fun items => ∃ rest, items = item :: rest ∧ SetItems false cs rest :=
  gains_push

theorem completes_startItem :
    (set.startItem offset c).Completes cs test ↔ set.Gains test (AfterStart c cs) := by
  unfold startItem AfterStart
  by_cases backslash : c = '\\'
  · simp only [if_pos backslash]
    rfl
  · simp only [if_neg backslash]
    rfl

theorem follows_takeChar :
    Follows ((set.takeChar lo? c).map .inl) cs test ↔ set.Gains test (AfterTaken lo? c cs) := by
  cases lo? with
  | none => rfl
  | some lo =>
    by_cases ordered : lo ≤ c
    · have taken : set.takeChar (some lo) c = .ok (set.push (.range lo c)) := if_pos ordered
      rw [taken]
      refine completes_push.trans (gains_congr fun items => ?_)
      simp [AfterTaken, ordered]
    · have refused : set.takeChar (some lo) c = .error (.invalidRange lo c) := if_neg ordered
      rw [refused]
      simp [Follows, Gains, AfterTaken, ordered, Except.map]

/-- A letter for a kind of characters is a member, and not the end of a range. -/
theorem follows_takeKind :
    Follows ((set.takeKind lo? item).map .inl) cs test ↔ set.Gains test fun items =>
      lo? = none ∧ ∃ rest, items = item :: rest ∧ SetItems false cs rest := by
  cases lo? with
  | none =>
    refine completes_push.trans (gains_congr fun items => ?_)
    simp
  | some lo => simp [Follows, Gains, takeKind, Except.map]

theorem takeEscape_of_kind (kind : kind? c = some item) :
    set.takeEscape lo? start c = set.takeKind lo? item := by
  unfold kind? at kind
  split at kind <;> cases kind <;> rfl

theorem takeEscape_of_single (kind : kind? c = none) (plain : c ≠ 'u') :
    set.takeEscape lo? start c = set.takeChar lo? (unescape c) := by
  unfold takeEscape
  split
  · cases kind
  · cases kind
  · cases kind
  · exact absurd rfl plain
  · rfl

theorem follows_takeEscape :
    Follows ((set.takeEscape lo? start c).map .inl) cs test ↔
      set.Gains test (AfterBackslash lo? (c :: cs)) := by
  cases kind : kind? c with
  | some item =>
    rw [takeEscape_of_kind kind, follows_takeKind]
    refine gains_congr fun items => ?_
    rw [afterBackslash_cons_iff, kind]
  | none =>
    by_cases code : c = 'u'
    · subst code
      refine gains_congr fun items => ?_
      rw [afterBackslash_cons_iff]
      simp [kind, Remains, names_empty_iff]
    · rw [takeEscape_of_single kind code, follows_takeChar]
      refine gains_congr fun items => ?_
      rw [afterBackslash_cons_iff]
      simp [kind, code]

theorem follows_takeDigit {digits : CodeDigits} :
    Follows ((set.takeDigit lo? start digits c).map .inl) cs test ↔
      set.Gains test (Remains (.code lo? start digits) (c :: cs)) := by
  have remains : ∀ items, Remains (.code lo? start digits) (c :: cs) items ↔
      ∃ more, digits.extend? c = some more ∧
        if more.count < 4 then Remains (.code lo? start more) cs items
        else ∃ x, more.char? = some x ∧ AfterTaken lo? x cs items :=
    fun items => exists_names_cons_iff (P := fun x es => AfterTaken lo? x es items)
  rw [gains_congr remains]
  unfold takeDigit
  cases digits.extend? c with
  | none => simp [Follows, Gains, Except.map]
  | some more =>
    by_cases incomplete : more.count < 4
    · simp only [Option.some.injEq, exists_eq_left', if_pos incomplete]
      rfl
    · simp only [Option.some.injEq, exists_eq_left', if_neg incomplete]
      cases more.char? with
      | none => simp [Follows, Gains, Except.map]
      | some x =>
        simp only [Option.some.injEq, exists_eq_left']
        exact follows_takeChar

/-- What closes the set leaves no text behind it. -/
theorem follows_close (P : List Item → Prop)
    (closes : ∀ items, P items ↔ cs = [] ∧ items = []) :
    Follows (.ok (.inr set.test)) cs test ↔ set.Gains test P := by
  rw [gains_congr closes]
  constructor
  · rintro ⟨rfl, rfl⟩
    refine ⟨[], ?_, rfl, rfl⟩
    simp [SetReading.test]
  · rintro ⟨_, rfl, rfl, rfl⟩
    refine ⟨rfl, ?_⟩
    simp [SetReading.test]

theorem setItems_first_cons_iff {items : List Item} :
    SetItems true (c :: cs) items ↔ AfterStart c cs items := by
  simp [setItems_cons_iff]

theorem setItems_item_cons_iff {items : List Item} (open_ : c ≠ ']') :
    SetItems false (c :: cs) items ↔ AfterStart c cs items := by
  simp [setItems_cons_iff, open_]

theorem completes_caret_iff (opening : set.mode = .opening) :
    set.Completes ('^' :: cs) test ↔
      { set with negated := true }.Gains test (SetItems true cs) := by
  unfold Completes
  rw [opening]
  rfl

/-- Apart from a caret behind the opening bracket, all of the text is about members. -/
theorem completes_iff (members : set.mode = .opening → cs.head? ≠ some '^') :
    set.Completes cs test ↔ set.Gains test (Remains set.mode cs) := by
  unfold Completes
  split
  · next caret _ _ opening => exact absurd rfl (members opening)
  · rfl

/-- A step leaves what completes the set behind its character. -/
theorem completes_cons_iff :
    set.Completes (c :: cs) test ↔ Follows (set.step offset c) cs test := by
  -- The caret is the one character that changes the set without being about its members.
  by_cases excludes : set.mode = .opening ∧ c = '^'
  · obtain ⟨opening, rfl⟩ := excludes
    rw [completes_caret_iff opening, step, opening]
    rfl
  have members : set.mode = .opening → (c :: cs).head? ≠ some '^' := by
    intro opening caret
    exact excludes ⟨opening, Option.some.inj caret⟩
  rw [completes_iff members, step]
  cases mode : set.mode with
  | opening =>
    have plain : c ≠ '^' := fun caret => excludes ⟨mode, caret⟩
    simp only [if_neg plain]
    exact (gains_congr fun items => setItems_first_cons_iff).trans completes_startItem.symm
  | first => exact (gains_congr fun items => setItems_first_cons_iff).trans completes_startItem.symm
  | item =>
    by_cases bracket : c = ']'
    · subst bracket
      exact (follows_close _ fun items => setItems_bracket_cons_iff).symm
    · simp only [if_neg bracket]
      exact (gains_congr fun items => setItems_item_cons_iff bracket).trans completes_startItem.symm
  | held lo =>
    by_cases hyphen : c = '-'
    · subst hyphen
      rfl
    · -- The character held back is a member, and the next one closes the set or starts another.
      simp only [if_neg hyphen]
      refine (gains_congr fun items => afterChar_cons_of_ne hyphen).trans ?_
      refine gains_push.symm.trans ?_
      by_cases bracket : c = ']'
      · subst bracket
        exact (follows_close _ fun items => setItems_bracket_cons_iff).symm
      · simp only [if_neg bracket]
        exact (gains_congr fun items => setItems_item_cons_iff bracket).trans
          completes_startItem.symm
  | dashed lo =>
    refine (gains_congr fun items => afterChar_hyphen_cons_iff).trans ?_
    by_cases bracket : c = ']'
    · subst bracket
      -- Two members come before the end: the character, and the hyphen itself.
      refine Iff.trans ?_ (gains_push.symm.trans (gains_push.symm.trans
        (follows_close _ fun items => setItems_bracket_cons_iff).symm))
      refine gains_congr fun items => ?_
      simp only [if_pos, setItems_bracket_cons_iff]
      constructor
      · rintro ⟨rfl, rfl⟩
        exact ⟨_, rfl, _, rfl, rfl, rfl⟩
      · rintro ⟨_, rfl, _, rfl, rfl, rfl⟩
        exact ⟨rfl, rfl⟩
    · by_cases backslash : c = '\\'
      · subst backslash
        rfl
      · simp only [if_neg bracket, if_neg backslash]
        exact follows_takeChar.symm
  | escape lo? start => exact follows_takeEscape.symm
  | code lo? start digits => exact follows_takeDigit.symm

/-- A set is not complete before its closing bracket. -/
theorem not_completes_nil : ¬set.Completes [] test := by
  rw [completes_iff (by simp)]
  rintro ⟨items, -, remains⟩
  cases mode : set.mode <;> rw [mode] at remains
  case opening | first => exact not_setItems_nil remains
  case item => exact not_setItems_nil remains
  case held lo => exact not_afterChar_nil remains
  case dashed lo => exact not_afterChar_hyphen remains
  case escape lo? start => exact not_afterBackslash_nil remains
  case code lo? start digits =>
    obtain ⟨ds, es, c, whole, names, -⟩ := remains
    obtain ⟨rfl, -⟩ := List.append_eq_nil_iff.mp whole.symm
    exact not_names_nil names

/-- What may follow the opening bracket is what completes a set of which only that bracket
has been read. -/
theorem completes_opened_iff : (opened start).Completes cs test ↔ SetBody cs test := by
  by_cases caret : cs.head? = some '^'
  · obtain ⟨ds, rfl⟩ := List.head?_eq_some_iff.mp caret
    rw [completes_caret_iff rfl]
    constructor
    · rintro ⟨items, rfl, members⟩
      exact .excluded members
    · intro body
      cases body with
      | listed plain => exact absurd caret plain
      | excluded members => exact ⟨_, rfl, members⟩
  · rw [completes_iff fun _ => caret]
    constructor
    · rintro ⟨items, rfl, members⟩
      exact .listed caret members
    · intro body
      cases body with
      | listed _ members => exact ⟨_, rfl, members⟩
      | excluded => exact absurd rfl caret

end StringTransform.SetReading
