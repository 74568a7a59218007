import StringTransform.Proofs.Grammar.Completeness

/-!
# What is read derives from the grammar

After every character, what has been read is spelled by the text so far: each open group by
its opening, each level by branches that derive from what stands at that level, and the
construct being read by a tail of the text that becomes an atom with whatever completes the
construct. A step keeps this, so at the end of a text that is accepted all of the text is
one list of branches. Together with completeness this says that exactly the texts of the
grammar are accepted. No text derives two patterns, since reading has one result.

## Main definitions

* `Spells` — a text spells a level and the groups open around it
* `Pending` — a tail of the text belongs to the construct being read
* `Reading.SpelledBy` — the text so far spells all that has been read

## Main results

* `Reading.SpelledBy.step` — one character
* `Reading.SpelledBy.read` — a whole text
* `parse_agrees_with_grammar` — acceptance, the tree and rejection by the grammar
-/

namespace StringTransform

/-- The branches of a level, the one being read last. -/
def Level.content (level : Level) : List Pattern :=
  level.split.branches.reverse

@[simp] theorem Level.content_split (level : Level) :
    level.split.content = level.content ++ [.seq []] := by
  simp [content, split]

theorem Level.content_eq (level : Level) :
    level.content = level.branches.reverse ++ [.seq level.members.reverse] := by
  simp [content, split]

theorem Level.content_push (level : Level) (p : Pattern) :
    (level.push p).content = level.branches.reverse ++ [.seq (level.members.reverse ++ [p])] := by
  simp [content, split, push]

namespace Grammar

/-- A text spells a level and the groups open around it: each group starts with its opening,
and what stands at a level derives the branches of that level. -/
inductive Spells : List Char → Level → List OpenGroup → Prop where
  | outer {cs : List Char} {level : Level} (content : Derives cs (.branches level.content)) :
      Spells cs level []
  | inner {cs ds opening : List Char} {level : Level} {group : OpenGroup}
      {groups : List OpenGroup} (outside : Spells cs group.enclosing groups)
      (opens : Opens group.kind opening) (content : Derives ds (.branches level.content)) :
      Spells (cs ++ (opening ++ ds)) level (group :: groups)

/-- A tail of the text belongs to the construct being read: with whatever completes the
construct, it derives an atom. -/
def Pending (tail : List Char) : Mode → Prop
  | .between none => tail = []
  | .between (some p) => Derives tail (.atom p)
  | .opened _ => tail = ['(']
  | .kind _ => tail = ['(', '?']
  | .escape _ => tail = ['\\']
  | .code _ digits =>
    ∀ ⦃cs x⦄, Names digits cs x → Derives (tail ++ cs) (.atom (.single (.literal x)))
  | .set set => ∀ ⦃cs test⦄, set.Completes cs test → Derives (tail ++ cs) (.atom (.single test))

namespace Spells

variable {cs ds opening : List Char} {level : Level} {kind : GroupKind} {offset : Nat}
  {groups : List OpenGroup} {m : Pattern}

/-- The empty text spells one branch without members. -/
theorem nil : Spells [] .empty [] :=
  .outer (.lastBranch .noMember)

/-- What comes behind the content of a level changes the level, and not the groups around. -/
theorem extend {more : Level} (spells : Spells cs level groups)
    (content : ∀ es, Derives es (.branches level.content) →
      Derives (es ++ ds) (.branches more.content)) : Spells (cs ++ ds) more groups := by
  cases spells with
  | outer branches => exact .outer (content _ branches)
  | inner outside opens branches =>
    rw [List.append_assoc, List.append_assoc]
    exact .inner outside opens (content _ branches)

/-- Another member of the branch being read. -/
theorem push (spells : Spells cs level groups) (member : Derives ds (.member m)) :
    Spells (cs ++ ds) (level.push m) groups := by
  apply spells.extend
  intro es content
  rw [Level.content_push]
  rw [Level.content_eq] at content
  exact content.addMember member

/-- A bar behind the branch being read. -/
theorem split (spells : Spells cs level groups) : Spells (cs ++ ['|']) level.split groups := by
  apply spells.extend
  intro es content
  rw [Level.content_split]
  exact content.addBranch

/-- Outside all groups the whole text derives the branches. -/
theorem derives (spells : Spells cs level []) : Derives cs (.branches level.content) := by
  cases spells with
  | outer content => exact content

/-- A group that has just been opened. -/
theorem opened (spells : Spells cs level groups) (opens : Opens kind opening) :
    Spells (cs ++ opening) .empty (⟨kind, offset, level⟩ :: groups) := by
  let group : OpenGroup := ⟨kind, offset, level⟩
  have outside : Spells cs group.enclosing groups := spells
  have nothing : Derives [] (.branches Level.empty.content) := .lastBranch .noMember
  rw [← List.append_nil opening]
  exact .inner outside opens nothing

end Spells

end Grammar

namespace Reading

open Grammar

variable {r next : Reading} {cs ds tail : List Char} {c : Char} {p : Pattern}

/-- The text spells all that has been read. -/
def SpelledBy (r : Reading) (cs : List Char) : Prop :=
  ∃ before tail, cs = before ++ tail ∧ Spells before r.level r.groups ∧ Pending tail r.mode

theorem spelledBy_start (offset : Nat) : (start offset).SpelledBy [] :=
  ⟨[], [], rfl, .nil, rfl⟩

/-- An atom that is held back is spelled by what it derives from. -/
theorem spelledBy_hold (spells : Spells cs r.level r.groups) (atom : Derives tail (.atom p)) :
    (r.hold p).SpelledBy (cs ++ tail) :=
  ⟨cs, tail, rfl, spells, atom⟩

/-- The atom held back, if there is one, becomes a member. -/
theorem spells_flush {pending : Option Pattern} (spells : Spells cs r.level r.groups)
    (held : Pending tail (.between pending)) :
    Spells (cs ++ tail) (r.flush pending).level (r.flush pending).groups := by
  cases pending with
  | none =>
    cases held
    rw [List.append_nil]
    exact spells
  | some p => exact spells.push (.once held)

/-- The closing parenthesis makes an atom of what stands in the innermost group. -/
theorem spelledBy_closeGroup (spells : Spells cs r.level r.groups)
    (closed : r.closeGroup = .ok next) : next.SpelledBy (cs ++ [')']) := by
  obtain ⟨offset, level, groups, mode⟩ := r
  cases spells with
  | outer => exact nomatch closed
  | @inner before ds opening _ group groups outside opens content =>
    cases closed
    have atom : Derives (opening ++ ds ++ [')']) (.atom (group.kind.wrap level.tree)) := by
      rw [tree_eq_choice]
      exact .group opens content
    rw [List.append_assoc]
    exact ⟨before, _, rfl, outside, atom⟩

theorem ne_quantifiers (plain : Quantifier.ofChar? c = none) : c ≠ '?' ∧ c ≠ '*' ∧ c ≠ '+' := by
  refine ⟨?_, ?_, ?_⟩ <;> rintro rfl <;> cases plain

theorem spelledBy_startAtom (spells : Spells cs r.level r.groups) (fresh : r.mode = .between none)
    (plain : Quantifier.ofChar? c = none) (started : r.startAtom c = .ok next) :
    next.SpelledBy (cs ++ [c]) := by
  unfold startAtom at started
  split at started
  case h_1 =>
    cases started
    exact ⟨cs, _, rfl, spells, rfl⟩
  case h_2 => exact spelledBy_closeGroup spells started
  case h_3 =>
    cases started
    refine ⟨cs ++ ['|'], [], (List.append_nil _).symm, spells.split, ?_⟩
    rw [fresh]
    rfl
  case h_4 =>
    cases started
    refine ⟨cs, _, rfl, spells, ?_⟩
    intro ds test completes
    exact .set (SetReading.completes_opened_iff.mp completes)
  case h_5 =>
    cases started
    exact ⟨cs, _, rfl, spells, rfl⟩
  case h_6 =>
    cases started
    exact spelledBy_hold spells .dot
  case h_7 =>
    cases started
    exact spelledBy_hold spells .start
  case h_8 =>
    cases started
    exact spelledBy_hold spells .stop
  case h_9 =>
    cases started
    -- No construct starts with the character, and it is no quantifier either.
    have literal : isSpecial c = false := by
      obtain ⟨question, star, plus⟩ := ne_quantifiers plain
      simp_all [isSpecial]
    exact spelledBy_hold spells (.literal literal)

theorem spelledBy_stepBetween {pending : Option Pattern} (spells : Spells cs r.level r.groups)
    (held : Pending tail (.between pending)) (taken : r.stepBetween pending c = .ok next) :
    next.SpelledBy (cs ++ tail ++ [c]) := by
  -- A quantifier makes a member of what is held back, and so does the start of an atom.
  cases quantifier : Quantifier.ofChar? c with
  | none =>
    rw [stepBetween_eq_startAtom quantifier] at taken
    exact spelledBy_startAtom (spells_flush spells held) rfl quantifier taken
  | some q =>
    unfold stepBetween at taken
    rw [quantifier] at taken
    cases pending with
    | none => exact nomatch taken
    | some p =>
      cases taken
      have member : Derives (tail ++ [c]) (.member (.quantified q p)) := .quantified held quantifier
      rw [List.append_assoc]
      exact ⟨_, [], (List.append_nil _).symm, spells.push member, rfl⟩

theorem spelledBy_stepKind {start : Nat} (spells : Spells cs r.level r.groups)
    (taken : r.stepKind start c = .ok next) : next.SpelledBy (cs ++ ['(', '?'] ++ [c]) := by
  unfold stepKind at taken
  rw [List.append_assoc]
  split at taken
  case h_1 =>
    cases taken
    exact ⟨_, [], (List.append_nil _).symm, spells.opened .plain, rfl⟩
  case h_2 =>
    cases taken
    exact ⟨_, [], (List.append_nil _).symm, spells.opened .absent, rfl⟩
  case h_3 =>
    cases taken
    exact ⟨_, [], (List.append_nil _).symm, spells.opened .present, rfl⟩
  case h_4 => cases taken

theorem spelledBy_stepCode {start : Nat} {digits : CodeDigits}
    (spells : Spells cs r.level r.groups) (pending : Pending tail (.code start digits))
    (taken : r.stepCode start digits c = .ok next) : next.SpelledBy (cs ++ tail ++ [c]) := by
  unfold stepCode at taken
  rw [List.append_assoc]
  cases extended : digits.extend? c with
  | none =>
    rw [extended] at taken
    cases taken
  | some more =>
    simp only [extended] at taken
    by_cases unfinished : more.count < 4
    · rw [if_pos unfinished] at taken
      cases taken
      -- What names the character behind this digit names it behind the earlier ones too.
      refine ⟨cs, _, rfl, spells, ?_⟩
      intro ds x names
      rw [List.append_assoc]
      exact pending (.more extended unfinished names)
    · rw [if_neg unfinished] at taken
      cases named : more.char? with
      | none =>
        rw [named] at taken
        cases taken
      | some x =>
        rw [named] at taken
        cases taken
        exact spelledBy_hold spells (pending (.last extended unfinished named))

/-- A set leaves to the rest of the text what completes it. -/
theorem spelledBy_setMore {set more : SetReading} {offset : Nat}
    (spells : Spells cs r.level r.groups) (pending : Pending tail (.set set))
    (step : set.step offset c = .ok (.inl more)) :
    { r with mode := .set more }.SpelledBy (cs ++ (tail ++ [c])) := by
  refine ⟨cs, _, rfl, spells, ?_⟩
  intro ds test completes
  rw [List.append_assoc]
  apply pending
  rw [List.singleton_append, SetReading.completes_cons_iff, step]
  exact completes

theorem spelledBy_setClosed {set : SetReading} {test : CharTest} {offset : Nat}
    (spells : Spells cs r.level r.groups) (pending : Pending tail (.set set))
    (step : set.step offset c = .ok (.inr test)) :
    (r.hold (.single test)).SpelledBy (cs ++ (tail ++ [c])) := by
  have completes : set.Completes [c] test := by
    rw [SetReading.completes_cons_iff, step]
    exact ⟨rfl, rfl⟩
  exact spelledBy_hold spells (pending completes)

theorem spelledBy_take (spelled : r.SpelledBy cs) (taken : r.take c = .ok next) :
    next.SpelledBy (cs ++ [c]) := by
  obtain ⟨before, tail, rfl, spells, pending⟩ := spelled
  obtain ⟨offset, level, groups, mode⟩ := r
  cases mode with
  | between held => exact spelledBy_stepBetween spells pending taken
  | opened start =>
    cases pending
    simp only [take] at taken
    split at taken
    · next question =>
      cases taken
      cases question
      rw [List.append_assoc]
      exact ⟨before, _, rfl, spells, rfl⟩
    · -- The parenthesis alone is the opening, and the character belongs to the content.
      have inside : Spells (before ++ ['(']) .empty (⟨.plain, start, level⟩ :: groups) :=
        spells.opened .bare
      rw [← List.append_nil (before ++ ['('])]
      have fresh : Pending [] (.between none) := rfl
      exact spelledBy_stepBetween inside fresh taken
  | kind start =>
    cases pending
    exact spelledBy_stepKind spells taken
  | escape start =>
    cases pending
    simp only [take] at taken
    rw [List.append_assoc]
    split at taken
    · next code =>
      cases taken
      cases code
      refine ⟨before, _, rfl, spells, ?_⟩
      intro ds x names
      exact .code (names_empty_iff.mp names)
    · next plain =>
      cases taken
      exact spelledBy_hold spells (.escape plain)
  | code start digits => exact spelledBy_stepCode spells pending taken
  | set set =>
    obtain ⟨result, step, rfl⟩ := map_eq_ok_iff.mp taken
    rw [List.append_assoc]
    cases result with
    | inl more => exact spelledBy_setMore spells pending step
    | inr test => exact spelledBy_setClosed spells pending step

/-- A character that is read is spelled by itself. -/
theorem SpelledBy.step (spelled : r.SpelledBy cs) (step : r.step c = .ok next) :
    next.SpelledBy (cs ++ [c]) := by
  obtain ⟨after, taken, rfl⟩ := map_eq_ok_iff.mp step
  -- The offset is not part of what is spelled.
  obtain ⟨before, tail, whole, spells, pending⟩ := spelledBy_take spelled taken
  exact ⟨before, tail, whole, spells, pending⟩

/-- All that is read of a text is spelled by the text. -/
theorem SpelledBy.read (spelled : r.SpelledBy cs) (read : r.read ds = .ok next) :
    next.SpelledBy (cs ++ ds) := by
  -- The induction is on the text that is left, and one step moves a character across.
  induction ds generalizing r cs with
  | nil =>
    cases read
    rw [List.append_nil]
    exact spelled
  | cons d ds ih =>
    obtain ⟨after, step, rest⟩ := bind_eq_ok_iff.mp (read_cons r d ds ▸ read)
    rw [List.append_cons]
    exact ih (spelled.step step) rest

/-- A text that may end here is one list of branches. -/
theorem SpelledBy.finish (spelled : r.SpelledBy cs) (finished : r.finish = .ok p) :
    ∃ bs, Derives cs (.branches bs) ∧ choice bs = p := by
  obtain ⟨before, tail, rfl, spells, pending⟩ := spelled
  obtain ⟨offset, level, groups, mode⟩ := r
  cases mode with
  | between held =>
    cases groups with
    | cons group groups => exact nomatch finished
    | nil =>
      cases finished
      have settled := spells_flush (r := ⟨offset, level, [], .between held⟩) spells pending
      rw [tree_eq_choice]
      exact ⟨_, settled.derives, rfl⟩
  | _ => exact nomatch finished

end Reading

namespace Grammar

variable {source : String} {p : Pattern}

/-- A pattern that is read from a text derives from that text. -/
theorem denotes_of_parse (parsed : Pattern.parse source = .ok p) : Denotes source p := by
  obtain ⟨stop, parsed⟩ := (Pattern.parse_eq_ok_iff_parseChars 0).mp parsed
  obtain ⟨r, read, finished⟩ := bind_eq_ok_iff.mp parsed
  obtain ⟨q, accepted, result⟩ := map_eq_ok_iff.mp finished
  cases result
  exact ((Reading.spelledBy_start 0).read read).finish accepted

/-- A text is accepted with a pattern exactly if the whole of it derives that pattern. No
text derives two patterns, and a text that derives none is rejected with a fault. -/
theorem parse_agrees_with_grammar (source : String) :
    (∀ p, Pattern.parse source = .ok p ↔ Denotes source p) ∧
      (∀ p q, Denotes source p → Denotes source q → p = q) ∧
      ((∀ p, ¬Denotes source p) ↔ ∃ fault, Pattern.parse source = .error fault) := by
  have accepts : ∀ p, Pattern.parse source = .ok p ↔ Denotes source p :=
    fun p => ⟨denotes_of_parse, parse_of_denotes⟩
  refine ⟨accepts, ?_, ?_⟩
  · intro p q hp hq
    -- Both patterns are the result of reading the text.
    have same : Except.ok p = (Except.ok q : Except PatternFault Pattern) :=
      ((accepts p).mpr hp).symm.trans ((accepts q).mpr hq)
    exact Except.ok.inj same
  · constructor
    · intro rejects
      cases parsed : Pattern.parse source with
      | error fault => exact ⟨fault, rfl⟩
      | ok p => exact absurd ((accepts p).mp parsed) (rejects p)
    · rintro ⟨fault, rejected⟩ p denotes
      rw [(accepts p).mpr denotes] at rejected
      cases rejected

end Grammar

end StringTransform
