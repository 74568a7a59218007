import StringTransform.Pattern.Reading

/-!
# The grammar of pattern texts

A pattern text is a list of branches with bars between them, a branch is a list of members,
and a member is an atom that a quantifier may follow. Atoms are groups, character sets,
escapes, the three characters that stand for a test or an anchor, and every character
without a meaning of its own. The grammar says which texts derive which tree. It knows
nothing of reading from left to right: a phrase derives from a stretch of text as a whole.

Inside a character set the meaning of a character depends on where it stands. A closing
bracket in the first place is a member, a caret in front of the first place excludes the
members, and a character before a hyphen starts a range unless the set ends behind the
hyphen.

## Main definitions

* `CodePoint` — the digits of a code-point escape and the character they name
* `SetChar`, `SetItems`, `SetBody` — the phrases of a character set
* `Phrase` — what a stretch of a pattern text can be
* `Derives` — the rules of the grammar
* `Denotes` — a whole text derives a pattern

## Main results

* `Derives.addMember`, `Derives.addBranch` — a list of branches can be continued at its end
-/

namespace StringTransform.Grammar

/-! ### Escapes and character sets -/

/-- The value of the first digit of a code-point escape, where a plus sign may stand. -/
def leadValue? (c : Char) : Option Nat :=
  if c = '+' then some 0 else hexValue? c

/-- Four digits name the character whose code point is their value. -/
inductive CodePoint : List Char → Char → Prop where
  | digits {a b c d : Char} {w x y z : Nat} (first : leadValue? a = some w)
      (second : hexValue? b = some x) (third : hexValue? c = some y)
      (fourth : hexValue? d = some z)
      (scalar : (16 * (16 * (16 * w + x) + y) + z).isValidChar) :
      CodePoint [a, b, c, d] (Char.ofNat (16 * (16 * (16 * w + x) + y) + z))

/-- The kind of characters that an escaped letter stands for inside a character set. -/
def kind? : Char → Option Item
  | 'd' => some .digit
  | 'w' => some .word
  | 's' => some .space
  | _ => none

/-- A single character inside a character set, raw or escaped. A raw closing bracket is one
only in the first place. -/
inductive SetChar (first : Bool) : List Char → Char → Prop where
  | raw {c : Char} (plain : c ≠ '\\') (place : c = ']' → first = true) : SetChar first [c] c
  | escaped {c : Char} (single : kind? c = none) (plain : c ≠ 'u') :
      SetChar first ['\\', c] (unescape c)
  | code {cs : List Char} {c : Char} (digits : CodePoint cs c) :
      SetChar first ('\\' :: 'u' :: cs) c

/-- A hyphen comes next, and behind it something other than the end of the set. -/
def StartsRange (cs : List Char) : Prop :=
  ∃ c ds, cs = '-' :: c :: ds ∧ c ≠ ']'

/-- The members of a character set with the closing bracket behind them. Unless the first
place comes next, there may be none. -/
inductive SetItems : Bool → List Char → List Item → Prop where
  | close : SetItems false [']'] []
  | kind {first : Bool} {c : Char} {item : Item} {cs : List Char} {items : List Item}
      (names : kind? c = some item) (others : SetItems false cs items) :
      SetItems first ('\\' :: c :: cs) (item :: items)
  | char {first : Bool} {c : Char} {cs ds : List Char} {items : List Item}
      (char : SetChar first cs c) (alone : ¬StartsRange ds) (others : SetItems false ds items) :
      SetItems first (cs ++ ds) (.char c :: items)
  | range {first : Bool} {lo hi : Char} {cs ds es : List Char} {items : List Item}
      (low : SetChar first cs lo) (high : SetChar false ds hi) (ordered : lo ≤ hi)
      (others : SetItems false es items) :
      SetItems first (cs ++ '-' :: (ds ++ es)) (.range lo hi :: items)

/-- What follows the opening bracket of a character set. A caret in front of the members
excludes them. -/
inductive SetBody : List Char → CharTest → Prop where
  | listed {cs : List Char} {items : List Item} (plain : cs.head? ≠ some '^')
      (members : SetItems true cs items) : SetBody cs (.set false items)
  | excluded {cs : List Char} {items : List Item} (members : SetItems true cs items) :
      SetBody ('^' :: cs) (.set true items)

/-! ### Patterns -/

/-- Whether a character has a meaning of its own outside character sets. -/
def isSpecial (c : Char) : Bool :=
  c ∈ ['(', ')', '|', '[', '\\', '?', '*', '+', '.', '^', '$']

/-- The ways to open a group of each kind. -/
inductive Opens : GroupKind → List Char → Prop where
  | bare : Opens .plain ['(']
  | plain : Opens .plain ['(', '?', ':']
  | absent : Opens (.look true) ['(', '?', '!']
  | present : Opens (.look false) ['(', '?', '=']

/-- One branch is itself, and several are alternatives. -/
def choice : List Pattern → Pattern
  | [p] => p
  | bs => .alt bs

theorem choice_of_several {bs : List Pattern} (several : 2 ≤ bs.length) :
    choice bs = .alt bs := by
  unfold choice
  split
  · contradiction
  · rfl

/-- What a stretch of a pattern text can be, with the patterns that it stands for. -/
inductive Phrase where
  /-- One branch or more with bars between them. -/
  | branches (bs : List Pattern)
  /-- Any number of members one behind the other. -/
  | branch (ms : List Pattern)
  /-- An atom, or an atom with a quantifier. -/
  | member (p : Pattern)
  | atom (p : Pattern)

/-- The rules of the grammar: the text derives the phrase. -/
inductive Derives : List Char → Phrase → Prop where
  | lastBranch {cs : List Char} {ms : List Pattern} (branch : Derives cs (.branch ms)) :
      Derives cs (.branches [.seq ms])
  | moreBranches {cs ds : List Char} {ms bs : List Pattern} (branch : Derives cs (.branch ms))
      (others : Derives ds (.branches bs)) :
      Derives (cs ++ '|' :: ds) (.branches (.seq ms :: bs))
  | noMember : Derives [] (.branch [])
  | moreMembers {cs ds : List Char} {m : Pattern} {ms : List Pattern}
      (member : Derives cs (.member m)) (others : Derives ds (.branch ms)) :
      Derives (cs ++ ds) (.branch (m :: ms))
  | once {cs : List Char} {p : Pattern} (atom : Derives cs (.atom p)) : Derives cs (.member p)
  | quantified {cs : List Char} {p : Pattern} {c : Char} {q : Quantifier}
      (atom : Derives cs (.atom p)) (quantifier : Quantifier.ofChar? c = some q) :
      Derives (cs ++ [c]) (.member (.quantified q p))
  | group {kind : GroupKind} {opening cs : List Char} {bs : List Pattern}
      (opens : Opens kind opening) (content : Derives cs (.branches bs)) :
      Derives (opening ++ cs ++ [')']) (.atom (kind.wrap (choice bs)))
  | set {cs : List Char} {test : CharTest} (body : SetBody cs test) :
      Derives ('[' :: cs) (.atom (.single test))
  | escape {c : Char} (plain : c ≠ 'u') : Derives ['\\', c] (.atom (escapedAtom c))
  | code {cs : List Char} {c : Char} (digits : CodePoint cs c) :
      Derives ('\\' :: 'u' :: cs) (.atom (.single (.literal c)))
  | dot : Derives ['.'] (.atom (.single .dot))
  | start : Derives ['^'] (.atom (.anchor .textStart))
  | stop : Derives ['$'] (.atom (.anchor .textEnd))
  | literal {c : Char} (plain : isSpecial c = false) :
      Derives [c] (.atom (.single (.literal c)))

/-- The whole of a text derives the pattern. -/
def Denotes (source : String) (p : Pattern) : Prop :=
  ∃ bs, Derives source.toList (.branches bs) ∧ choice bs = p

/-! ### Continuing a phrase at its end -/

namespace Derives

variable {cs ds : List Char} {m : Pattern} {ms bs : List Pattern}

/-- A member can be added behind the members of a branch. -/
theorem branch_concat (branch : Derives cs (.branch ms)) (member : Derives ds (.member m)) :
    Derives (cs ++ ds) (.branch (ms ++ [m])) := by
  generalize phrase : Phrase.branch ms = ph at branch
  induction branch generalizing ms with
  | noMember =>
    cases phrase
    simpa using moreMembers member noMember
  | moreMembers first others _ ih =>
    cases phrase
    rw [List.append_assoc]
    exact moreMembers first (ih rfl)
  | _ => cases phrase

/-- A list of branches ends in a branch, to which a member can be added. -/
theorem addMember (branches : Derives cs (.branches (bs ++ [.seq ms])))
    (member : Derives ds (.member m)) :
    Derives (cs ++ ds) (.branches (bs ++ [.seq (ms ++ [m])])) := by
  generalize phrase : Phrase.branches (bs ++ [.seq ms]) = ph at branches
  induction branches generalizing bs with
  | lastBranch branch _ =>
    cases bs with
    | nil =>
      cases phrase
      exact lastBranch (branch.branch_concat member)
    | cons b bs => simp at phrase
  | @moreBranches cs es ns bs' first others _ ih =>
    cases bs with
    | nil =>
      -- There are branches behind the first one, so it is not the one added to.
      cases phrase
      cases others
    | cons b bs =>
      simp only [List.cons_append, Phrase.branches.injEq, List.cons.injEq] at phrase
      obtain ⟨rfl, rest⟩ := phrase
      rw [List.append_assoc, List.cons_append]
      exact moreBranches first (ih (congrArg Phrase.branches rest))
  | _ => cases phrase

/-- A bar starts another branch behind a list of branches. -/
theorem addBranch (branches : Derives cs (.branches bs)) :
    Derives (cs ++ ['|']) (.branches (bs ++ [.seq []])) := by
  generalize phrase : Phrase.branches bs = ph at branches
  induction branches generalizing bs with
  | lastBranch branch _ =>
    cases phrase
    exact moreBranches branch (lastBranch noMember)
  | moreBranches first others _ ih =>
    cases phrase
    rw [List.append_assoc, List.cons_append]
    exact moreBranches first (ih rfl)
  | _ => cases phrase

end Derives

end StringTransform.Grammar
