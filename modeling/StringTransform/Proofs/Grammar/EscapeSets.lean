import StringTransform.Proofs.Grammar.Writing
import StringTransform.Proofs.Token.Combination

/-!
# Sets of escapes

An escape stands for an atom outside sets and for a member inside one, and the two readings
have tables of their own. A set of escapes tests one character, as the choice between the same
escapes does, so the two are alike if the tables are: whatever one of the escapes admits in
the one place it admits in the other. That is so for all escapes but those that stand for the
absence of a kind of characters. In a set there is no such member, and the letter behind the
backslash stands for itself.

## Main definitions

* `Pattern.Tests` — a pattern does nothing but test one character
* `escaped`, `escapedItem` — the text of an escape, and what it stands for in a set

## Main results

* `Pattern.tests_alt` — a choice between tests is a test
* `parse_escape_set`, `parse_escape_choice` — how the texts are read
* `escape_set_matches_as_choice` — a set of escapes and the choice between them
-/

namespace StringTransform

/-! ### Tests of one character -/

namespace Pattern

/-- The pattern moves over one character, which has to pass the test. -/
def Tests (p : Pattern) (holds : Char → Bool) : Prop :=
  ∀ text d i, p.reach text d i =
    (d.next? text i).elim [] fun next => if holds next.1 then [next.2] else []

variable {p : Pattern} {holds : Char → Bool}

theorem tests_single (t : CharTest) : (single t).Tests t.holds := by
  intro text d i
  rw [reach]
  cases d.next? text i <;> rfl

theorem Tests.seq_singleton (tests : p.Tests holds) : (seq [p]).Tests holds := by
  intro text d i
  rw [reach_seq_singleton]
  exact tests text d i

theorem Tests.group (tests : p.Tests holds) : p.group.Tests holds := tests

theorem mem_reach_alt {text : Text} {d : Direction} {i j : Nat} {bs : List Pattern} :
    j ∈ (alt bs).reach text d i ↔ ∃ b ∈ bs, j ∈ b.reach text d i := by
  simp only [reach_eq_eraseDups, enumerate, enumerateAlt_eq_flatMap, List.mem_eraseDups,
    List.mem_flatMap]

/-- A list without repetitions in which only one index can occur. -/
theorem eq_ite_of_nodup {is : List Nat} {j : Nat} {b : Bool} (once : is.Nodup)
    (members : ∀ k, k ∈ is ↔ b = true ∧ k = j) : is = if b then [j] else [] := by
  cases b with
  | false => simpa [List.eq_nil_iff_forall_not_mem] using members
  | true =>
    refine List.perm_singleton.mp ?_
    refine (List.perm_ext_iff_of_nodup once (List.pairwise_singleton _ j)).mpr fun k => ?_
    simpa using members k

/-- A choice between tests admits what one of them admits. -/
theorem tests_alt {α : Type} {xs : List α} {tree : α → Pattern} {holds : α → Char → Bool}
    (tests : ∀ x ∈ xs, (tree x).Tests (holds x)) :
    (alt (xs.map tree)).Tests fun c => xs.any (holds · c) := by
  intro text d i
  have members : ∀ k, k ∈ (alt (xs.map tree)).reach text d i ↔ ∃ x ∈ xs,
      k ∈ (d.next? text i).elim [] fun next => if holds x next.1 then [next.2] else [] := by
    intro k
    rw [mem_reach_alt]
    constructor
    · rintro ⟨b, branch, reached⟩
      obtain ⟨x, member, rfl⟩ := List.mem_map.mp branch
      exact ⟨x, member, tests x member text d i ▸ reached⟩
    · rintro ⟨x, member, reached⟩
      exact ⟨tree x, List.mem_map_of_mem member, (tests x member text d i).symm ▸ reached⟩
  cases next : d.next? text i with
  | none => simpa [next, List.eq_nil_iff_forall_not_mem] using members
  | some step =>
    -- Every branch that reaches an index reaches the same one, and it is listed once.
    refine eq_ite_of_nodup (nodup_reach _ i) fun k => ?_
    rw [members, next]
    simp only [Option.elim_some, List.mem_ite_nil_right, List.mem_singleton, List.any_eq_true]
    constructor
    · rintro ⟨x, member, admits, same⟩
      exact ⟨⟨x, member, admits⟩, same⟩
    · rintro ⟨⟨x, member, admits⟩, same⟩
      exact ⟨x, member, admits, same⟩

/-- So does a single test without any choice. -/
theorem tests_choice {α : Type} {xs : List α} {tree : α → Pattern} {holds : α → Char → Bool}
    (nonempty : xs ≠ []) (tests : ∀ x ∈ xs, (tree x).Tests (holds x)) :
    (Grammar.choice (xs.map tree)).Tests fun c => xs.any (holds · c) := by
  obtain ⟨x, xs, rfl⟩ := List.exists_cons_of_ne_nil nonempty
  cases xs with
  | nil => simpa [Grammar.choice] using tests x List.mem_cons_self
  | cons y xs =>
    have several : 2 ≤ ((x :: y :: xs).map tree).length := by simp
    rw [Grammar.choice_of_several several]
    exact tests_alt tests

variable {q : Pattern} {text : Text} {i : Nat}

/-- Tests of the same characters reach the same indices. -/
theorem Tests.reach_eq {d : Direction} (tests : p.Tests holds) (others : q.Tests holds) :
    p.reach text d i = q.reach text d i :=
  (tests text d i).trans (others text d i).symm

theorem lt_size_of_get? {c : Char} (here : text.get? i = some c) : i < text.size := by
  rw [← Nat.not_le, ← Text.get?_eq_none_iff, here]
  exact Option.some_ne_none c

/-- A test of all other characters moves over the character ahead, if there is one, where the
test does not. -/
theorem Tests.reach_of_not {d : Direction} (tests : p.Tests holds) (others : q.Tests (!holds ·)) :
    q.reach text d i =
      (d.next? text i).elim [] fun next => if p.reach text d i = [] then [next.2] else [] := by
  rw [tests, others]
  cases d.next? text i with
  | none => rfl
  | some next => cases admitted : holds next.1 <;> simp [admitted]

theorem Tests.ends_of_not (tests : p.Tests holds) (others : q.Tests (!holds ·)) :
    q.ends text i = if i < text.size ∧ p.ends text i = [] then [i + 1] else [] := by
  rw [ends, ends, tests.reach_of_not others, Direction.next?]
  cases here : text.get? i with
  | none =>
    have outside : ¬i < text.size := Nat.not_lt.mpr (Text.get?_eq_none_iff.mp here)
    simp [outside]
  | some c => simp [lt_size_of_get? here]

theorem Tests.starts_of_not (tests : p.Tests holds) (others : q.Tests (!holds ·)) :
    q.starts text i =
      if 0 < i ∧ i ≤ text.size ∧ p.starts text i = [] then [i - 1] else [] := by
  rw [starts, starts, tests.reach_of_not others]
  cases i with
  | zero => rfl
  | succ i =>
    rw [Direction.next?]
    cases here : text.get? i with
    | none =>
      have outside : ¬i + 1 ≤ text.size := Nat.not_le.mpr
        (Nat.lt_succ_of_le (Text.get?_eq_none_iff.mp here))
      simp [outside]
    | some c =>
      have inside : i + 1 ≤ text.size := lt_size_of_get? here
      simp [inside]

end Pattern

/-! ### Escapes -/

/-- The text of an escape. -/
def escaped (c : Char) : String := String.ofList ['\\', c]

/-- What an escape stands for in a set. -/
def escapedItem (c : Char) : Item := (Grammar.kind? c).getD (.char (unescape c))

namespace Grammar

variable {first : Bool} {c : Char} {cs : List Char}

theorem setItems_escaped (nonempty : first = true → cs ≠ []) (plain : ∀ c ∈ cs, c ≠ 'u') :
    SetItems first ((cs.flatMap fun c => ['\\', c]) ++ [']']) (cs.map escapedItem) := by
  induction cs generalizing first with
  | nil =>
    cases first with
    | true => exact absurd rfl (nonempty rfl)
    | false => exact .close
  | cons c cs ih =>
    obtain ⟨this, others⟩ := List.forall_mem_cons.mp plain
    have rest : SetItems false ((cs.flatMap fun c => ['\\', c]) ++ [']']) (cs.map escapedItem) :=
      ih nofun others
    have alone : ¬StartsRange ((cs.flatMap fun c => ['\\', c]) ++ [']']) := by
      rintro ⟨d, ds, whole, -⟩
      cases cs <;> cases whole
    rw [List.flatMap_cons, List.append_assoc, List.map_cons, escapedItem]
    cases kind : kind? c with
    | some item => exact .kind kind rest
    | none => exact .char (.escaped kind this) alone rest

/-- An atom is a pattern text by itself. -/
theorem parse_of_atom {source : String} {p : Pattern} (atom : Derives source.toList (.atom p)) :
    Pattern.parse source = .ok (.seq [p]) := by
  have member : Derives (source.toList ++ []) (.branch [p]) := .moreMembers (.once atom) .noMember
  rw [List.append_nil] at member
  exact parse_of_denotes ⟨[.seq [p]], .lastBranch member, rfl⟩

/-- The text of a set of escapes denotes a test for their members. -/
theorem parse_escape_set (negated : Bool) (nonempty : cs ≠ []) (plain : ∀ c ∈ cs, c ≠ 'u') :
    Pattern.parse ((if negated then "[^" else "[") ++ String.join (cs.map escaped) ++ "]") =
      .ok (.seq [.single (.set negated (cs.map escapedItem))]) := by
  have members : SetItems true ((cs.flatMap fun c => ['\\', c]) ++ [']']) (cs.map escapedItem) :=
    setItems_escaped (fun _ => nonempty) plain
  have body : SetBody ((if negated then ['^'] else []) ++
      ((cs.flatMap fun c => ['\\', c]) ++ [']'])) (.set negated (cs.map escapedItem)) := by
    cases negated with
    | true => exact .excluded members
    | false =>
      refine .listed ?_ members
      obtain ⟨c, cs, rfl⟩ := List.exists_cons_of_ne_nil nonempty
      exact nofun
  have text : ((if negated then "[^" else "[") ++ String.join (cs.map escaped) ++ "]").toList =
      '[' :: ((if negated then ['^'] else []) ++ ((cs.flatMap fun c => ['\\', c]) ++ [']'])) := by
    cases negated <;> simp [String.toList_join, List.flatMap_map, escaped]
  exact parse_of_atom (text ▸ .set body)

/-- The text of a choice between escapes denotes a group with the choice between their atoms. -/
theorem parse_escape_choice (nonempty : cs ≠ []) (plain : ∀ c ∈ cs, c ≠ 'u') :
    Pattern.parse ("(?:" ++ "|".intercalate (cs.map escaped) ++ ")") =
      .ok (.seq [.group (choice (cs.map fun c => .seq [escapedAtom c]))]) := by
  have branches : Derives (['|'].intercalate (cs.map fun c => ['\\', c]))
      (.branches (cs.map fun c => .seq [escapedAtom c])) := by
    apply derives_intercalate nonempty
    intro c member
    have atom : Derives ['\\', c] (.atom (escapedAtom c)) := .escape (plain c member)
    exact ⟨_, .moreMembers (.once atom) .noMember, rfl⟩
  have text : ("(?:" ++ "|".intercalate (cs.map escaped) ++ ")").toList =
      GroupKind.plain.enclose (['|'].intercalate (cs.map fun c => ['\\', c])) := by
    simp [String.toList_intercalate, Function.comp_def, escaped, GroupKind.enclose,
      GroupKind.opening]
  exact parse_of_atom (text ▸ derives_enclose .plain branches)

end Grammar

/-! ### The two tables -/

/-- An escape is the same test in a set as outside of it, unless outside it names a place in
the text or stands for the absence of a kind of characters. -/
theorem escapedAtom_tests {c : Char} (common : c ∉ ['u', 'b', 'B', 'A', 'Z', 'z'])
    (present : c ∉ ['D', 'W', 'S']) : (escapedAtom c).Tests (escapedItem c).contains := by
  obtain ⟨t, atom, same⟩ :
      ∃ t, escapedAtom c = .single t ∧ t.holds = (escapedItem c).contains := by
    unfold escapedAtom
    split
    case h_1 | h_3 | h_5 =>
      refine ⟨_, rfl, ?_⟩
      funext x
      simp [CharTest.holds, escapedItem, Grammar.kind?, Item.contains]
    case h_2 | h_4 | h_6 => exact absurd (by decide) present
    case h_7 | h_8 | h_9 | h_10 | h_11 => exact absurd (by decide) common
    case h_12 =>
      have character : Grammar.kind? c = none := by
        unfold Grammar.kind?
        split <;> first | rfl | contradiction
      refine ⟨_, rfl, ?_⟩
      funext x
      simp [CharTest.holds, escapedItem, character, Item.contains]
  rw [atom, ← same]
  exact Pattern.tests_single t

/-- Escapes in a set match what the choice between them matches, and a set that excludes them
matches any other character, provided that none of them stands for the absence of a kind of
characters. With or without such an escape all of these texts can be read. -/
theorem escape_set_matches_as_choice {cs : List Char} (nonempty : cs ≠ [])
    (common : ∀ c ∈ cs, c ∉ ['u', 'b', 'B', 'A', 'Z', 'z']) :
    ∃ listed excluded branches : Pattern,
      Pattern.parse ("[" ++ String.join (cs.map escaped) ++ "]") = .ok listed ∧
      Pattern.parse ("[^" ++ String.join (cs.map escaped) ++ "]") = .ok excluded ∧
      Pattern.parse ("(?:" ++ "|".intercalate (cs.map escaped) ++ ")") = .ok branches ∧
      ((∀ c ∈ cs, c ∉ ['D', 'W', 'S']) → ∀ text i,
        listed.ends text i = branches.ends text i ∧
        listed.starts text i = branches.starts text i ∧
        excluded.ends text i =
          (if i < text.size ∧ branches.ends text i = [] then [i + 1] else []) ∧
        excluded.starts text i =
          if 0 < i ∧ i ≤ text.size ∧ branches.starts text i = [] then [i - 1] else []) := by
  have plain : ∀ c ∈ cs, c ≠ 'u' := by
    rintro c member rfl
    exact common _ member (by decide)
  refine ⟨_, _, _, Grammar.parse_escape_set false nonempty plain,
    Grammar.parse_escape_set true nonempty plain, Grammar.parse_escape_choice nonempty plain, ?_⟩
  intro present text i
  let admits (c : Char) : Bool := cs.any fun x => (escapedItem x).contains c
  -- All three patterns test one character, so it is enough to compare the tests.
  have branches : (Pattern.seq [.group (Grammar.choice
      (cs.map fun c => .seq [escapedAtom c]))]).Tests admits :=
    (Pattern.tests_choice nonempty fun c member =>
      (escapedAtom_tests (common c member) (present c member)).seq_singleton).group.seq_singleton
  have listed (negated : Bool) :
      (Pattern.seq [.single (.set negated (cs.map escapedItem))]).Tests (admits · != negated) := by
    have holds : (CharTest.set negated (cs.map escapedItem)).holds = (admits · != negated) := by
      funext c
      simp [CharTest.holds, admits, List.any_map, Function.comp_def]
    exact holds ▸ (Pattern.tests_single _).seq_singleton
  have same : (admits · != false) = admits := by
    funext c
    simp
  have other : (admits · != true) = (!admits ·) := by
    funext c
    simp
  have members := same ▸ listed false
  have others := other ▸ listed true
  exact ⟨members.reach_eq branches, members.reach_eq branches, branches.ends_of_not others,
    branches.starts_of_not others⟩

/-- A digit or a bracket, as a set and as a choice. -/
theorem digit_or_bracket_as_choice :
    ['d', ']'] ≠ [] ∧ (∀ c ∈ ['d', ']'], c ∉ ['u', 'b', 'B', 'A', 'Z', 'z']) ∧
      (∀ c ∈ ['d', ']'], c ∉ ['D', 'W', 'S']) ∧
      ∃ listed excluded branches : Pattern,
        Pattern.parse ("[" ++ String.join (['d', ']'].map escaped) ++ "]") = .ok listed ∧
        Pattern.parse ("[^" ++ String.join (['d', ']'].map escaped) ++ "]") = .ok excluded ∧
        Pattern.parse ("(?:" ++ "|".intercalate (['d', ']'].map escaped) ++ ")") = .ok branches ∧
        ∀ text i, listed.ends text i = branches.ends text i ∧
          listed.starts text i = branches.starts text i ∧
          excluded.ends text i =
            (if i < text.size ∧ branches.ends text i = [] then [i + 1] else []) ∧
          excluded.starts text i =
            if 0 < i ∧ i ≤ text.size ∧ branches.starts text i = [] then [i - 1] else [] := by
  have nonempty : ['d', ']'] ≠ [] := List.cons_ne_nil _ _
  have common : ∀ c ∈ ['d', ']'], c ∉ ['u', 'b', 'B', 'A', 'Z', 'z'] := by simp
  have present : ∀ c ∈ ['d', ']'], c ∉ ['D', 'W', 'S'] := by simp
  obtain ⟨listed, excluded, branches, first, second, third, alike⟩ :=
    escape_set_matches_as_choice nonempty common
  exact ⟨nonempty, common, present, listed, excluded, branches, first, second, third, alike present⟩

/-- In a set the escape for other characters than digits is the letter. -/
theorem non_digit_escape_lost_in_set :
    ∃ listed branches : Pattern,
      Pattern.parse ("[" ++ String.join (['D'].map escaped) ++ "]") = .ok listed ∧
      Pattern.parse ("(?:" ++ "|".intercalate (['D'].map escaped) ++ ")") = .ok branches ∧
      listed.ends (Text.ofString "a") 0 = [] ∧ branches.ends (Text.ofString "a") 0 = [1] := by
  have plain : ∀ c ∈ ['D'], c ≠ 'u' := by simp
  exact ⟨_, _, Grammar.parse_escape_set false (List.cons_ne_nil _ _) plain,
    Grammar.parse_escape_choice (List.cons_ne_nil _ _) plain, by decide, by decide⟩

end StringTransform
