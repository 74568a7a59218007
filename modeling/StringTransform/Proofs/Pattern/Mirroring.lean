import StringTransform.Proofs.Pattern.Carrying

/-!
# Matching backward is matching forward in the mirror

Reversing a text turns what precedes an index into what follows it. So a match that is looked
for backward is a match of the reversed pattern that is looked for forward in the reversed
text, where all indices are counted from the other end. Not only the matches are the same but
also the order in which they are preferred. The comparison is made step by step for plain
backtracking, and matching keeps the first occurrences of what that enumerates.

Lookaheads look forward whatever the direction is, and only the end of a text allows for a
line feed. Patterns with such parts have no mirror.

## Main definitions

* `Mirrors` — the same steps, with the indices counted from the other end
* `Pattern.Mirrorable` — no part of the pattern looks in one direction only

## Main results

* `mirrors_iff_carries` — steps in the mirror are carried steps
* `Anchor.holds_reverse` — anchors seen from the other end
* `Pattern.mirrors_enumerate` — plain backtracking in the mirror
* `Pattern.starts_eq_map_ends_reverse` — matching in the mirror
-/

namespace StringTransform

/-! ### Steps seen from the other end -/

/-- The steps of `f` are those of `g` if the indices up to `n` are counted from the other end,
and the steps of `g` do not lead beyond `n`. -/
structure Mirrors (n : Nat) (f g : Nat → List Nat) : Prop where
  eq : ∀ i ≤ n, f i = (g (n - i)).map (n - ·)
  inside : ∀ i ≤ n, ∀ j ∈ g i, j ≤ n

/-- What is seen from the other end is carried by counting from there. -/
theorem mirrors_iff_carries {n : Nat} {f g : Nat → List Nat} :
    Mirrors n f g ↔ Carries (· ≤ n) (n - ·) f g := by
  constructor
  · intro mirror
    refine ⟨fun i hi => ?_, mirror.inside⟩
    rw [mirror.eq _ (Nat.sub_le n i), Nat.sub_sub_self hi]
  · intro carries
    refine ⟨fun i hi => ?_, carries.closed⟩
    rw [← carries.eq _ (Nat.sub_le n i), Nat.sub_sub_self hi]

/-! ### Texts and anchors seen from the other end -/

namespace Text

variable {text : Text} {i : Nat}

theorem get?_reverse (inside : i < text.size) :
    text.reverse.get? i = text.get? (text.size - 1 - i) := by
  rw [← length_toList] at inside ⊢
  rw [get?_eq_getElem?, get?_eq_getElem?, reverse, toList_ofList, List.getElem?_reverse inside]

theorem get?_reverse_size (text : Text) : text.reverse.get? text.size = none :=
  get?_eq_none_iff.mpr (Nat.le_of_eq (size_reverse text))

/-- The character before an index stands at that index in the reversed text. -/
theorem get?_reverse_sub (inside : i < text.size) :
    text.reverse.get? (text.size - (i + 1)) = text.get? i := by
  rw [get?_reverse (by omega)]
  congr 1
  omega

theorem wordAt_reverse (inside : i ≤ text.size) :
    text.reverse.wordAt (text.size - i) = text.wordBefore i := by
  cases i with
  | zero =>
    rw [wordAt, Nat.sub_zero, get?_reverse_size]
    rfl
  | succ i => rw [wordAt, get?_reverse_sub inside, wordBefore]

theorem wordBefore_reverse (inside : i ≤ text.size) :
    text.reverse.wordBefore (text.size - i) = text.wordAt i := by
  cases before : text.size - i with
  | zero =>
    have outside : text.get? i = none := by
      rw [get?_eq_none_iff]
      omega
    rw [wordAt, outside]
    rfl
  | succ j =>
    have here : text.size - 1 - j = i := by omega
    rw [wordBefore, get?_reverse (by omega), here, wordAt]

end Text

/-- Seen from the other end, the anchor at the opposite end holds. -/
theorem Anchor.holds_reverse {a : Anchor} {text : Text} {i : Nat} (symmetric : a ≠ .textEnd)
    (inside : i ≤ text.size) :
    a.reverse.holds text.reverse (text.size - i) = a.holds text i := by
  cases a with
  | textStart =>
    have same : text.size - i = text.size ↔ i = 0 := by omega
    rw [Bool.eq_iff_iff]
    simp [reverse, holds, same]
  | textEnd => exact absurd rfl symmetric
  | absoluteEnd =>
    have same : text.size - i = 0 ↔ i = text.size := by omega
    rw [Bool.eq_iff_iff]
    simp [reverse, holds, same]
  | wordBoundary negated =>
    rw [reverse, holds, holds, Text.wordAt_reverse inside, Text.wordBefore_reverse inside]
    exact congrArg (· != negated) bne_comm

namespace Pattern

variable {text : Text} {i : Nat}

/-- Whether the pattern itself, whatever it is made of, looks in both directions alike. -/
def isSymmetric : Pattern → Bool
  | .look _ _ | .anchor .textEnd => false
  | _ => true

/-- No part of the pattern is a lookahead or the end that allows for a final line feed. -/
def Mirrorable (p : Pattern) : Prop :=
  ∀ q ∈ p.parts, q.isSymmetric = true

instance (p : Pattern) : Decidable p.Mirrorable :=
  inferInstanceAs (Decidable (∀ q ∈ p.parts, q.isSymmetric = true))

theorem mirrors_single (text : Text) (t : CharTest) :
    Mirrors text.size (enumerate text .backward (.single t))
      (enumerate text.reverse .forward (.single t)) where
  eq i hi := by
    rw [(backtracks_enumerate text).single_backward, (backtracks_enumerate _).single_forward]
    cases i with
    -- Nothing precedes the index, and nothing follows it in the mirror.
    | zero => simp [Text.get?_reverse_size]
    | succ i =>
      have back : text.size - (text.size - (i + 1) + 1) = i := by omega
      rw [Text.get?_reverse_sub hi]
      simp only [Nat.succ_pos, true_and, Nat.add_sub_cancel]
      split
      · simp [back]
      · rfl
  inside i _ j hj := by
    rw [(backtracks_enumerate _).single_forward] at hj
    split at hj
    · next holds =>
      have inside : i < text.size := by
        by_contra outside
        rw [Text.get?_eq_none_iff.mpr (by rw [Text.size_reverse]; omega)] at holds
        cases holds
      rw [List.mem_singleton.mp hj]
      exact inside
    · cases hj

/-- Backward, plain backtracking leads where it leads forward in the mirror. -/
theorem mirrors_enumerate {p : Pattern} (mirrorable : p.Mirrorable) (text : Text) :
    Mirrors text.size (enumerate text .backward p)
      (enumerate text.reverse .forward p.reverse) := by
  -- The members of a list are one behind the other in a sequence, where the mirror reverses
  -- their order, and branches in an alternative, where it does not.
  rw [mirrors_iff_carries]
  induction p using induct
    (L := fun ps => (∀ q ∈ partsAll ps, q.isSymmetric = true) →
      Carries (· ≤ text.size) (text.size - ·) (enumerateSeq text .backward ps)
          (enumerateSeq text.reverse .forward (reverseAll ps).reverse) ∧
        Carries (· ≤ text.size) (text.size - ·) (enumerateAlt text .backward ps)
          (enumerateAlt text.reverse .forward (reverseAll ps))) with
  | seq ps ih => exact (ih fun q hq => mirrorable q (List.mem_cons_of_mem _ hq)).1
  | alt ps ih => exact (ih fun q hq => mirrorable q (List.mem_cons_of_mem _ hq)).2
  | quantified q p ih =>
    have body := ih fun q hq => mirrorable q (List.mem_cons_of_mem _ hq)
    have rooms : ∀ i, i ≤ text.size → Direction.room text .backward (text.size - i) =
        Direction.room text.reverse .forward i := by
      intro i _
      simp only [Direction.room, Text.size_reverse]
    rw [reverse, funext (enumerate_quantified q p), funext (enumerate_quantified q p.reverse)]
    exact body.ways rooms q
  | group p ih => exact ih fun q hq => mirrorable q (List.mem_cons_of_mem _ hq)
  | look negated p => cases mirrorable _ List.mem_cons_self
  | anchor a =>
    have symmetric : a ≠ .textEnd := by
      rintro rfl
      cases mirrorable _ List.mem_cons_self
    refine .guard fun i hi => ?_
    rw [← Anchor.holds_reverse symmetric (Nat.sub_le text.size i), Nat.sub_sub_self hi]
  | single t => exact mirrors_iff_carries.mp (mirrors_single text t)
  | nil => exact ⟨.stay, .nothing⟩
  | cons p ps ih ihs symmetric =>
    have first := ih fun q hq => symmetric q (List.mem_append_left _ hq)
    obtain ⟨others, branches⟩ := ihs fun q hq => symmetric q (List.mem_append_right _ hq)
    constructor
    · -- Backward the first member comes last, as it does in the reversed sequence.
      have last : enumerateSeq text.reverse .forward (reverseAll (p :: ps)).reverse =
          fun i => (enumerateSeq text.reverse .forward (reverseAll ps).reverse i).flatMap
            (enumerate text.reverse .forward p.reverse) := by
        funext i
        rw [reverseAll, List.reverse_cons, enumerateSeq_append]
        simp [enumerateSeq]
      rw [last]
      exact others.flatMap first
    · exact first.append branches

/-- Matching backward from an index gives, in the same order, what matching the reversed
pattern forward in the reversed text gives, with all indices counted from the other end. -/
theorem starts_eq_map_ends_reverse {p : Pattern} (mirrorable : p.Mirrorable)
    (inside : i ≤ text.size) :
    p.starts text i = (p.reverse.ends text.reverse (text.size - i)).map (text.size - ·) := by
  have mirror := mirrors_enumerate mirrorable text
  have within := mirror.inside _ (Nat.sub_le text.size i)
  calc p.starts text i
      = ((p.reverse.enumerate text.reverse .forward (text.size - i)).map
          (text.size - ·)).eraseDups := by
        rw [starts, reach_eq_eraseDups, mirror.eq i inside]
    _ = (p.reverse.enumerate text.reverse .forward (text.size - i)).eraseDups.map
          (text.size - ·) := by
        -- Inside the text no two indices are the same when counted from the other end.
        apply eraseDups_map
        intro j hj k hk same
        have := within j hj
        have := within k hk
        omega
    _ = _ := by rw [ends, reach_eq_eraseDups]

/-- Backward, the last member is the first to take a character: `a?\w?` prefers to start at
index 1 of `aab`, just as `\w?a?` prefers to end at index 2 of `baa`. -/
theorem starts_two_optional :
    (seq [quantified .zeroOrOne (single (.literal 'a')),
        quantified .zeroOrOne (single (.word false))]).Mirrorable ∧
      3 ≤ (Text.ofString "aab").size ∧
      (seq [quantified .zeroOrOne (single (.literal 'a')),
        quantified .zeroOrOne (single (.word false))]).starts (.ofString "aab") 3 =
          [1, 2, 3] := by
  have mirrorable : (seq [quantified .zeroOrOne (single (.literal 'a')),
      quantified .zeroOrOne (single (.word false))]).Mirrorable := by decide
  have inside : 3 ≤ (Text.ofString "aab").size := by decide
  refine ⟨mirrorable, inside, ?_⟩
  rw [starts_eq_map_ends_reverse mirrorable inside]
  rfl

end Pattern

end StringTransform
