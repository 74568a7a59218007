import Mathlib.Data.List.Basic
import StringTransform.Proofs.Pattern.Backtracking
import StringTransform.Token.Combine

/-!
# The meaning of combined tokens

Putting a token behind another composes the lists of ends: forward the first token is followed
and then the second one from each index that the first one reaches, and of what they reach
together each index is kept where it comes up first. Backward the two change places. A sequence
is taken apart into its members and alternatives are put into a group on the way, neither of
which changes a list. The absence of a token is an assertion, and holds where no match of the
token starts.

## Main definitions

* `Text.atBoundary` — a word begins or ends at an index
* `Direction.inOrder` — what a direction meets first

## Main results

* `Pattern.reach_seq_append` — a sequence cut anywhere
* `Token.reach_append`, `Token.ends_appendBounded`, `Token.reach_absent` — the combinations one
  by one
* `Token.combinations_compose` — the same together
* `Token.matches_append`, `Token.matches_absent` — which matches there are, without their order
-/

namespace StringTransform

variable {text : Text} {d : Direction} {i : Nat}

/-- Whether a word begins or ends at an index: a word character stands on one side only. -/
def Text.atBoundary (text : Text) (i : Nat) : Bool :=
  text.wordBefore i != text.wordAt i

/-- Two things in the order in which a direction meets them, the first one standing before the
second one in the text. -/
def Direction.inOrder {α : Type} : Direction → α → α → α × α
  | .forward, x, y => (x, y)
  | .backward, x, y => (y, x)

/-! ### Sequences -/

namespace Pattern

theorem eraseDups_reach_seq (ps : List Pattern) (i : Nat) :
    ((seq ps).reach text d i).eraseDups = (enumerateSeq text d ps i).eraseDups := by
  rw [reach_eq_eraseDups, eraseDups_eraseDups]
  rfl

/-- The members of the list that a direction meets first are followed, and then those of the
other list from wherever the first ones lead. -/
theorem reach_seq_append (ps qs : List Pattern) :
    (seq (ps ++ qs)).reach text d i =
      (((seq (d.inOrder ps qs).1).reach text d i).flatMap
        ((seq (d.inOrder ps qs).2).reach text d)).eraseDups := by
  have enumerated : enumerateSeq text d (ps ++ qs) i =
      (enumerateSeq text d (d.inOrder ps qs).1 i).flatMap
        (enumerateSeq text d (d.inOrder ps qs).2) := by
    cases d with
    | forward => exact enumerateSeq_append ps qs i
    | backward => exact enumerateSeq_append_backward ps qs i
  calc (seq (ps ++ qs)).reach text d i
      = ((enumerateSeq text d (d.inOrder ps qs).1 i).flatMap
          (enumerateSeq text d (d.inOrder ps qs).2)).eraseDups := by
        rw [reach_eq_eraseDups, ← enumerated]
        rfl
    _ = _ := (eraseDups_flatMap_congr (eraseDups_reach_seq _ i)
        fun j _ => eraseDups_reach_seq _ j).symm

/-- A sequence of a single member reaches what the member reaches. -/
theorem reach_seq_singleton (p : Pattern) : (seq [p]).reach text d i = p.reach text d i := by
  have single : (seq [p]).enumerate text d i = p.enumerate text d i := by
    cases d <;> simp [enumerate, enumerateSeq]
  rw [reach_eq_eraseDups, single, reach_eq_eraseDups]

theorem matchesSeq_singleton {i j : Nat} (p : Pattern) :
    MatchesSeq text [p] i j ↔ p.Matches text i j := by
  simp [MatchesSeq]

end Pattern

namespace Token

variable {s t : Token}

/-! ### Combined tokens -/

/-- As a part of a sequence a token reaches what it reaches by itself. -/
theorem reach_operand (t : Token) :
    (Pattern.seq t.operand.2).reach text d i = t.pattern.reach text d i := by
  obtain ⟨source, p⟩ := t
  cases p with
  | seq members => rfl
  | alt branches => exact Pattern.reach_seq_singleton (.group (.alt branches))
  | _ => exact Pattern.reach_seq_singleton _

/-- One token behind another: the one that the direction meets first is followed, and then the
other one from wherever the first one leads. -/
theorem reach_append :
    (s.append t).pattern.reach text d i =
      (((d.inOrder s t).1.pattern.reach text d i).flatMap
        ((d.inOrder s t).2.pattern.reach text d)).eraseDups := by
  have operand : ∀ t : Token, (Pattern.seq t.operand.2).reach text d = t.pattern.reach text d :=
    fun t => funext fun _ => t.reach_operand
  rw [append, Pattern.reach_seq_append]
  cases d with
  | forward => rw [Direction.inOrder, Direction.inOrder, operand, operand]
  | backward => rw [Direction.inOrder, Direction.inOrder, operand, operand]

theorem ends_append :
    (s.append t).pattern.ends text i =
      ((s.pattern.ends text i).flatMap (t.pattern.ends text)).eraseDups :=
  reach_append

theorem starts_append :
    (s.append t).pattern.starts text i =
      ((t.pattern.starts text i).flatMap (s.pattern.starts text)).eraseDups :=
  reach_append

/-- The ends between word boundaries are those on a boundary, if matching starts on one. -/
theorem ends_appendBounded :
    (s.appendBounded t).pattern.ends text i =
      if text.atBoundary i then ((s.append t).pattern.ends text i).filter text.atBoundary
      else [] := by
  let boundary : List Pattern := [.anchor (.wordBoundary false)]
  have ends_boundary : ∀ j,
      (Pattern.seq boundary).ends text j = if text.atBoundary j then [j] else [] := by
    intro j
    rw [Pattern.ends, Pattern.reach_seq_singleton]
    simp [Pattern.reach, Anchor.holds, Text.atBoundary]
  -- The boundary behind the operands keeps or drops each index they reach.
  have behind : ((s.append t).pattern.ends text i).flatMap ((Pattern.seq boundary).ends text) =
      ((s.append t).pattern.ends text i).filter text.atBoundary := by
    rw [← List.filterMap_eq_filter, List.filterMap_eq_flatMap_toList, funext ends_boundary]
    congr 1
    funext j
    simp [Option.guard, apply_ite Option.toList]
  have operands : (Pattern.seq (s.operand.2 ++ t.operand.2 ++ boundary)).ends text i =
      (((s.append t).pattern.ends text i).flatMap ((Pattern.seq boundary).ends text)).eraseDups :=
    Pattern.reach_seq_append _ boundary
  have kept : (((s.append t).pattern.ends text i).filter text.atBoundary).Nodup :=
    (Pattern.nodup_reach _ _).filter _
  calc (s.appendBounded t).pattern.ends text i
      = (((Pattern.seq boundary).ends text i).flatMap
          ((Pattern.seq (s.operand.2 ++ t.operand.2 ++ boundary)).ends text)).eraseDups :=
        Pattern.reach_seq_append boundary _
    _ = _ := by
      rw [ends_boundary]
      split
      · rw [List.flatMap_singleton, operands, behind, eraseDups_eraseDups,
          eraseDups_eq_self kept]
      · rfl

/-- The absence of a token stays where no match of it starts, in either direction. -/
theorem reach_absent :
    t.absent.pattern.reach text d i = if t.pattern.ends text i = [] then [i] else [] := by
  rw [absent, Pattern.reach_seq_singleton, Pattern.reach, Pattern.ends]
  simp

/-- The absence of an absence stays where a match starts. -/
theorem reach_absent_absent :
    t.absent.absent.pattern.reach text d i = if t.pattern.ends text i = [] then [] else [i] := by
  rw [reach_absent, Pattern.ends, reach_absent]
  split <;> simp

/-- Combined tokens are matched by composing the lists of their operands, each index kept where
it comes up first: forward the second token follows wherever the first one ends, backward the
first one comes before wherever the second one starts. Between word boundaries the same ends are
reached, in the same order, as far as they lie on a boundary, and only from an index on one. The
absence of a token stays exactly where no match of the token starts, and its absence in turn
where one does. -/
theorem combinations_compose (s t : Token) (text : Text) (i : Nat) :
    (s.append t).pattern.ends text i =
        ((s.pattern.ends text i).flatMap (t.pattern.ends text)).eraseDups ∧
      (s.append t).pattern.starts text i =
        ((t.pattern.starts text i).flatMap (s.pattern.starts text)).eraseDups ∧
      (s.appendBounded t).pattern.ends text i =
        (if text.atBoundary i then ((s.append t).pattern.ends text i).filter text.atBoundary
        else []) ∧
      t.absent.pattern.ends text i = (if t.pattern.ends text i = [] then [i] else []) ∧
      t.absent.absent.pattern.ends text i = if t.pattern.ends text i = [] then [] else [i] :=
  ⟨ends_append, starts_append, ends_appendBounded, reach_absent, reach_absent_absent⟩

/-! ### Matches without their order -/

/-- A token behind another matches where a match of the one leads to a match of the other. -/
theorem matches_append {i j : Nat} :
    (s.append t).pattern.Matches text i j ↔
      ∃ k, s.pattern.Matches text i k ∧ t.pattern.Matches text k j := by
  rw [← Pattern.mem_ends, ends_append, List.mem_eraseDups, List.mem_flatMap]
  simp only [Pattern.mem_ends]

/-- The absence of a token holds where no match of it starts. -/
theorem matches_absent {i j : Nat} :
    t.absent.pattern.Matches text i j ↔ i = j ∧ ¬∃ k, t.pattern.Matches text i k := by
  have noEnds : t.pattern.ends text i = [] ↔ ¬∃ k, t.pattern.Matches text i k := by
    simp [List.eq_nil_iff_forall_not_mem, Pattern.mem_ends]
  rw [← Pattern.mem_ends, Pattern.ends, reach_absent, List.mem_ite_nil_right, noEnds,
    List.mem_singleton, and_comm, eq_comm]

end Token

end StringTransform
