import StringTransform.Proofs.Token.Building
import StringTransform.Proofs.Token.Combination

/-!
# Tokens one behind the other

As texts and as trees, putting tokens behind one another is associative, with the empty token as
its unit, because an operand is spliced in once however deep it stands. Only alternatives at the
top are put into a group by it. That changes their text and their tree, but not what they match.

## Main results

* `Token.append_assoc`, `Token.appendBounded_assoc` — combined texts and trees
* `Token.empty_append`, `Token.append_empty` — the unit, for tokens without alternatives
* `Token.append_monoid_laws` — the same together, with the matches of all tokens
-/

namespace StringTransform.Token

variable {text : Text} {d : Direction} {i : Nat} {t u : Token}

/-- A combined token is a sequence, so as an operand it is taken apart and not put into a group. -/
theorem operand_append (s t : Token) :
    (s.append t).operand = (s.operand.1 ++ t.operand.1, s.operand.2 ++ t.operand.2) := rfl

/-- Both the text and the tree of tokens one behind the other are the same wherever they are
taken together first. -/
theorem append_assoc (r s t : Token) : (r.append s).append t = r.append (s.append t) := by
  have source : r.operand.1 ++ s.operand.1 ++ t.operand.1 =
      r.operand.1 ++ (s.operand.1 ++ t.operand.1) := String.append_assoc
  have members := List.append_assoc r.operand.2 s.operand.2 t.operand.2
  rw [append, operand_append, source, members]
  rfl

theorem appendBounded_assoc (r s t : Token) :
    (r.append s).appendBounded t = r.appendBounded (s.append t) := by
  have source : "\\b" ++ (r.operand.1 ++ s.operand.1) ++ t.operand.1 =
      "\\b" ++ r.operand.1 ++ (s.operand.1 ++ t.operand.1) := by
    simp only [String.append_assoc]
  have members := List.append_assoc r.operand.2 s.operand.2 t.operand.2
  rw [appendBounded, operand_append, source, members]
  rfl

/-- The tree of a token that can be built is a sequence unless it has alternatives. -/
theorem Built.eq_seq (built : t.Built) (single : ∀ branches, t.pattern ≠ .alt branches) :
    ∃ source members, t = ⟨source, .seq members⟩ := by
  obtain ⟨source, p⟩ := t
  rcases Pattern.seq_or_alt_of_parse built.denotes with ⟨members, rfl⟩ | ⟨branches, rfl⟩
  · exact ⟨source, members, rfl⟩
  · exact absurd rfl (single branches)

theorem empty_append (built : t.Built) (single : ∀ branches, t.pattern ≠ .alt branches) :
    empty.append t = t := by
  obtain ⟨source, members, rfl⟩ := built.eq_seq single
  simp [append, operand, empty]

theorem append_empty (built : t.Built) (single : ∀ branches, t.pattern ≠ .alt branches) :
    t.append empty = t := by
  obtain ⟨source, members, rfl⟩ := built.eq_seq single
  simp [append, operand, empty]

/-- The empty token adds nothing to what a token reaches, alternatives included. -/
theorem reach_empty_append :
    (empty.append t).pattern.reach text d i = t.pattern.reach text d i :=
  t.reach_operand

theorem reach_append_empty :
    (t.append empty).pattern.reach text d i = t.pattern.reach text d i := by
  have members : t.operand.2 ++ empty.operand.2 = t.operand.2 := List.append_nil _
  rw [append, members, reach_operand]

/-- Putting tokens behind one another is associative on texts and trees, also between word
boundaries. For tokens that can be built the empty token is its unit, on texts and trees if
there are no alternatives at the top, and in what is matched always. -/
theorem append_monoid_laws (r s t : Token) {u : Token} (built : u.Built) :
    (r.append s).append t = r.append (s.append t) ∧
      (r.append s).appendBounded t = r.appendBounded (s.append t) ∧
      ((∀ branches, u.pattern ≠ .alt branches) → empty.append u = u ∧ u.append empty = u) ∧
      ∀ text i,
        (empty.append u).pattern.ends text i = u.pattern.ends text i ∧
          (empty.append u).pattern.starts text i = u.pattern.starts text i ∧
          (u.append empty).pattern.ends text i = u.pattern.ends text i ∧
          (u.append empty).pattern.starts text i = u.pattern.starts text i := by
  refine ⟨append_assoc r s t, appendBounded_assoc r s t, ?_, ?_⟩
  · exact fun single => ⟨empty_append built single, append_empty built single⟩
  · exact fun text i =>
      ⟨reach_empty_append, reach_empty_append, reach_append_empty, reach_append_empty⟩

/-- A choice of letters is put into a group behind the empty token, and matches as before; with
digits behind it, it has no alternatives at the top, and nothing changes. -/
theorem choice_behind_empty :
    ∃ either : Token, ofPattern "a|b" = .ok either ∧ either.Built ∧
      empty.append either ≠ either ∧
      (∀ text i, (empty.append either).pattern.ends text i = either.pattern.ends text i) ∧
      (either.append Run.num.token).Built ∧
      empty.append (either.append Run.num.token) = either.append Run.num.token := by
  let either : Token := ⟨"a|b", .alt [.seq [.single (.literal 'a')], .seq [.single (.literal 'b')]]⟩
  have denoted : ofPattern "a|b" = .ok either := rfl
  have built : either.Built := .ofPattern denoted
  have combined : (either.append Run.num.token).Built := built.append (.catalogue (.run .num))
  have grouped : empty.append either ≠ either := by
    intro same
    exact absurd (congrArg Token.source same) (by decide)
  obtain ⟨-, -, -, matched⟩ := append_monoid_laws empty empty empty built
  obtain ⟨-, -, unit, -⟩ := append_monoid_laws empty empty empty combined
  have single : ∀ branches, (either.append Run.num.token).pattern ≠ .alt branches := nofun
  exact ⟨either, denoted, built, grouped, fun text i => (matched text i).1, combined,
    (unit single).1⟩

end StringTransform.Token
