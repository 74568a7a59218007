import StringTransform.Proofs.Pattern.Splicing
import StringTransform.Token.Catalogue
import StringTransform.Token.Combine
import StringTransform.Token.Scan

/-!
# Building tokens

Tokens come from pattern texts, from the catalogue, and from combining other tokens. A
combination is made of texts and of trees separately, and nothing is read again, yet its
text denotes its tree: an operand is spliced into a branch, in a group if it has
alternatives of its own. So tokens with the same text are the same token, however they
were built, and no scan can tell them apart.

## Main definitions

* `Token.Built` — the tokens that can be built
* `Token.Denotes` — the text of a token denotes its pattern

## Main results

* `Token.splices_operand` — an operand can be spliced
* `Token.Built.denotes` — the text of a token that can be built denotes its pattern
* `Token.source_determines_matches` — tokens that compare equal have the same matches
-/

namespace StringTransform

namespace Token

/-- The tokens that can be built: those of pattern texts, those of the catalogue, and
combinations of these, however deep. -/
inductive Built : Token → Prop where
  | ofPattern {source : String} {t : Token} (accepted : ofPattern source = .ok t) : Built t
  | catalogue (e : Catalogue) : Built e.token
  | append {s t : Token} (left : Built s) (right : Built t) : Built (s.append t)
  | appendBounded {s t : Token} (left : Built s) (right : Built t) : Built (s.appendBounded t)
  | absent {t : Token} (body : Built t) : Built t.absent

/-- The text of the token denotes its pattern. -/
def Denotes (t : Token) : Prop :=
  Pattern.parse t.source = .ok t.pattern

variable {s t : Token}

theorem denotes_of_ofPattern {source : String} (accepted : ofPattern source = .ok t) :
    t.Denotes := by
  unfold ofPattern at accepted
  split at accepted
  · next p parsed =>
    cases accepted
    exact parsed
  · exact nomatch accepted

theorem denotes_catalogue (e : Catalogue) : e.token.Denotes := by
  cases e with
  | run r => cases r <;> rfl
  | empty => rfl
  | start => rfl
  | stop => rfl

/-- An operand adds its members to a branch, because alternatives are put into a group. -/
theorem splices_operand (denotes : t.Denotes) : Splices t.operand.1 t.operand.2 := by
  obtain ⟨source, p⟩ := t
  -- A text denotes a sequence or alternatives, so the third case of operands never arises.
  rcases Pattern.seq_or_alt_of_parse denotes with ⟨ms, rfl⟩ | ⟨bs, rfl⟩
  · exact splices_of_parse denotes
  · exact splices_group .plain denotes

theorem denotes_append (hs : s.Denotes) (ht : t.Denotes) : (s.append t).Denotes :=
  ((splices_operand hs).append (splices_operand ht)).parse

theorem denotes_appendBounded (hs : s.Denotes) (ht : t.Denotes) :
    (s.appendBounded t).Denotes := by
  have boundary : Splices "\\b" [.anchor (.wordBoundary false)] := splices_of_parse rfl
  have operands := (boundary.append (splices_operand hs)).append (splices_operand ht)
  exact (operands.append boundary).parse

theorem denotes_absent (ht : t.Denotes) : t.absent.Denotes :=
  (splices_group (.look true) ht).parse

/-- The text of every token that can be built denotes its pattern. -/
theorem Built.denotes (built : t.Built) : t.Denotes := by
  induction built with
  | ofPattern accepted => exact denotes_of_ofPattern accepted
  | catalogue e => exact denotes_catalogue e
  | append _ _ left right => exact denotes_append left right
  | appendBounded _ _ left right => exact denotes_appendBounded left right
  | absent _ body => exact denotes_absent body

/-- Tokens that can be built and compare equal are the same token. -/
theorem Built.eq_of_beq (hs : s.Built) (ht : t.Built) (same : (s == t) = true) : s = t := by
  obtain ⟨source, p⟩ := s
  obtain ⟨_, q⟩ := t
  cases beq_iff.mp same
  have patterns : Except.ok p = Except.ok q := hs.denotes.symm.trans ht.denotes
  cases patterns
  rfl

/-- The text of a token that can be built denotes its pattern. So no scan and no test tells
two of them apart that compare equal, however they were built. -/
theorem source_determines_matches (hs : s.Built) (ht : t.Built) :
    Pattern.parse s.source = .ok s.pattern ∧
      ((s == t) = true → ∀ text, s.spans text = t.spans text ∧
        s.spansBackward text = t.spansBackward text ∧ s.opens text = t.opens text ∧
        s.closes text = t.closes text ∧ s.count text = t.count text) := by
  refine ⟨hs.denotes, ?_⟩
  intro same text
  rw [hs.eq_of_beq ht same]
  exact ⟨rfl, rfl, rfl, rfl, rfl⟩

/-- A choice of letters with digits behind it, combined from two tokens or read as one text,
has the same matches either way. -/
theorem combined_matches_read :
    ∃ either read : Token, ofPattern "a|b" = .ok either ∧
      ofPattern "(?:a|b)\\d+" = .ok read ∧
      Pattern.parse (either.append Run.num.token).source = .ok read.pattern ∧
      ∀ text, (either.append Run.num.token).spans text = read.spans text := by
  let either : Token := ⟨"a|b", .alt [.seq [.single (.literal 'a')], .seq [.single (.literal 'b')]]⟩
  have choice : ofPattern "a|b" = .ok either := rfl
  have whole : ofPattern "(?:a|b)\\d+" = .ok (either.append Run.num.token) := rfl
  have combined : (either.append Run.num.token).Built :=
    .append (.ofPattern choice) (.catalogue (.run .num))
  obtain ⟨denotes, agree⟩ := source_determines_matches combined (.ofPattern whole)
  exact ⟨either, _, choice, whole, denotes, fun text => (agree rfl text).1⟩

end Token

end StringTransform
