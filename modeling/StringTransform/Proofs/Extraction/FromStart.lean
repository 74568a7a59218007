import StringTransform.Formula.Basic
import StringTransform.Proofs.Position.Boundaries
import StringTransform.Proofs.Position.Cuts

/-!
# The match of a given rank, counted from the start

The match of a token that an occurrence chooses is cut out between a boundary where a match
begins and a boundary where one ends. The ends are the stops of the spans. The beginnings are
chosen among all indices at which the token matches and which no span shadows. An index
inside a span must not count as a beginning, but the stop of a span is shadowed too, even
where the next span starts. So the beginnings are those of the spans that no other span
touches from the left. They line up with the ends as long as no span is touched; from the
first touched span on they are ahead of the ends, and nothing is cut out any more.

## Main definitions

* `Text.stretch` — the characters of a span
* `Token.Consumes` — no match of the token is empty
* `Span.Untouched` — no span stops where this one starts

## Main results

* `Token.beginnings_eq` — the beginnings are the starts of the untouched spans
* `Token.cut_from_start` — what lies between the boundaries of a rank
* `Formula.nth_eval_from_start` — the match that an occurrence chooses
-/

namespace StringTransform

/-- The characters of a span. -/
def Text.stretch (text : Text) (span : Span) : String :=
  ((text.take span.stop).drop span.start).toString

/-- No match of the token is empty. -/
def Token.Consumes (t : Token) : Prop :=
  ∀ text i, i ∉ t.pattern.ends text i

/-- None of the spans stops where this one starts. -/
def Span.Untouched (spans : List Span) (span : Span) : Prop :=
  ∀ other ∈ spans, other.stop ≠ span.start

instance (spans : List Span) (span : Span) : Decidable (span.Untouched spans) :=
  inferInstanceAs (Decidable (∀ other ∈ spans, other.stop ≠ span.start))

/-! ### The member of a filtered list at an index -/

section Filter

variable {α : Type} {p : α → Bool} {l : List α} {k : Nat}

/-- If the first members pass a filter, they keep their places. -/
theorem getElem?_filter_of_forall_take (pass : ∀ a ∈ l.take (k + 1), p a = true) :
    (l.filter p)[k]? = l[k]? := by
  induction l generalizing k with
  | nil => rfl
  | cons a l ih =>
    have first : p a = true := pass a (by simp)
    rw [List.filter_cons_of_pos first]
    cases k with
    | zero => rfl
    | succ k => exact ih fun b hb => pass b (List.mem_cons_of_mem a hb)

/-- If one of the first members does not pass a filter, later ones move to their places. -/
theorem mem_drop_of_getElem?_filter {a : α} (fail : ¬∀ a ∈ l.take (k + 1), p a = true)
    (member : (l.filter p)[k]? = some a) : a ∈ (l.drop (k + 1)).filter p := by
  have fewer : ((l.take (k + 1)).filter p).length ≤ k := by
    have shorter : ((l.take (k + 1)).filter p).length < (l.take (k + 1)).length := by
      rw [List.length_filter_lt_length_iff_exists]
      simpa using fail
    have := List.length_take_le (k + 1) l
    omega
  rw [← List.take_append_drop (k + 1) l, List.filter_append,
    List.getElem?_append_right fewer] at member
  exact List.mem_of_getElem? member

end Filter

namespace Token

variable {t : Token} {text : Text} {a b span : Span}

/-- A token without empty matches has no empty spans. -/
theorem Consumes.start_lt_stop (consumes : t.Consumes) (member : span ∈ t.spans text) :
    span.start < span.stop := by
  have matched := matches_of_mem_spans member
  refine Nat.lt_of_le_of_ne matched.le ?_
  intro empty
  exact consumes text span.start (Pattern.mem_ends.mpr (empty ▸ matched))

section Plain

variable (plain : t.pattern.Plain)
include plain

variable (consumes : t.Consumes)
include consumes

/-- The indices where a match begins and which no span shadows are the starts of the spans
that no span touches. -/
theorem beginnings_eq :
    ((List.range (text.size + 1)).filter fun i =>
      t.opens (text.drop i) && !(t.spans text).any (·.shadows i)) =
    ((t.spans text).filter (·.Untouched (t.spans text))).map (·.start) := by
  have candidates : (List.range (text.size + 1)).Pairwise (· < ·) := List.pairwise_lt_range
  have starts : (((t.spans text).filter (·.Untouched (t.spans text))).map (·.start)).Pairwise
      (· < ·) := by
    rw [List.pairwise_map]
    exact (pairwise_before_spans.filter _).imp fun before => before.1
  refine (candidates.filter _).eq_of_mem_iff starts fun i => ?_
  simp only [List.mem_filter, List.mem_range, List.mem_map, Bool.and_eq_true, Bool.not_eq_true',
    List.any_eq_false, decide_eq_true_eq]
  constructor
  · rintro ⟨inside, opens, unshadowed⟩
    have opening := (opens_drop_iff plain.neverLooksBack (Nat.le_of_lt_succ inside)).mp opens
    obtain ⟨span, member, covers⟩ := exists_span_of_opening (Nat.le_of_lt_succ inside) opening
    have start : span.start = i := by
      have := unshadowed span member
      simp only [Span.shadows, Bool.and_eq_true, decide_eq_true_eq] at this
      omega
    refine ⟨span, ⟨member, ?_⟩, start⟩
    intro other hother touches
    have := consumes.start_lt_stop hother
    have := unshadowed other hother
    simp only [Span.shadows, Bool.and_eq_true, decide_eq_true_eq] at this
    omega
  · rintro ⟨span, ⟨member, untouched⟩, rfl⟩
    have within := within_of_mem_spans span member
    have inside : span.start ≤ text.size := Nat.le_trans within.1 within.2
    refine ⟨Nat.lt_succ_of_le inside, ?_, ?_⟩
    · exact (opens_drop_iff plain.neverLooksBack inside).mpr ⟨_, matches_of_mem_spans member⟩
    · intro other hother shadowed
      simp only [Span.shadows, Bool.and_eq_true, decide_eq_true_eq] at shadowed
      have apart := untouched other hother
      rcases rel_or_eq_or_rel_of_pairwise pairwise_before_spans hother member with
        before | rfl | before
      · have := before.2
        omega
      · omega
      · have := before.1
        omega

/-- What lies between the boundaries of a rank is the span of that rank, if neither it nor a
span before it is touched; otherwise the beginning lies behind the end. -/
theorem cut_from_start {k : Occurrence} (positive : k.fromStart = true) :
    text.cut (.boundary .empty t k) (.boundary t .empty k) =
      (t.spans text)[k.rank - 1]?.bind fun span =>
        if ∀ a ∈ (t.spans text).take k.rank, a.Untouched (t.spans text) then
          some (text.stretch span)
        else none := by
  have beginning : (Position.boundary .empty t k).locate text =
      (((t.spans text).filter (·.Untouched (t.spans text)))[k.rank - 1]?).map (·.start) := by
    rw [Position.locate, if_pos positive, Position.locateFromStart_empty_left,
      beginnings_eq plain consumes, List.getElem?_map]
  have ending : (Position.boundary t .empty k).locate text =
      ((t.spans text)[k.rank - 1]?).map (·.stop) := by
    rw [Position.locate, if_pos positive, Position.locateFromStart_empty_right,
      List.getElem?_map]
  rw [Text.cut, beginning, ending]
  obtain ⟨n, hn⟩ : ∃ n, k.rank = n + 1 := ⟨k.rank - 1, by have := k.rank_pos; omega⟩
  rw [hn, Nat.add_sub_cancel]
  cases found : (t.spans text)[n]? with
  | none => simp
  | some span =>
    have member := List.mem_of_getElem? found
    have within := within_of_mem_spans span member
    rw [Option.map_some, Option.bind_some]
    by_cases apart : ∀ a ∈ (t.spans text).take (n + 1), a.Untouched (t.spans text)
    · have same : ((t.spans text).filter (·.Untouched (t.spans text)))[n]? = some span := by
        rw [getElem?_filter_of_forall_take fun a ha => decide_eq_true (apart a ha), found]
      have nonempty := consumes.start_lt_stop member
      have inside : span.start < text.size ∧ span.stop ≤ text.size ∧ span.start ≤ span.stop :=
        ⟨Nat.lt_of_lt_of_le nonempty within.2, within.2, within.1⟩
      rw [same, if_pos apart]
      exact if_pos inside
    · rw [if_neg apart]
      cases moved : ((t.spans text).filter (·.Untouched (t.spans text)))[n]? with
      | none => rfl
      | some later =>
        -- The span that has moved to this rank starts behind the one whose end is taken.
        have behind := mem_drop_of_getElem?_filter (by simpa using apart) moved
        obtain ⟨hlater, untouched⟩ := List.mem_filter.mp behind
        have before : span.Before later := by
          have ordered : (t.spans text).Pairwise Span.Before := pairwise_before_spans
          rw [← List.take_append_drop (n + 1) (t.spans text), List.pairwise_append] at ordered
          refine ordered.2.2 span ?_ later hlater
          refine List.mem_of_getElem? (i := n) ?_
          rw [List.getElem?_take_of_lt (Nat.lt_succ_self n), found]
        have := before.2
        have := of_decide_eq_true untouched span member
        have crossed : ¬(later.start < text.size ∧ span.stop ≤ text.size ∧
            later.start ≤ span.stop) := by omega
        exact if_neg crossed

end Plain

end Token

namespace Formula

/-- The match of a token counted from the start is the span of that rank, if there is one,
provided that neither it nor a span before it starts where another one stops. Otherwise there
is none. -/
theorem nth_eval_from_start {row : Row} {v : Var} {s : String} {t : Token} {k : Occurrence}
    (present : row.text? v = some s) (plain : t.pattern.Plain) (consumes : t.Consumes)
    (positive : k.fromStart = true) :
    (Formula.nth v t k).eval row =
      (t.spans (.ofString s))[k.rank - 1]?.bind fun span =>
        if ∀ a ∈ (t.spans (.ofString s)).take k.rank, a.Untouched (t.spans (.ofString s)) then
          some ((Text.ofString s).stretch span)
        else none := by
  rw [eval, present, Option.bind_some]
  exact Token.cut_from_start plain consumes positive

/-- One or two digits: the third match is found, although a fourth one touches it. -/
theorem third_number_found :
    ∃ number : Token, Token.ofPattern "\\d\\d?" = .ok number ∧ number.pattern.Plain ∧
      number.Consumes ∧
      number.spans (.ofString "1-23 456") = [⟨0, 1⟩, ⟨2, 4⟩, ⟨5, 7⟩, ⟨7, 8⟩] ∧
      (Formula.nth .subject number ⟨3, by decide, by decide, by decide⟩).eval
        (.ofSubject "1-23 456") = some "45" := by
  let number : Token := ⟨"\\d\\d?", .seq [.single (.digit false),
    .quantified .zeroOrOne (.single (.digit false))]⟩
  have plain : number.pattern.Plain := by decide
  have consumes : number.Consumes := by
    intro text i reached
    obtain ⟨k, ⟨first, -⟩, l, optional, last⟩ := Pattern.mem_ends.mp reached
    have ahead : k ≤ l := Pattern.Matches.le (p := .quantified .zeroOrOne _) optional
    have stays : l = i := last
    omega
  have spans : number.spans (.ofString "1-23 456") = [⟨0, 1⟩, ⟨2, 4⟩, ⟨5, 7⟩, ⟨7, 8⟩] := by
    decide +kernel
  refine ⟨number, rfl, plain, consumes, spans, ?_⟩
  rw [nth_eval_from_start rfl plain consumes rfl, spans]
  rfl

/-- Of two digits that touch, the second one is a match of its own and is not found. -/
theorem touching_digit_not_found :
    ∃ digit : Token, Token.ofPattern "\\d" = .ok digit ∧
      digit.spans (.ofString "12") = [⟨0, 1⟩, ⟨1, 2⟩] ∧
      (Text.ofString "12").stretch ⟨1, 2⟩ = "2" ∧
      (Formula.nth .subject digit ⟨2, by decide, by decide, by decide⟩).eval (.ofSubject "12") =
        none := by
  refine ⟨⟨"\\d", .seq [.single (.digit false)]⟩, rfl, ?_, rfl, ?_⟩ <;> decide +kernel

end Formula

end StringTransform
