import StringTransform.Proofs.Scan.Runs
import StringTransform.Proofs.Token.Combination

/-!
# What scans find of the named tokens

Of a named token both scans find the same spans, in opposite orders. Where the token matches
characters of a class they are the runs of the class. The others are assertions, as is the
absence of a token: they consume nothing, and are found with an empty span at every index where
they hold, the one behind the last character included.

## Main definitions

* `Token.ScansTo` — what both scans find
* `Text.emptySpans` — the empty spans at the indices where an assertion holds

## Main results

* `Token.scansTo_emptySpans` — what the scans find of an assertion
* `catalogue_scans` — what they find of each named token, and of the absence of a token
-/

namespace StringTransform

/-- The empty spans at the indices of a text where an assertion holds. -/
def Text.emptySpans (text : Text) (holds : Nat → Bool) : List Span :=
  ((List.range (text.size + 1)).filter holds).map fun i => ⟨i, i⟩

namespace Token

variable {t : Token} {text : Text} {holds : Nat → Bool}

/-- From left to right a scan finds the spans in their order, and from right to left in the
opposite one. -/
structure ScansTo (t : Token) (text : Text) (spans : List Span) : Prop where
  forward : t.spans text = spans
  backward : t.spansBackward text = spans.reverse

theorem stillSpans_eq_emptySpans
    (asserts : ∀ i j, t.pattern.Matches text i j ↔ i = j ∧ holds i = true) :
    t.stillSpans text = text.emptySpans holds := by
  have same : ∀ i, (!(t.pattern.ends text i).isEmpty) = holds i := by
    intro i
    have matched : (∃ j, t.pattern.Matches text i j) ↔ holds i = true := by simp [asserts]
    rw [Bool.eq_iff_iff, Pattern.not_isEmpty_ends_iff, matched]
  simp only [stillSpans, Text.emptySpans, same]

/-- A token that is an assertion is found wherever it holds. -/
theorem scansTo_emptySpans
    (asserts : ∀ i j, t.pattern.Matches text i j ↔ i = j ∧ holds i = true) :
    t.ScansTo text (text.emptySpans holds) := by
  have still : ∀ i j, t.pattern.Matches text i j → i = j :=
    fun i j matched => ((asserts i j).mp matched).1
  rw [← stillSpans_eq_emptySpans asserts]
  exact ⟨spans_eq_of_still still, spansBackward_eq_of_still still⟩

theorem scansTo_anchor (source : String) (a : Anchor) (text : Text) :
    ScansTo ⟨source, .seq [.anchor a]⟩ text (text.emptySpans fun i => a.holds text i) :=
  scansTo_emptySpans fun _ _ => Pattern.matchesSeq_singleton (.anchor a)

theorem scansTo_absent (t : Token) (text : Text) :
    t.absent.ScansTo text (text.emptySpans fun i => (t.pattern.ends text i).isEmpty) := by
  apply scansTo_emptySpans
  intro i j
  rw [matches_absent, List.isEmpty_iff, Pattern.ends_eq_nil_iff, not_exists]

end Token

theorem Run.scansTo_runs (r : Run) (text : Text) :
    r.token.ScansTo text (text.runs r.contains) :=
  ⟨r.spans_eq_runs text, r.spansBackward_eq_runs text⟩

/-- Both scans find the runs of a class with its token, all of them in order. The empty token
they find at every index, the two ends of the text where these hold, and the absence of a token
wherever no match of the token starts. -/
theorem catalogue_scans (text : Text) :
    (∀ r : Run, r.token.ScansTo text (text.runs r.contains) ∧
        (text.runs r.contains).Pairwise Span.Before ∧
        ∀ span, span ∈ text.runs r.contains ↔ text.IsRun r.contains span) ∧
      Catalogue.empty.token.ScansTo text (text.emptySpans fun _ => true) ∧
      Catalogue.start.token.ScansTo text (text.emptySpans fun i => i == 0) ∧
      Catalogue.stop.token.ScansTo text (text.emptySpans fun i =>
        i == text.size || (i + 1 == text.size && text.get? i == some '\n')) ∧
      ∀ t : Token,
        t.absent.ScansTo text (text.emptySpans fun i => (t.pattern.ends text i).isEmpty) := by
  refine ⟨?_, ?_, ?_, ?_, fun t => t.scansTo_absent text⟩
  · intro r
    exact ⟨r.scansTo_runs text, Text.pairwise_before_runs, fun span => Text.mem_runs_iff⟩
  · apply Token.scansTo_emptySpans
    intro i j
    exact (and_iff_left rfl).symm
  · exact Token.scansTo_anchor "\\A" .textStart text
  · exact Token.scansTo_anchor "\\Z" .textEnd text

end StringTransform
