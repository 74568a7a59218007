import Mathlib.Data.List.Perm.Subperm
import Mathlib.Data.Nat.PSub
import StringTransform.Proofs.Scan.Order

/-!
# Scans take every match that they come to

A scan looks at one index after the other, takes the preferred match if there is one, and
resumes behind it. So no match lies between the index at which it resumes and the span that
it finds next, nor behind the last span. Together with the preferred matches themselves this
determines the spans: whatever list has these properties is the list that the scan finds.

From right to left the scan may be over before it has looked at every index: nothing lies
behind an empty match at index zero. A match that is not empty and reaches back to zero leaves
the empty stretch there to be looked at.

## Main definitions

* `Token.IsScan`, `Token.IsBackwardScan` — spans between which no match is passed over, from
  left to right and from right to left
* `Span.resumption?` — where a scan from right to left resumes behind a span
* `Token.round?` — one round of a scan from right to left

## Main results

* `Token.isScan_iff`, `Token.isBackwardScan_iff` — such spans are those that the scan finds
* `Token.leftmost_scan_unique` — what the scan from left to right finds
* `Token.rightmost_scan_unique` — what the scan from right to left finds, against matching
  forward
-/

namespace StringTransform

open Relation

/-- What holds wherever a list is cut holds before the first member and wherever the others are
cut. -/
theorem forall_cut_cons_iff {α : Type} {P : List α → List α → Prop} {a : α} {l : List α} :
    (∀ earlier later, a :: l = earlier ++ later → P earlier later) ↔
      P [] (a :: l) ∧ ∀ earlier later, l = earlier ++ later → P (a :: earlier) later := by
  constructor
  · intro everywhere
    refine ⟨everywhere [] (a :: l) rfl, ?_⟩
    rintro earlier later rfl
    exact everywhere (a :: earlier) later rfl
  · rintro ⟨first, others⟩ earlier later whole
    rcases List.cons_eq_append_iff.mp whole with ⟨rfl, rfl⟩ | ⟨earlier, rfl, rfl⟩
    · exact first
    · exact others earlier later rfl

theorem forall_cut_nil_iff {α : Type} {P : List α → List α → Prop} :
    (∀ earlier later, [] = earlier ++ later → P earlier later) ↔ P [] [] := by
  constructor
  · intro everywhere
    exact everywhere [] [] rfl
  · intro nothing earlier later whole
    obtain ⟨rfl, rfl⟩ := List.append_eq_nil_iff.mp whole.symm
    exact nothing

namespace Token

variable {t : Token} {text : Text} {first i : Nat} {span : Span} {spans : List Span}

/-! ### From left to right -/

/-- The index at which a scan from `first` on resumes behind the spans found so far. -/
def resumeAfter (first : Nat) (earlier : List Span) : Nat :=
  (earlier.getLast?.map fun span => resumption span.start span.stop).getD first

/-- From the index `first` on, the spans take every match that a scan from left to right comes
to. -/
structure IsScan (t : Token) (text : Text) (first : Nat) (spans : List Span) : Prop where
  /-- A span is the preferred match at an index of the text. -/
  preferred : ∀ span ∈ spans,
    span.start ≤ text.size ∧ (t.pattern.ends text span.start).head? = some span.stop
  increasing : spans.Pairwise (·.start < ·.start)
  /-- The next span does not start before the index at which the scan resumes. -/
  resumes : ∀ earlier later, spans = earlier ++ later →
    ∀ next ∈ later.head?, resumeAfter first earlier ≤ next.start
  /-- Between the index at which the scan resumes and the next span no match starts, nor up to
  the end of the text if there is no next span. -/
  passes : ∀ earlier later, spans = earlier ++ later →
    ∀ i ≤ text.size, resumeAfter first earlier ≤ i → (∀ next ∈ later.head?, i < next.start) →
      t.pattern.ends text i = []

theorem resumeAfter_cons (first : Nat) (span : Span) (earlier : List Span) :
    resumeAfter first (span :: earlier) =
      resumeAfter (resumption span.start span.stop) earlier := by
  cases earlier <;> simp [resumeAfter, List.getLast?_cons]

theorem resumption_eq_max {stop : Nat} (ahead : i ≤ stop) :
    resumption i stop = max stop (i + 1) := by
  unfold resumption
  split <;> omega

theorem IsScan.le_start (scan : t.IsScan text first spans) :
    ∀ span ∈ spans, first ≤ span.start := by
  cases spans with
  | nil => exact nofun
  | cons head others =>
    have least : first ≤ head.start := scan.resumes [] (head :: others) rfl head rfl
    intro span member
    rcases List.mem_cons.mp member with rfl | member
    · exact least
    · exact Nat.le_trans least (Nat.le_of_lt (List.rel_of_pairwise_cons scan.increasing member))

/-- A scan finds nothing if no match is left. -/
theorem isScan_nil_iff :
    t.IsScan text first [] ↔ ∀ i ≤ text.size, first ≤ i → t.pattern.ends text i = [] := by
  constructor
  · intro scan i inside further
    exact forall_cut_nil_iff.mp scan.passes i inside further nofun
  · intro unmatched
    exact ⟨nofun, .nil, forall_cut_nil_iff.mpr nofun,
      forall_cut_nil_iff.mpr fun i inside further _ => unmatched i inside further⟩

/-- The first span is the first match that is left, and the others are found from behind it
on. -/
theorem isScan_cons_iff :
    t.IsScan text first (span :: spans) ↔
      first ≤ span.start ∧ span.start ≤ text.size ∧
        (∀ i, first ≤ i → i < span.start → t.pattern.ends text i = []) ∧
        (t.pattern.ends text span.start).head? = some span.stop ∧
        t.IsScan text (resumption span.start span.stop) spans := by
  have next : ∀ {P : Span → Prop}, (∀ b ∈ (span :: spans).head?, P b) ↔ P span := by simp
  -- The list is cut before its first span, or somewhere in the rest.
  constructor
  · intro scan
    obtain ⟨⟨inside, found⟩, preferred⟩ := List.forall_mem_cons.mp scan.preferred
    obtain ⟨least, resumes⟩ := forall_cut_cons_iff.mp scan.resumes
    obtain ⟨passed, passes⟩ := forall_cut_cons_iff.mp scan.passes
    simp only [resumeAfter_cons] at resumes passes
    refine ⟨next.mp least, inside, ?_, found, preferred, scan.increasing.of_cons, resumes, passes⟩
    intro i further before
    exact passed i (by omega) further (next.mpr before)
  · rintro ⟨least, inside, passed, found, scan⟩
    have ahead : span.start ≤ span.stop ∧ span.stop ≤ text.size := covers_of_head? inside found
    have later : ∀ b ∈ spans, span.start < b.start := by
      intro b hb
      have := scan.le_start b hb
      rw [resumption_eq_max ahead.1] at this
      omega
    refine ⟨List.forall_mem_cons.mpr ⟨⟨inside, found⟩, scan.preferred⟩,
      .cons later scan.increasing, forall_cut_cons_iff.mpr ⟨next.mpr least, ?_⟩,
      forall_cut_cons_iff.mpr ⟨?_, ?_⟩⟩
    · simpa only [resumeAfter_cons] using scan.resumes
    · intro i _ further before
      exact passed i further (next.mp before)
    · simpa only [resumeAfter_cons] using scan.passes

/-- A scan may as well begin one index earlier if nothing matches there. -/
theorem IsScan.of_succ (scan : t.IsScan text (first + 1) spans)
    (unmatched : t.pattern.ends text first = []) : t.IsScan text first spans := by
  -- Behind the first span it does not matter where the scan has begun.
  cases spans with
  | nil =>
    rw [isScan_nil_iff] at scan ⊢
    intro i inside further
    rcases Nat.eq_or_lt_of_le further with rfl | later
    · exact unmatched
    · exact scan i inside later
  | cons span spans =>
    obtain ⟨least, inside, passed, found, rest⟩ := isScan_cons_iff.mp scan
    refine isScan_cons_iff.mpr ⟨Nat.le_of_succ_le least, inside, ?_, found, rest⟩
    intro i further before
    rcases Nat.eq_or_lt_of_le further with rfl | later
    · exact unmatched
    · exact passed i later before

/-- The spans that the scan finds take every match. -/
theorem isScan_spansFrom (first : Nat) : t.IsScan text first (t.spansFrom text first) := by
  apply spansFrom_induction (P := fun first spans => t.IsScan text first spans)
  · intro i outside
    apply isScan_nil_iff.mpr
    intro j inside further
    omega
  · intro i _ unmatched scan
    exact scan.of_succ unmatched
  · intro i stop ahead inside found scan
    rw [← resumption_eq_max ahead] at scan ⊢
    have passed : ∀ j, i ≤ j → j < i → t.pattern.ends text j = [] :=
      fun j further before => absurd before (Nat.not_lt.mpr further)
    exact isScan_cons_iff.mpr ⟨Nat.le_refl i, Nat.le_trans ahead inside, passed, found, scan⟩

theorem spansFrom_of_outside (outside : text.size < i) : t.spansFrom text i = [] := by
  rw [spansFrom_eq, if_neg (Nat.not_le.mpr outside)]

/-- The scan finds the same from an index on up to which nothing matches. -/
theorem spansFrom_eq_of_passed (further : first ≤ i)
    (passed : ∀ j ≤ text.size, first ≤ j → j < i → t.pattern.ends text j = []) :
    t.spansFrom text first = t.spansFrom text i := by
  induction i, further using Nat.le_induction with
  | base => rfl
  | succ i further ih =>
    rw [ih fun j inside later before => passed j inside later (Nat.lt_succ_of_lt before)]
    by_cases inside : i ≤ text.size
    · have unmatched := passed i inside further (Nat.lt_succ_self i)
      exact spansFrom_of_head?_eq_none inside (List.head?_eq_none_iff.mpr unmatched)
    · rw [spansFrom_of_outside (by omega), spansFrom_of_outside (by omega)]

theorem spansFrom_eq_nil_iff :
    t.spansFrom text first = [] ↔ ∀ i ≤ text.size, first ≤ i → t.pattern.ends text i = [] := by
  constructor
  · intro nothing
    have scan : t.IsScan text first (t.spansFrom text first) := isScan_spansFrom first
    rwa [nothing, isScan_nil_iff] at scan
  · intro unmatched
    have further : first ≤ first + (text.size + 1) := Nat.le_add_right _ _
    rw [spansFrom_eq_of_passed further fun i inside later _ => unmatched i inside later]
    exact spansFrom_of_outside (by omega)

/-- Spans that take every match are those that the scan finds. -/
theorem isScan_iff : t.IsScan text first spans ↔ spans = t.spansFrom text first := by
  constructor
  · intro scan
    induction spans generalizing first with
    | nil => exact (spansFrom_eq_nil_iff.mpr (isScan_nil_iff.mp scan)).symm
    | cons span spans ih =>
      obtain ⟨least, inside, passed, found, rest⟩ := isScan_cons_iff.mp scan
      have ahead : span.start ≤ span.stop ∧ span.stop ≤ text.size := covers_of_head? inside found
      calc span :: spans
          = span :: t.spansFrom text (resumption span.start span.stop) := by rw [← ih rest]
        _ = t.spansFrom text span.start := by
          rw [spansFrom_of_head? inside found, resumption_eq_max ahead.1]
        _ = t.spansFrom text first :=
          (spansFrom_eq_of_passed least fun i _ => passed i).symm
  · rintro rfl
    exact isScan_spansFrom first

theorem spans_eq_nil_iff : t.spans text = [] ↔ ∀ i ≤ text.size, t.pattern.ends text i = [] := by
  have every : (∀ i ≤ text.size, 0 ≤ i → t.pattern.ends text i = []) ↔
      ∀ i ≤ text.size, t.pattern.ends text i = [] := by simp
  exact spansFrom_eq_nil_iff.trans every

/-- Each span starts at an index of its own. -/
theorem count_le : t.count text ≤ text.size + 1 := by
  have scan : t.IsScan text 0 (t.spans text) := isScan_spansFrom 0
  have apart : ((t.spans text).map (·.start)).Nodup := by
    rw [List.Nodup, List.pairwise_map]
    exact scan.increasing.imp Nat.ne_of_lt
  have inside : (t.spans text).map (·.start) ⊆ List.range (text.size + 1) := by
    intro i hi
    obtain ⟨span, member, rfl⟩ := List.mem_map.mp hi
    exact List.mem_range.mpr (Nat.lt_succ_of_le (scan.preferred span member).1)
  simpa [count] using (List.subperm_of_subset apart inside).length_le

/-- The spans of a text are the one list of spans between which a scan from left to right passes
over no match. So there is none only if nothing matches, no span overlaps a later one or stops
behind it, and there are at most as many spans as indices. -/
theorem leftmost_scan_unique (t : Token) (text : Text) :
    (∀ spans, t.IsScan text 0 spans ↔ spans = t.spans text) ∧
      (t.spans text = [] ↔ ∀ i ≤ text.size, t.pattern.ends text i = []) ∧
      (t.spans text).Pairwise (fun a b => a.stop ≤ b.start ∧ a.stop ≤ b.stop) ∧
      t.count text ≤ text.size + 1 := by
  refine ⟨fun spans => isScan_iff, spans_eq_nil_iff, ?_, count_le⟩
  apply pairwise_before_spans.imp_of_mem
  intro a b _ hb before
  have within := within_of_mem_spans b hb
  exact ⟨before.2, Nat.le_trans before.2 within.1⟩

end Token

/-! ### From right to left -/

/-- Where a scan from right to left resumes behind the span: at its start, or one index further
on if the span is empty. Behind the empty span at the start of a text it is over. -/
def Span.resumption? (span : Span) : Option Nat :=
  if span.start < span.stop then some span.start else span.stop.ppred

namespace Token

variable {t : Token} {text : Text} {first : Option Nat} {i j n : Nat} {span : Span}
  {spans : List Span}

/-- The index at which a scan from right to left, from `first` on, resumes behind the spans found
so far, unless it is over. -/
def resumeBackward (first : Option Nat) (earlier : List Span) : Option Nat :=
  earlier.getLast?.elim first Span.resumption?

/-- From the index `first` on, the spans take every match that a scan from right to left comes
to. -/
structure IsBackwardScan (t : Token) (text : Text) (first : Option Nat) (spans : List Span) :
    Prop where
  /-- A span is the preferred match that stops where it does. -/
  preferred : ∀ span ∈ spans, (t.pattern.starts text span.stop).head? = some span.start
  /-- The scan is not over before the next span, and that span does not stop behind the index at
  which the scan resumes. -/
  resumes : ∀ earlier later, spans = earlier ++ later →
    ∀ next ∈ later.head?, ∃ i ∈ resumeBackward first earlier, next.stop ≤ i
  /-- Between the index at which the scan resumes and the stop of the next span no match stops,
  nor down to the start of the text if there is no next span. -/
  passes : ∀ earlier later, spans = earlier ++ later →
    ∀ i ∈ resumeBackward first earlier, ∀ j ≤ i, (∀ next ∈ later.head?, next.stop < j) →
      t.pattern.starts text j = []

theorem resumeBackward_cons (first : Option Nat) (span : Span) (earlier : List Span) :
    resumeBackward first (span :: earlier) = resumeBackward span.resumption? earlier := by
  cases earlier <;> simp [resumeBackward, List.getLast?_cons]

theorem resumption?_eq_ppred (ahead : j ≤ i) :
    (⟨j, i⟩ : Span).resumption? = (min (j + 1) i).ppred := by
  rcases Nat.eq_or_lt_of_le ahead with rfl | less
  · rw [Span.resumption?, if_neg (Nat.lt_irrefl _), Nat.min_eq_right (Nat.le_succ _)]
  · rw [Span.resumption?, if_pos less, Nat.min_eq_left less, Nat.ppred_succ]

theorem isBackwardScan_nil_iff :
    t.IsBackwardScan text first [] ↔ ∀ i ∈ first, ∀ j ≤ i, t.pattern.starts text j = [] := by
  constructor
  · intro scan i hi j le
    exact forall_cut_nil_iff.mp scan.passes i hi j le nofun
  · intro unmatched
    exact ⟨nofun, forall_cut_nil_iff.mpr nofun,
      forall_cut_nil_iff.mpr fun i hi j le _ => unmatched i hi j le⟩

theorem isBackwardScan_cons_iff :
    t.IsBackwardScan text first (span :: spans) ↔
      (∃ i ∈ first, span.stop ≤ i) ∧
        (∀ i ∈ first, ∀ j ≤ i, span.stop < j → t.pattern.starts text j = []) ∧
        (t.pattern.starts text span.stop).head? = some span.start ∧
        t.IsBackwardScan text span.resumption? spans := by
  have next : ∀ {P : Span → Prop}, (∀ b ∈ (span :: spans).head?, P b) ↔ P span := by simp
  constructor
  · intro scan
    obtain ⟨found, preferred⟩ := List.forall_mem_cons.mp scan.preferred
    obtain ⟨ahead, resumes⟩ := forall_cut_cons_iff.mp scan.resumes
    obtain ⟨passed, passes⟩ := forall_cut_cons_iff.mp scan.passes
    simp only [resumeBackward_cons] at resumes passes
    refine ⟨next.mp ahead, ?_, found, preferred, resumes, passes⟩
    intro i hi j le behind
    exact passed i hi j le (next.mpr behind)
  · rintro ⟨ahead, passed, found, scan⟩
    refine ⟨List.forall_mem_cons.mpr ⟨found, scan.preferred⟩,
      forall_cut_cons_iff.mpr ⟨next.mpr ahead, ?_⟩, forall_cut_cons_iff.mpr ⟨?_, ?_⟩⟩
    · simpa only [resumeBackward_cons] using scan.resumes
    · intro i hi j le behind
      exact passed i hi j le (next.mp behind)
    · simpa only [resumeBackward_cons] using scan.passes

/-- A scan may as well begin one index further on if no match stops there. -/
theorem IsBackwardScan.to_succ (scan : t.IsBackwardScan text n.ppred spans)
    (unmatched : t.pattern.starts text n = []) : t.IsBackwardScan text (some n) spans := by
  have either : ∀ j ≤ n, j = n ∨ ∃ i ∈ n.ppred, j ≤ i := by
    intro j le
    cases n with
    | zero => exact .inl (Nat.le_zero.mp le)
    | succ n =>
      rcases Nat.eq_or_lt_of_le le with same | less
      · exact .inl same
      · exact .inr ⟨n, rfl, Nat.le_of_lt_succ less⟩
  cases spans with
  | nil =>
    rw [isBackwardScan_nil_iff] at scan ⊢
    intro i hi j le
    cases hi
    rcases either j le with rfl | ⟨i, hi, le⟩
    · exact unmatched
    · exact scan i hi j le
  | cons span spans =>
    obtain ⟨⟨i, hi, le⟩, passed, found, rest⟩ := isBackwardScan_cons_iff.mp scan
    have earlier : i + 1 = n := Nat.ppred_eq_some.mp hi
    refine isBackwardScan_cons_iff.mpr ⟨⟨n, rfl, by omega⟩, ?_, found, rest⟩
    intro i hi j le behind
    cases hi
    rcases either j le with rfl | ⟨i, hi, le⟩
    · exact unmatched
    · exact passed i hi j le behind

theorem isBackwardScan_spansBelow (inside : n ≤ text.size + 1) :
    t.IsBackwardScan text n.ppred (t.spansBelow text n) := by
  refine spansBelow_induction (P := fun n spans => t.IsBackwardScan text n.ppred spans)
    ?_ ?_ ?_ n inside
  · exact isBackwardScan_nil_iff.mpr nofun
  · intro i _ unmatched scan
    exact scan.to_succ unmatched
  · intro i j ahead _ found scan
    rw [← resumption?_eq_ppred ahead] at scan
    refine isBackwardScan_cons_iff.mpr ⟨⟨i, rfl, Nat.le_refl i⟩, ?_, found, scan⟩
    intro l hl k le behind
    cases hl
    exact absurd le (Nat.not_le.mpr behind)

/-- The backward scan finds the same from an index on down to which no match stops. -/
theorem spansBelow_eq_of_passed (behind : n ≤ i)
    (passed : ∀ j < i, n ≤ j → t.pattern.starts text j = []) :
    t.spansBelow text i = t.spansBelow text n := by
  induction i, behind using Nat.le_induction with
  | base => rfl
  | succ i behind ih =>
    have unmatched := passed i (Nat.lt_succ_self i) behind
    rw [spansBelow_of_head?_eq_none (List.head?_eq_none_iff.mpr unmatched)]
    exact ih fun j before => passed j (Nat.lt_succ_of_lt before)

theorem isBackwardScan_iff (inside : n ≤ text.size + 1) :
    t.IsBackwardScan text n.ppred spans ↔ spans = t.spansBelow text n := by
  constructor
  · intro scan
    induction spans generalizing n with
    | nil =>
      have passed : ∀ j < n, 0 ≤ j → t.pattern.starts text j = [] := by
        intro j before _
        obtain ⟨i, rfl⟩ : ∃ i, n = i + 1 := ⟨n - 1, by omega⟩
        exact isBackwardScan_nil_iff.mp scan i rfl j (Nat.le_of_lt_succ before)
      exact (spansBelow_eq_of_passed (Nat.zero_le n) passed).symm
    | cons span spans ih =>
      obtain ⟨⟨i, hi, le⟩, passed, found, rest⟩ := isBackwardScan_cons_iff.mp scan
      obtain rfl : i + 1 = n := Nat.ppred_eq_some.mp hi
      have ahead : span.start ≤ span.stop := covers_of_head? (by omega) found
      have resume : span.resumption? = (min (span.start + 1) span.stop).ppred :=
        resumption?_eq_ppred ahead
      rw [resume] at rest
      calc span :: spans
          = span :: t.spansBelow text (min (span.start + 1) span.stop) := by
            rw [← ih (by omega) rest]
        _ = t.spansBelow text (span.stop + 1) := (spansBelow_of_head? found ahead).symm
        _ = t.spansBelow text (i + 1) := by
          refine (spansBelow_eq_of_passed (Nat.succ_le_succ le) ?_).symm
          intro j before behind
          exact passed i rfl j (Nat.le_of_lt_succ before) behind
  · rintro rfl
    exact isBackwardScan_spansBelow inside

/-! ### Against matching forward -/

/-- The first span found from right to left stops where the last of all matches does. -/
theorem stop_le_of_head?_spansBackward (head : (t.spansBackward text).head? = some span)
    (inside : i ≤ text.size) (matched : t.pattern.Matches text i j) : j ≤ span.stop := by
  obtain ⟨found, member, -, reaches⟩ :=
    exists_span_of_closing (matched.le_size inside) ⟨i, matched⟩
  obtain ⟨others, whole⟩ : ∃ others, t.spansBackward text = span :: others :=
    List.head?_eq_some_iff.mp head
  have ordered : (t.spansBackward text).Pairwise Span.Behind := pairwise_behind_spansBackward
  rw [whole] at member ordered
  rcases List.mem_cons.mp member with rfl | member
  · exact reaches
  · have := (List.rel_of_pairwise_cons ordered member).1
    omega

/-- From right to left a scan finds nothing exactly if one from left to right does not. -/
theorem spansBackward_eq_nil_iff : t.spansBackward text = [] ↔ t.spans text = [] := by
  constructor
  · intro nothing
    apply spans_eq_nil_iff.mpr
    intro i inside
    apply Pattern.ends_eq_nil_iff.mpr
    intro j matched
    obtain ⟨span, member, -⟩ :=
      exists_span_of_closing (matched.le_size inside) ⟨i, matched⟩
    exact List.not_mem_nil (nothing ▸ member)
  · intro nothing
    apply List.eq_nil_iff_forall_not_mem.mpr
    intro span member
    have within := within_of_mem_spansBackward span member
    have matched := matches_of_mem_spansBackward member
    have unmatched := spans_eq_nil_iff.mp nothing span.start (Nat.le_trans within.1 within.2)
    exact Pattern.ends_eq_nil_iff.mp unmatched span.stop matched

/-! ### Round after round -/

/-- One round of a scan from right to left. The state is the index at which the scan resumes,
unless it is over, with the spans found so far, newest first. -/
def round? (t : Token) (text : Text) :
    Option Nat × List Span → Option (Option Nat × List Span)
  | (none, _) => none
  | (some i, found) =>
    match (t.pattern.starts text i).head? with
    | none => some (i.ppred, found)
    | some start => some ((⟨start, i⟩ : Span).resumption?, ⟨start, i⟩ :: found)

/-- Round after round the scan comes to its end, with the spans that it adds. -/
theorem reflTransGen_round (i : Nat) (found : List Span) :
    ReflTransGen (fun s s' => t.round? text s = some s') (some i, found)
      (none, t.scanBackward text i found) := by
  have pred : ∀ {i : Nat}, ¬i = 0 → i.ppred = some (i - 1) := by
    intro i pos
    exact Nat.ppred_eq_pred (Nat.pos_of_ne_zero pos)
  fun_induction scanBackward t text i found with
  | case1 found unmatched => exact .single (by simp [round?, unmatched])
  | case2 i found unmatched pos ih => exact .head (by simp [round?, unmatched, pred pos]) ih
  | case3 i found start matched less ih =>
    exact .head (by simp [round?, matched, Span.resumption?, less]) ih
  | case4 found start matched less =>
    exact .single (by simp [round?, matched, Span.resumption?])
  | case5 i found start matched less pos ih =>
    exact .head (by simp [round?, matched, Span.resumption?, less, pred pos]) ih

/-- Round after round the scan from right to left comes to its end, with the one list of spans
between which it passes over no match. Its spans are matches forward as well, the first of them
stops where the last of all matches does, and there is none only if there is none from left to
right. -/
theorem rightmost_scan_unique (t : Token) (text : Text) :
    ReflTransGen (fun s s' => t.round? text s = some s') (some text.size, [])
        (none, (t.spansBackward text).reverse) ∧
      (∀ spans, t.IsBackwardScan text (some text.size) spans ↔ spans = t.spansBackward text) ∧
      (∀ span ∈ t.spansBackward text, span.stop ∈ t.pattern.ends text span.start) ∧
      (∀ span ∈ (t.spansBackward text).head?, ∀ i ≤ text.size,
        ∀ j ∈ t.pattern.ends text i, j ≤ span.stop) ∧
      (t.spansBackward text = [] ↔ t.spans text = []) := by
  refine ⟨?_, ?_, ?_, ?_, spansBackward_eq_nil_iff⟩
  · rw [spansBackward, spansUpTo, List.reverse_reverse]
    exact reflTransGen_round text.size []
  · intro spans
    exact isBackwardScan_iff (n := text.size + 1) (Nat.le_refl _)
  · intro span member
    exact Pattern.mem_ends.mpr (matches_of_mem_spansBackward member)
  · intro span head i inside j reached
    exact stop_le_of_head?_spansBackward head inside (Pattern.mem_ends.mp reached)

/-- A match that reaches back to the start of the text leaves the empty one there to be found. -/
example :
    (⟨"a?", .seq [.quantified .zeroOrOne (.single (.literal 'a'))]⟩ : Token).spansBackward
      (.ofString "a") = [⟨0, 1⟩, ⟨0, 0⟩] := by
  decide +kernel

end Token

end StringTransform
