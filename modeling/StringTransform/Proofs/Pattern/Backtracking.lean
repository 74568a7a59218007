import StringTransform.Proofs.Pattern.Meaning

/-!
# Matching is backtracking without repetition

A plain backtracking matcher is given by equations, one for each kind of pattern. They
say in which order it tries the ways to match, and nothing about how it avoids trying
twice what cannot succeed. Matching gives the first occurrences of what plain
backtracking enumerates, in the same order, although it forgets repeated indices at
every stage of a sequence and shares what it has found between the iterations of a
repetition.

## Main definitions

* `Backtracks` — the equations of plain backtracking

## Main results

* `Pattern.backtracks_enumerate` — the enumeration satisfies the equations
* `Pattern.reach_eq_eraseDups` — matching gives the first occurrences of the enumeration
* `Pattern.runsTo_reach` — repetitions end, whatever their bodies match
* `Pattern.matching_is_backtracking` — all of this together
-/

namespace StringTransform

/-- The equations of plain backtracking: a function `E` lists where the ways to match a
pattern from an index lead, in the order in which they are tried. -/
structure Backtracks (text : Text) (E : Direction → Pattern → Nat → List Nat) : Prop where
  seq_nil : ∀ d i, E d (.seq []) i = [i]
  /-- Forward, a sequence binds its members from the first one on. -/
  seq_forward : ∀ p ps i,
    E .forward (.seq (p :: ps)) i = (E .forward p i).flatMap (E .forward (.seq ps))
  /-- Backward, a sequence binds its members from the last one on. -/
  seq_backward : ∀ p ps i,
    E .backward (.seq (p :: ps)) i = (E .backward (.seq ps) i).flatMap (E .backward p)
  alt : ∀ d ps i, E d (.alt ps) i = ps.flatMap (E d · i)
  zeroOrOne : ∀ d p i, E d (.quantified .zeroOrOne p) i = E d p i ++ [i]
  /-- A repetition goes on from every other index that its body leads to, and then stops. -/
  zeroOrMore : ∀ d p i, E d (.quantified .zeroOrMore p) i =
    ((E d p i).filter (· ≠ i)).flatMap (E d (.quantified .zeroOrMore p)) ++ [i]
  oneOrMore : ∀ d p i, E d (.quantified .oneOrMore p) i =
    (E d p i).flatMap (E d (.quantified .zeroOrMore p))
  group : ∀ d p i, E d (.group p) i = E d p i
  /-- A lookahead looks forward in either direction. -/
  look : ∀ d negated p i, E d (.look negated p) i =
    if (E .forward p i).isEmpty = negated then [i] else []
  anchor : ∀ d a i, E d (.anchor a) i = if a.holds text i then [i] else []
  single_forward : ∀ t i,
    E .forward (.single t) i = if (text.get? i).any t.holds then [i + 1] else []
  single_backward : ∀ t i,
    E .backward (.single t) i = if 0 < i ∧ (text.get? (i - 1)).any t.holds then [i - 1] else []

namespace Pattern

variable {text : Text} {d : Direction}

theorem enumerate_quantified (q : Quantifier) (p : Pattern) (i : Nat) :
    enumerate text d (.quantified q p) i = q.ways (d.room text) (enumerate text d p) i := by
  cases q <;> rfl

theorem enumerateAlt_eq_flatMap (ps : List Pattern) (i : Nat) :
    enumerateAlt text d ps i = ps.flatMap (enumerate text d · i) := by
  induction ps with
  | nil => rfl
  | cons p ps ih => rw [enumerateAlt, ih, List.flatMap_cons]

/-- Matching the members of two lists one behind the other binds the two enumerations. -/
theorem enumerateSeq_append (ps qs : List Pattern) (i : Nat) :
    enumerateSeq text .forward (ps ++ qs) i =
      (enumerateSeq text .forward ps i).flatMap (enumerateSeq text .forward qs) := by
  induction ps generalizing i with
  | nil => simp [enumerateSeq]
  | cons p ps ih =>
    have others : enumerateSeq text .forward (ps ++ qs) =
        fun j => (enumerateSeq text .forward ps j).flatMap (enumerateSeq text .forward qs) :=
      funext ih
    simp only [List.cons_append, enumerateSeq, others, List.flatMap_assoc]

/-- Backward, the members of the second list come first. -/
theorem enumerateSeq_append_backward (ps qs : List Pattern) (i : Nat) :
    enumerateSeq text .backward (ps ++ qs) i =
      (enumerateSeq text .backward qs i).flatMap (enumerateSeq text .backward ps) := by
  induction ps with
  | nil => simp [enumerateSeq]
  | cons p ps ih =>
    have members : enumerateSeq text .backward (p :: ps) =
        fun j => (enumerateSeq text .backward ps j).flatMap (enumerate text .backward p) := rfl
    rw [members, ← List.flatMap_assoc, ← ih]
    rfl

/-! ### First occurrences -/

/-- No index is reached twice. -/
theorem nodup_reach (p : Pattern) (i : Nat) : (p.reach text d i).Nodup := by
  -- An empty sequence hands on its list as it is, so that list must have no repetitions.
  induction p using induct
    (L := fun ps => ∀ is : List Nat, is.Nodup → (reachSeq text d ps is).Nodup)
    generalizing i with
  | seq ps ih => exact ih [i] (by simp)
  | alt ps _ => exact nodup_distinct _
  | quantified q p _ =>
    rw [reach, Quantifier.reach_eq_eraseDups]
    exact nodup_eraseDups
  | group p ih => exact ih i
  | look negated p _ => rw [reach]; split <;> simp
  | anchor a => rw [reach]; split <;> simp
  | single t =>
    rw [reach]
    split
    · exact List.nodup_nil
    · split <;> simp
  | nil is h => exact h
  | cons p ps _ ihs is h =>
    cases d with
    | forward => exact ihs _ (nodup_distinct _)
    | backward => exact nodup_distinct _

/-- Matching gives the first occurrences of what plain backtracking enumerates. -/
theorem reach_eq_eraseDups (p : Pattern) (i : Nat) :
    p.reach text d i = (p.enumerate text d i).eraseDups := by
  -- For lists of members the equality only holds up to repetitions, since the indices they
  -- start from may be repeated themselves.
  induction p using induct
    (L := fun ps => (∀ d (is : List Nat), (reachSeq text d ps is).eraseDups =
        (is.flatMap (enumerateSeq text d ps)).eraseDups) ∧
      ∀ d i, (reachAlt text d ps i).eraseDups = (enumerateAlt text d ps i).eraseDups)
    generalizing d i with
  | seq ps ih =>
    calc reach text d (.seq ps) i
        = (reachSeq text d ps [i]).eraseDups := (eraseDups_eq_self (nodup_reach (.seq ps) i)).symm
      _ = (enumerate text d (.seq ps) i).eraseDups := by rw [ih.1 d [i]]; simp [enumerate]
  | alt ps ih => rw [reach, distinct_eq_eraseDups, ih.2, enumerate]
  | quantified q p ih =>
    rw [reach, Quantifier.reach_eq_eraseDups, enumerate_quantified]
    exact q.eraseDups_ways_congr (fun j => by rw [ih, eraseDups_eraseDups]) i
  | group p ih => rw [reach, ih, enumerate]
  | look negated p ih =>
    have empty : (p.reach text .forward i).isEmpty = (p.enumerate text .forward i).isEmpty := by
      rw [Bool.eq_iff_iff, List.isEmpty_iff, List.isEmpty_iff, ih,
        List.eq_nil_iff_forall_not_mem, List.eq_nil_iff_forall_not_mem]
      simp only [List.mem_eraseDups]
    rw [enumerate, ← empty, reach]
    split <;> rfl
  | anchor a => rw [reach, enumerate]; split <;> rfl
  | single t => exact (eraseDups_eq_self (nodup_reach (.single t) i)).symm
  | nil => exact ⟨fun d is => by simp [reachSeq, enumerateSeq], fun _ _ => rfl⟩
  | cons p ps ih ihs =>
    have body : ∀ d i, (p.reach text d i).eraseDups = (p.enumerate text d i).eraseDups :=
      fun d i => by rw [ih, eraseDups_eraseDups]
    constructor
    · intro d is
      cases d with
      | forward =>
        -- The repetitions dropped in front of the other members would lead to nothing new.
        rw [reachSeq, ihs.1, distinct_eq_eraseDups]
        calc ((is.flatMap (reach text .forward p)).eraseDups.flatMap
              (enumerateSeq text .forward ps)).eraseDups
            = ((is.flatMap (enumerate text .forward p)).flatMap
              (enumerateSeq text .forward ps)).eraseDups := by
              refine eraseDups_flatMap_congr ?_ fun _ _ => rfl
              rw [eraseDups_eraseDups]
              exact eraseDups_flatMap_congr rfl fun i _ => body .forward i
          _ = _ := by rw [List.flatMap_assoc]; rfl
      | backward =>
        -- Here it is the other members that have dropped repetitions in front of the first.
        rw [reachSeq, distinct_eq_eraseDups, eraseDups_eraseDups]
        calc ((reachSeq text .backward ps is).flatMap (reach text .backward p)).eraseDups
            = ((is.flatMap (enumerateSeq text .backward ps)).flatMap
              (enumerate text .backward p)).eraseDups :=
              eraseDups_flatMap_congr (ihs.1 .backward is) fun i _ => body .backward i
          _ = _ := by rw [List.flatMap_assoc]; rfl
    · intro d i
      rw [reachAlt, enumerateAlt]
      exact eraseDups_append_congr (body d i) (ihs.2 d i)

/-! ### The equations of plain backtracking -/

/-- A step of the plain enumeration that moves at all leaves less room. -/
theorem room_lt_of_mem_enumerate {p : Pattern} {i j : Nat} (h : j ∈ p.enumerate text d i)
    (moves : j ≠ i) : d.room text j < d.room text i := by
  have reached : j ∈ p.reach text d i := by rwa [reach_eq_eraseDups, List.mem_eraseDups]
  exact Direction.room_lt_of_onward (fun _ _ => Matches.onward) (mem_reach.mp reached) moves

theorem enumerate_zeroOrMore (p : Pattern) (i : Nat) :
    enumerate text d (.quantified .zeroOrMore p) i =
      ((p.enumerate text d i).filter (· ≠ i)).flatMap
        (enumerate text d (.quantified .zeroOrMore p)) ++ [i] := by
  -- Stepping to another index and leaving less room are the same thing for a body.
  have same : (p.enumerate text d i).filter (d.room text · < d.room text i) =
      (p.enumerate text d i).filter (· ≠ i) := by
    refine List.filter_congr fun j hj => decide_eq_decide.mpr ⟨?_, room_lt_of_mem_enumerate hj⟩
    rintro less rfl
    exact Nat.lt_irrefl _ less
  calc enumerate text d (.quantified .zeroOrMore p) i
      = again (d.room text) (p.enumerate text d) i := rfl
    _ = _ := by rw [again_eq, same]; rfl

/-- The enumeration satisfies the equations of plain backtracking. -/
theorem backtracks_enumerate (text : Text) : Backtracks text (fun d => enumerate text d) where
  seq_nil _ _ := rfl
  seq_forward _ _ _ := rfl
  seq_backward _ _ _ := rfl
  alt _ ps i := enumerateAlt_eq_flatMap ps i
  zeroOrOne _ _ _ := rfl
  zeroOrMore _ p i := enumerate_zeroOrMore p i
  oneOrMore _ _ _ := rfl
  group _ _ _ := rfl
  look _ negated p i := by simp [enumerate]
  anchor _ _ _ := rfl
  single_forward t i := by cases h : text.get? i <;> simp [enumerate, Direction.next?, h]
  single_backward t i := by
    cases i with
    | zero => rfl
    | succ i => cases h : text.get? i <;> simp [enumerate, Direction.next?, h]

/-! ### The loop of a repetition -/

/-- The search that a repetition makes from an index comes to its end also if it refuses
nothing but steps from an index to itself and to indices found before. -/
theorem runsTo_reach (p : Pattern) (i : Nat) (found : Positions) :
    RunsTo (p.reach text d) ([⟨i, p.reach text d i⟩], found)
      (explore (d.room text) (p.reach text d) [⟨i, p.reach text d i⟩] found) := by
  have advances : ∀ i, True → Advances (d.room text) (fun _ => True) i (p.reach text d i) := by
    intro i _ j hj
    have less : j ≠ i → d.room text j < d.room text i :=
      Direction.room_lt_of_onward (fun _ _ => Matches.onward) (mem_reach.mp hj)
    exact ⟨trivial, less⟩
  apply runsTo_explore advances
  exact List.forall_mem_singleton.mpr (advances i trivial)

/-- Matching in either direction gives the first occurrences, in their order, of what plain
backtracking enumerates, so no index is reached twice; and the search of every repetition
comes to its end, also over a body that matches the empty stretch. -/
theorem matching_is_backtracking (text : Text) :
    Backtracks text (fun d => enumerate text d) ∧
      (∀ (p : Pattern) i, p.ends text i = (p.enumerate text .forward i).eraseDups ∧
        p.starts text i = (p.enumerate text .backward i).eraseDups) ∧
      (∀ (p : Pattern) i, (p.ends text i).Nodup ∧ (p.starts text i).Nodup) ∧
      ∀ (d : Direction) (p : Pattern) i found,
        RunsTo (p.reach text d) ([⟨i, p.reach text d i⟩], found)
          (explore (d.room text) (p.reach text d) [⟨i, p.reach text d i⟩] found) :=
  ⟨backtracks_enumerate text,
    fun p i => ⟨reach_eq_eraseDups p i, reach_eq_eraseDups p i⟩,
    fun p i => ⟨nodup_reach p i, nodup_reach p i⟩,
    fun _ => runsTo_reach⟩

end Pattern

end StringTransform
