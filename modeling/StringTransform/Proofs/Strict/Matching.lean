import StringTransform.Proofs.Pattern.Meaning

/-!
# Strict matching

Matching is total: a character outside a text is no character, and a difference of numbers
is never negative. Strict matching is the same procedure with nothing to fall back on. It
has no result if it reads a character that is not there, subtracts a number from a smaller
one, is called at an index outside the text, reaches an index that does not lie in its
direction, or repeats a step that leads back. Strict matching has a result from every index
of a text, the one of matching, so matching never relies on its fallbacks.

## Main definitions

* `sub?` — the difference of two numbers, unless it is negative
* `Direction.Covers` — which indices a match may reach
* `search?` — the search of a repetition, whose steps must not lead back
* `Anchor.holds?`, `Quantifier.reach?`, `Pattern.reach?` — strict matching

## Main results

* `Pattern.covers_of_mem_reach` — matching stays between its index and the end of the text
* `Pattern.reach?_eq` — strict matching succeeds inside a text
-/

namespace StringTransform

/-- The difference of two numbers, unless it is negative. -/
def sub? (m n : Nat) : Option Nat :=
  if n ≤ m then some (m - n) else none

theorem sub?_eq {m n : Nat} (h : n ≤ m) : sub? m n = some (m - n) := if_pos h

/-- A list of calls succeeds if each of them does. -/
theorem mapM_eq_some {α β : Type} {f : α → Option β} {g : α → β} {xs : List α}
    (h : ∀ x ∈ xs, f x = some (g x)) : xs.mapM f = some (xs.map g) := by
  induction xs with
  | nil => rfl
  | cons x xs ih =>
    obtain ⟨hx, hxs⟩ := List.forall_mem_cons.mp h
    rw [List.mapM_cons, hx, ih hxs]
    rfl

namespace Text

variable {text : Text} {i : Nat}

theorem exists_get?_of_lt (h : i < text.size) : ∃ c, text.get? i = some c := by
  cases hc : text.get? i with
  | none => exact absurd (get?_eq_none_iff.mp hc) (Nat.not_le.mpr h)
  | some c => exact ⟨c, rfl⟩

/-- Whether a word character stands before an index, which is read unless the text starts
there. -/
def wordBefore? (text : Text) (i : Nat) : Option Bool :=
  if 0 < i then do
    let j ← sub? i 1
    let c ← text.get? j
    some (isWordChar c)
  else some false

/-- Whether a word character stands at an index, which is read unless the text ends there. -/
def wordAt? (text : Text) (i : Nat) : Option Bool :=
  if i < text.size then (text.get? i).map isWordChar else some false

theorem wordBefore?_eq (h : i ≤ text.size) : text.wordBefore? i = some (text.wordBefore i) := by
  cases i with
  | zero => rfl
  | succ i =>
    obtain ⟨c, hc⟩ := exists_get?_of_lt h
    simp [wordBefore?, wordBefore, sub?, hc]

theorem wordAt?_eq (text : Text) (i : Nat) : text.wordAt? i = some (text.wordAt i) := by
  by_cases h : i < text.size
  · obtain ⟨c, hc⟩ := exists_get?_of_lt h
    simp [wordAt?, wordAt, h, hc]
  · simp [wordAt?, wordAt, h, get?_eq_none_iff.mpr (Nat.le_of_not_lt h)]

end Text

/-- Whether an assertion holds at an index, reading only the characters it needs. -/
def Anchor.holds? (text : Text) (i : Nat) : Anchor → Option Bool
  | .textStart => some (i == 0)
  | .textEnd =>
    if i = text.size then some true
    else if i + 1 = text.size then (text.get? i).map (· == '\n')
    else some false
  | .absoluteEnd => some (i == text.size)
  | .wordBoundary negated => do
    let before ← text.wordBefore? i
    let after ← text.wordAt? i
    some ((before != after) != negated)

theorem Anchor.holds?_eq {text : Text} {i : Nat} (a : Anchor) (h : i ≤ text.size) :
    a.holds? text i = some (a.holds text i) := by
  cases a with
  | textStart => rfl
  | textEnd =>
    by_cases last : i + 1 = text.size
    · have inside : i < text.size := by omega
      obtain ⟨c, hc⟩ := Text.exists_get?_of_lt inside
      have : i ≠ text.size := by omega
      simp [holds?, holds, last, this, hc]
    · by_cases atEnd : i = text.size <;> simp [holds?, holds, last, atEnd]
  | absoluteEnd => rfl
  | wordBoundary negated =>
    rw [holds?, Text.wordBefore?_eq h, Text.wordAt?_eq]
    rfl

namespace Direction

variable {text : Text} {d : Direction} {i j : Nat}

/-- The indices that a match may reach from `i`: those up to the end of the text that lies
ahead. -/
def Covers (text : Text) (d : Direction) (i j : Nat) : Prop :=
  match d with
  | .forward => i ≤ j ∧ j ≤ text.size
  | .backward => j ≤ i

instance : Decidable (d.Covers text i j) :=
  match d with
  | .forward => inferInstanceAs (Decidable (i ≤ j ∧ j ≤ text.size))
  | .backward => inferInstanceAs (Decidable (j ≤ i))

theorem Covers.le_size (h : d.Covers text i j) (hi : i ≤ text.size) : j ≤ text.size := by
  cases d with
  | forward => exact h.2
  | backward => exact Nat.le_trans h hi

/-- The character ahead of an index and the index behind it. Nothing is read at the end of
the text that lies ahead. -/
def read? (text : Text) (d : Direction) (i : Nat) : Option (Option (Char × Nat)) :=
  match d with
  | .forward => if i < text.size then (text.get? i).map fun c => some (c, i + 1) else some none
  | .backward =>
    if 0 < i then do
      let j ← sub? i 1
      let c ← text.get? j
      some (some (c, j))
    else some none

theorem read?_eq (d : Direction) (h : i ≤ text.size) : d.read? text i = some (d.next? text i) := by
  cases d with
  | forward =>
    by_cases inside : i < text.size
    · obtain ⟨c, hc⟩ := Text.exists_get?_of_lt inside
      simp [read?, next?, inside, hc]
    · simp [read?, next?, inside, Text.get?_eq_none_iff.mpr (Nat.le_of_not_lt inside)]
  | backward =>
    cases i with
    | zero => rfl
    | succ i =>
      obtain ⟨c, hc⟩ := Text.exists_get?_of_lt h
      simp [read?, next?, sub?, hc]

end Direction

/-- Works off a stack of visits as the search of a repetition does. There is no result if a
step has none, or if a step to be followed leads back. -/
def search? (room : Nat → Nat) (step : Nat → Option (List Nat)) (stack : List Visit)
    (found : Positions) : Option Positions :=
  match stack with
  | [] => some found
  | ⟨i, []⟩ :: rest => search? room step rest (found.insert i)
  | ⟨i, j :: js⟩ :: rest =>
    if j = i ∨ j ∈ found then search? room step (⟨i, js⟩ :: rest) found
    else if _onward : room j < room i then do
      let ks ← step j
      search? room step (⟨j, ks⟩ :: ⟨i, js⟩ :: rest) found
    else none
termination_by (Turn.wellFounded room).wrap stack
decreasing_by
  · exact .leave
  · exact .drop
  · exact .enter _onward

/-- The search from one index on top of what has been found before. -/
def searchFrom? (room : Nat → Nat) (step : Nat → Option (List Nat)) (i : Nat)
    (found : Positions) : Option Positions :=
  if i ∈ found then some found
  else do
    let js ← step i
    search? room step [⟨i, js⟩] found

section

variable {room : Nat → Nat} {step : Nat → List Nat} {step? : Nat → Option (List Nat)}
  {admissible : Nat → Prop}

/-- If the steps from admissible indices have results and advance to admissible indices,
then the search succeeds. -/
theorem search?_eq (steps : ∀ i, admissible i → step? i = some (step i))
    (advances : ∀ i, admissible i → Advances room admissible i (step i))
    {stack : List Visit} (ahead : Ahead room admissible stack) (found : Positions) :
    search? room step? stack found = some (explore room step stack found) := by
  fun_induction explore room step stack found with
  | case1 found => rw [search?]
  | case2 found i rest ih =>
    rw [search?]
    exact ih ahead.leave
  | case3 found i j js rest followed ih =>
    obtain ⟨next, below⟩ := ahead.drop
    have enters : ¬(j = i ∨ j ∈ found) := (followed_iff next.2).mp followed
    rw [search?, if_neg enters, dif_pos followed.1, steps j next.1, Option.bind_eq_bind,
      Option.bind_some]
    exact ih (.enter (advances j next.1) below)
  | case4 found i j js rest refused ih =>
    obtain ⟨next, below⟩ := ahead.drop
    have stays : j = i ∨ j ∈ found := not_not.mp (mt (followed_iff next.2).mpr refused)
    rw [search?, if_pos stays]
    exact ih below

theorem searchFrom?_eq (steps : ∀ i, admissible i → step? i = some (step i))
    (advances : ∀ i, admissible i → Advances room admissible i (step i)) {i : Nat}
    (hi : admissible i) (found : Positions) :
    searchFrom? room step? i found = some (closure room step i found) := by
  rw [searchFrom?, closure]
  split
  next => rfl
  next =>
    rw [steps i hi, Option.bind_eq_bind, Option.bind_some]
    exact search?_eq steps advances (List.forall_mem_singleton.mpr (advances i hi)) found

end

/-- The indices that a quantified body reaches, if its steps have results. -/
def Quantifier.reach? (q : Quantifier) (room : Nat → Nat) (step : Nat → Option (List Nat))
    (i : Nat) : Option (List Nat) :=
  match q with
  | .zeroOrOne => do
    let js ← step i
    some ((∅ : Positions).insertAll js |>.insert i).toList
  | .zeroOrMore => do
    let found ← searchFrom? room step i ∅
    some found.toList
  | .oneOrMore => do
    let js ← step i
    let found ← js.foldlM (fun found j => searchFrom? room step j found) ∅
    some found.toList

theorem Quantifier.reach?_eq {room : Nat → Nat} {step : Nat → List Nat}
    {step? : Nat → Option (List Nat)} {admissible : Nat → Prop} (q : Quantifier)
    (steps : ∀ i, admissible i → step? i = some (step i))
    (advances : ∀ i, admissible i → Advances room admissible i (step i))
    {i : Nat} (hi : admissible i) : q.reach? room step? i = some (q.reach room step i) := by
  cases q with
  | zeroOrOne => rw [reach?, steps i hi]; rfl
  | zeroOrMore => rw [reach?, searchFrom?_eq steps advances hi]; rfl
  | oneOrMore =>
    -- What has been found is passed on from one search to the next, whatever it is.
    have run : ∀ (js : List Nat) (found : Positions), (∀ j ∈ js, admissible j) →
        js.foldlM (fun found j => searchFrom? room step? j found) found =
          some (js.foldl (fun found j => closure room step j found) found) := by
      intro js found hjs
      induction js generalizing found with
      | nil => rfl
      | cons j js ih =>
        obtain ⟨hj, hjs⟩ := List.forall_mem_cons.mp hjs
        rw [List.foldlM_cons, searchFrom?_eq steps advances hj]
        exact ih _ hjs
    rw [reach?, steps i hi, Option.bind_eq_bind, Option.bind_some,
      run _ _ fun j hj => (advances i hi j hj).1]
    rfl

namespace Pattern

/-- A call at `i`, which has to lie inside the text, whose results have to lie ahead. -/
def call? (text : Text) (d : Direction) (i : Nat) (result : Option (List Nat)) :
    Option (List Nat) :=
  if i ≤ text.size then do
    let js ← result
    if ∀ j ∈ js, d.Covers text i j then some js else none
  else none

mutual

/-- The indices that a match from `i` on reaches, by strict matching. -/
def reach? (text : Text) (d : Direction) : Pattern → Nat → Option (List Nat)
  | .seq ps, i => call? text d i (reachSeq? text d ps [i])
  | .alt ps, i => call? text d i ((reachAlt? text d ps i).map distinct)
  | .quantified q p, i => call? text d i (q.reach? (d.room text) (reach? text d p) i)
  | .group p, i => call? text d i (reach? text d p i)
  | .look negated p, i =>
    call? text d i ((reach? text .forward p i).map fun js =>
      if js.isEmpty == negated then [i] else [])
  | .anchor a, i => call? text d i ((a.holds? text i).map fun holds => if holds then [i] else [])
  | .single t, i =>
    call? text d i ((d.read? text i).map fun ahead =>
      match ahead with
      | none => []
      | some (c, j) => if t.holds c then [j] else [])

/-- The indices that matches of all members reach from any of the indices `is`, by strict
matching. -/
def reachSeq? (text : Text) (d : Direction) : List Pattern → List Nat → Option (List Nat)
  | [], is => some is
  | p :: ps, is =>
    match d with
    | .forward => do
      let js ← is.mapM (reach? text d p)
      reachSeq? text d ps (distinct js.flatten)
    | .backward => do
      let js ← reachSeq? text d ps is
      let ks ← js.mapM (reach? text d p)
      some (distinct ks.flatten)

/-- The indices that matches of the branches reach, by strict matching. -/
def reachAlt? (text : Text) (d : Direction) : List Pattern → Nat → Option (List Nat)
  | [], _ => some []
  | p :: ps, i => do
    let js ← reach? text d p i
    let ks ← reachAlt? text d ps i
    some (js ++ ks)

end

variable {text : Text} {d : Direction} {i j : Nat}

/-- A match that starts inside a text reaches only indices that lie ahead in the text. -/
theorem covers_of_mem_reach {p : Pattern} (hi : i ≤ text.size) (h : j ∈ p.reach text d i) :
    d.Covers text i j := by
  have related := mem_reach.mp h
  cases d with
  | forward =>
    have : Onward text i j := Matches.onward related
    simp only [Onward, Direction.Covers] at *
    omega
  | backward =>
    have : Onward text j i := Matches.onward related
    simp only [Onward, Direction.Covers] at *
    omega

theorem advances_reach (p : Pattern) (hi : i ≤ text.size) :
    Advances (d.room text) (· ≤ text.size) i (p.reach text d i) := by
  intro j hj
  have inside : j ≤ text.size := (covers_of_mem_reach hi hj).le_size hi
  have less : j ≠ i → d.room text j < d.room text i :=
    Direction.room_lt_of_onward (fun _ _ => Matches.onward) (mem_reach.mp hj)
  exact ⟨inside, less⟩

/-- A call inside the text succeeds if its results are those of matching. -/
theorem call?_reach (p : Pattern) (hi : i ≤ text.size) :
    call? text d i (some (p.reach text d i)) = some (p.reach text d i) := by
  rw [call?, if_pos hi, Option.bind_eq_bind, Option.bind_some,
    if_pos fun j hj => covers_of_mem_reach hi hj]

/-- Strict matching succeeds inside a text, with the result of matching. -/
theorem reach?_eq (p : Pattern) (hi : i ≤ text.size) :
    p.reach? text d i = some (p.reach text d i) := by
  -- The members of a sequence are called where the ones before them led, so a sequence also
  -- has to keep the indices that it hands on inside the text.
  induction p using induct
    (L := fun ps => (∀ d (is : List Nat), (∀ i ∈ is, i ≤ text.size) →
        reachSeq? text d ps is = some (reachSeq text d ps is) ∧
        ∀ i ∈ reachSeq text d ps is, i ≤ text.size) ∧
      ∀ d i, i ≤ text.size → reachAlt? text d ps i = some (reachAlt text d ps i))
    generalizing d i with
  | seq ps ih =>
    have start : ∀ j ∈ [i], j ≤ text.size := by simpa using hi
    rw [reach?, (ih.1 d [i] start).1]
    exact call?_reach (.seq ps) hi
  | alt ps ih =>
    rw [reach?, ih.2 d i hi]
    exact call?_reach (.alt ps) hi
  | quantified q p ih =>
    rw [reach?, q.reach?_eq (fun _ => ih) (fun _ => advances_reach p) hi]
    exact call?_reach (.quantified q p) hi
  | group p ih =>
    rw [reach?, ih hi]
    exact call?_reach (.group p) hi
  | look negated p ih =>
    rw [reach?, ih hi]
    exact call?_reach (.look negated p) hi
  | anchor a =>
    rw [reach?, a.holds?_eq hi]
    exact call?_reach (.anchor a) hi
  | single t =>
    rw [reach?, d.read?_eq hi]
    exact call?_reach (.single t) hi
  | nil => exact ⟨fun _ is his => ⟨rfl, his⟩, fun _ _ _ => rfl⟩
  | cons p ps ih ihs =>
    have bounded : ∀ d (is : List Nat), (∀ i ∈ is, i ≤ text.size) →
        ∀ j ∈ distinct (is.flatMap (reach text d p)), j ≤ text.size := by
      intro d is his j hj
      obtain ⟨i, hi, hj⟩ := List.mem_flatMap.mp (mem_distinct.mp hj)
      exact (covers_of_mem_reach (his i hi) hj).le_size (his i hi)
    constructor
    · intro d is his
      cases d with
      | forward =>
        have later := ihs.1 .forward _ (bounded .forward is his)
        rw [reachSeq?, mapM_eq_some fun i hi => ih (his i hi)]
        exact later
      | backward =>
        obtain ⟨later, inside⟩ := ihs.1 .backward is his
        refine ⟨?_, bounded .backward _ inside⟩
        rw [reachSeq?, later, Option.bind_eq_bind, Option.bind_some,
          mapM_eq_some fun i hi => ih (inside i hi)]
        rfl
    · intro d i hi
      rw [reachAlt?, ih hi, ihs.2 d i hi]
      rfl

end Pattern

end StringTransform
