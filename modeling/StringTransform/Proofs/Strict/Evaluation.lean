import StringTransform.Formula.Choice
import StringTransform.Proofs.Strict.Scanning

/-!
# Strict evaluation

Positions, formulas, conditions and choices are evaluated strictly by building on strict
scanning. Cutting a text needs an index inside it, counting down to an occurrence needs
something left to count, and a distance from the end needs a number to subtract. Failing
to make a text is a proper result of a formula, and `some none` stands for it; having no
result at all, `none`, is what strict evaluation keeps for accesses out of range and for
steps that lead back. It has a result on every input, that of evaluation.

## Main definitions

* `Text.drop?`, `Text.take?`, `Text.slice?` — cutting a text inside its bounds
* `nthOutside?` — counting down the candidates of a boundary
* `Position.locate?`, `Formula.eval?`, `Condition.holds?`, `Choice.eval?` — strict
  evaluation

## Main results

* `Position.locate?_eq`, `Formula.eval?_eq`, `Condition.holds?_eq`, `Choice.eval?_eq` —
  strict evaluation succeeds
* `strict_evaluation_succeeds` — all of this together, with the ranges of all indices
-/

namespace StringTransform

namespace Text

/-- What follows an index, which has to lie inside the text or at its end. -/
def drop? (text : Text) (n : Nat) : Option Text :=
  if n ≤ text.size then some (text.drop n) else none

/-- What comes before an index, which has to lie inside the text or at its end. -/
def take? (text : Text) (n : Nat) : Option Text :=
  if n ≤ text.size then some (text.take n) else none

/-- What lies between two indices, which have to be in order and not behind the end. -/
def slice? (text : Text) (i j : Nat) : Option Text :=
  if i ≤ j ∧ j ≤ text.size then some ((text.take j).drop i) else none

end Text

/-! ### Positions -/

/-- Counts down the candidates that qualify and lie neither inside one of the spans nor at
its stop, until none is left to count. -/
def nthOutside? (qualifies : Nat → Option Bool) (spans : List Span) (count : Nat) :
    List Nat → Option (Option Nat)
  | [] => some none
  | i :: is =>
    let spans := spans.dropWhile (·.stop < i)
    if spans.head?.any (fun span => span.start < i && i ≤ span.stop) then
      nthOutside? qualifies spans count is
    else do
      let qualified ← qualifies i
      if qualified then do
        let left ← sub? count 1
        if left = 0 then some (some i) else nthOutside? qualifies spans left is
      else nthOutside? qualifies spans count is

theorem nthOutside?_eq {qualifies? : Nat → Option Bool} {qualifies : Nat → Bool} {is : List Nat}
    (tests : ∀ i ∈ is, qualifies? i = some (qualifies i)) (spans : List Span) (skip : Nat) :
    nthOutside? qualifies? spans (skip + 1) is = some (nthOutside qualifies spans skip is) := by
  -- What is counted down is one more than the number of candidates still to be skipped.
  induction is generalizing spans skip with
  | nil => rfl
  | cons i is ih =>
    obtain ⟨test, tests⟩ := List.forall_mem_cons.mp tests
    have countDown : sub? (skip + 1) 1 = some skip := sub?_eq (Nat.le_add_left 1 skip)
    unfold nthOutside? nthOutside
    by_cases inside : ((spans.dropWhile (·.stop < i)).head?.any
        fun span => span.start < i && i ≤ span.stop) = true
    · simp only [inside, Bool.true_or, if_true]
      exact ih tests _ skip
    · simp only [inside, Bool.false_or, if_false, Bool.false_eq_true, test, Option.bind_eq_bind,
        Option.bind_some]
      cases qualifies i with
      | false => simpa using ih tests _ skip
      | true =>
        cases skip with
        | zero => simp [sub?]
        | succ skip => simpa [countDown] using ih tests _ skip

namespace Position

/-- The boundary of the given rank, counted from the start of the text, by strict
scanning. -/
def locateFromStart? (left right : Token) (rank : Nat) (text : Text) : Option (Option Nat) := do
  let spans ← if left.isEmpty then right.scan? text 0 else some []
  let candidates ← left.scan? text 0
  nthOutside? (fun i => (text.drop? i).bind right.opens?) spans rank (candidates.map (·.stop))

/-- The boundary of the given rank, counted from the end of the text, by strict scanning. -/
def locateFromEnd? (left right : Token) (rank : Nat) (text : Text) : Option (Option Nat) := do
  let candidates ← right.scanBackward? text text.size
  nthOutside? (fun i => (text.take? i).bind left.closes?) [] rank (candidates.map (·.start))

/-- The index that the position names in a text, by strict scanning. -/
def locate? (p : Position) (text : Text) : Option (Option Nat) :=
  match p with
  | const k =>
    if 0 ≤ k then some (some k.toNat)
    else do
      let back ← sub? k.natAbs 1
      some (if back ≤ text.size then some (text.size - back) else none)
  | boundary left right k =>
    if k.fromStart then locateFromStart? left right k.rank text
    else locateFromEnd? left right k.rank text

variable {text : Text} {left right : Token} {rank : Nat}

theorem locateFromStart?_eq (hrank : 0 < rank) :
    locateFromStart? left right rank text = some (locateFromStart left right rank text) := by
  have tests : ∀ i ∈ (left.spans text).map (·.stop),
      (text.drop? i).bind right.opens? = some (right.opens (text.drop i)) := by
    -- A candidate is where a span stops, and the text can be cut there.
    intro i hi
    obtain ⟨span, hspan, rfl⟩ := List.mem_map.mp hi
    have inside : span.stop ≤ text.size := (Token.within_of_mem_spans span hspan).2
    rw [Text.drop?, if_pos inside, Option.bind_some, Token.opens?_eq]
  obtain ⟨skip, rfl⟩ : ∃ skip, rank = skip + 1 := ⟨rank - 1, by omega⟩
  rw [locateFromStart?, locateFromStart, Token.scan?_eq, Token.scan?_eq]
  cases left.isEmpty with
  | true => exact nthOutside?_eq tests _ skip
  | false => exact nthOutside?_eq tests _ skip

theorem locateFromEnd?_eq (hrank : 0 < rank) :
    locateFromEnd? left right rank text = some (locateFromEnd left right rank text) := by
  have tests : ∀ i ∈ (right.spansBackward text).map (·.start),
      (text.take? i).bind left.closes? = some (left.closes (text.take i)) := by
    -- A candidate is where a span starts, and the text can be cut there.
    intro i hi
    obtain ⟨span, hspan, rfl⟩ := List.mem_map.mp hi
    have within := Token.within_of_mem_spansBackward span hspan
    have inside : span.start ≤ text.size := Nat.le_trans within.1 within.2
    rw [Text.take?, if_pos inside, Option.bind_some, Token.closes?_eq]
  obtain ⟨skip, rfl⟩ : ∃ skip, rank = skip + 1 := ⟨rank - 1, by omega⟩
  rw [locateFromEnd?, Token.scanBackward?_eq _ (Nat.le_refl _)]
  exact nthOutside?_eq tests _ skip

/-- Strict scanning locates every position, or tells that it is not there. -/
theorem locate?_eq (p : Position) (text : Text) : p.locate? text = some (p.locate text) := by
  cases p with
  | const k =>
    rw [locate?, locate]
    by_cases fromStart : 0 ≤ k
    · rw [if_pos fromStart, if_pos fromStart]
    · rw [if_neg fromStart, if_neg fromStart, sub?_eq (by omega : 1 ≤ k.natAbs)]
      rfl
  | boundary left right k =>
    rw [locate?, locate]
    cases k.fromStart with
    | true => exact locateFromStart?_eq k.rank_pos
    | false => exact locateFromEnd?_eq k.rank_pos

end Position

/-- The stretch of a text between two positions, cut out strictly. -/
def Text.cut? (text : Text) (start stop : Position) : Option (Option String) := do
  let first ← start.locate? text
  match first with
  | none => some none
  | some i => do
    let last ← stop.locate? text
    match last with
    | none => some none
    | some j =>
      if text.size ≤ i ∨ text.size < j ∨ j < i then some none
      else do
        let piece ← text.slice? i j
        some (some piece.toString)

theorem Text.cut?_eq (text : Text) (start stop : Position) :
    text.cut? start stop = some (text.cut start stop) := by
  rw [cut?, cut, start.locate?_eq, stop.locate?_eq]
  cases start.locate text with
  | none => rfl
  | some i =>
    cases stop.locate text with
    | none => rfl
    | some j =>
      simp only [Option.bind_eq_bind, Option.bind_some]
      by_cases inside : i < text.size ∧ j ≤ text.size ∧ i ≤ j
      · have bounds : i ≤ j ∧ j ≤ text.size := ⟨inside.2.2, inside.2.1⟩
        rw [if_neg (by omega), if_pos inside, slice?, if_pos bounds]
        rfl
      · rw [if_pos (by omega), if_neg inside]

/-! ### Formulas -/

namespace Loop

/-- Goes on with a loop whose body has succeeded up to occurrence `k`, strictly. -/
def resume? (l : Loop (Option (Option String))) (k : Occurrence) (done : String) :
    Option (Option String) :=
  match _step : k.next? with
  | none => some none
  | some next => do
    let result ← l.body next
    match result with
    | none => some (some done)
    | some part => if l.limit.any (· < next.rank) then some none else resume? l next (done ++ part)
termination_by 2147483648 - k.rank
decreasing_by
  have := k.rank_of_next? _step
  have := next.rank_le
  omega

/-- The results of the body put together, strictly. -/
def run? (l : Loop (Option (Option String))) : Option (Option String) := do
  let first ← l.body .first
  match first with
  | none => some none
  | some part => l.resume? .first part

theorem resume?_last {l : Loop (Option (Option String))} {k : Occurrence} (done : String)
    (last : k.next? = none) : l.resume? k done = some none := by
  rw [resume?]
  split
  · rfl
  · next next step => cases last.symm.trans step

theorem resume?_next {l : Loop (Option (Option String))} {k next : Occurrence} (done : String)
    (step : k.next? = some next) :
    l.resume? k done = (l.body next).bind fun
      | none => some (some done)
      | some part =>
        if l.limit.any (· < next.rank) then some none else l.resume? next (done ++ part) := by
  rw [resume?]
  split
  · next last => cases last.symm.trans step
  · next next step' =>
    cases step.symm.trans step'
    rfl

variable {body? : Occurrence → Option (Option String)}

theorem resume?_eq (l : Loop (Option String)) (body : ∀ k, body? k = some (l.body k))
    (k : Occurrence) (done : String) :
    Loop.resume? ⟨body?, l.limit⟩ k done = some (l.resume k done) := by
  fun_induction resume l k done with
  | case1 k done last => exact resume?_last done last
  | case2 k done next step stop =>
    rw [resume?_next done step]
    show (body? next).bind _ = _
    rw [body, stop]
    rfl
  | case3 k done next step part success beyond =>
    rw [resume?_next done step]
    show (body? next).bind _ = _
    rw [body, success]
    exact if_pos beyond
  | case4 k done next step part success under ih =>
    rw [resume?_next done step]
    show (body? next).bind _ = _
    rw [body, success]
    exact (if_neg under).trans ih

theorem run?_eq (l : Loop (Option String)) (body : ∀ k, body? k = some (l.body k)) :
    Loop.run? ⟨body?, l.limit⟩ = some l.run := by
  rw [run?, run]
  simp only [body]
  cases l.body .first with
  | none => rfl
  | some part => exact l.resume?_eq body .first part

end Loop

namespace Formula

mutual

/-- The text that the formula makes of a row, by strict evaluation. -/
def eval? (row : Row) : Formula → Option (Option String)
  | const s => some (some s)
  | slice v start stop =>
    match row.text? v with
    | none => some none
    | some s => (Text.ofString s).cut? start stop
  | nth v t k =>
    match row.text? v with
    | none => some none
    | some s => (Text.ofString s).cut? (.boundary .empty t k) (.boundary t .empty k)
  | loop ⟨body, limit⟩ => Loop.run? ⟨fun k => eval? row (body k), limit⟩
  | concat parts => evalAll? row parts
  | fail => some none

/-- The texts of all parts one after the other, by strict evaluation. The parts behind one
that fails are not evaluated. -/
def evalAll? (row : Row) : List Formula → Option (Option String)
  | [] => some (some "")
  | e :: es => do
    let first ← eval? row e
    match first with
    | none => some none
    | some s => do
      let rest ← evalAll? row es
      some (rest.map (s ++ ·))

end

mutual

/-- Strict evaluation of a formula succeeds, with the result of evaluation. -/
theorem eval?_eq (row : Row) : ∀ e : Formula, e.eval? row = some (e.eval row)
  | const s => rfl
  | slice v start stop => by
    rw [eval?, eval]
    cases row.text? v with
    | none => rfl
    | some s => exact Text.cut?_eq _ start stop
  | nth v t k => by
    rw [eval?, eval]
    cases row.text? v with
    | none => rfl
    | some s => exact Text.cut?_eq _ _ _
  | loop ⟨body, limit⟩ => by
    rw [eval?, eval]
    exact Loop.run?_eq ⟨fun k => eval row (body k), limit⟩ fun k => eval?_eq row (body k)
  | concat parts => evalAll?_eq row parts
  | fail => rfl

theorem evalAll?_eq (row : Row) : ∀ es : List Formula, evalAll? row es = some (evalAll row es)
  | [] => rfl
  | e :: es => by
    rw [evalAll?, evalAll, eval?_eq row e, evalAll?_eq row es]
    cases e.eval row with
    | none => rfl
    | some s => rfl

end

end Formula

/-! ### Conditions and choices -/

/-- Whether the row has that many matches, by strict scanning. -/
def Occurs.holds? (row : Row) (o : Occurs) : Option Bool :=
  match row.text? o.var with
  | some s => do
    let spans ← o.token.scan? (.ofString s) 0
    some (o.atLeast ≤ spans.length)
  | none => some false

theorem Occurs.holds?_eq (row : Row) (o : Occurs) : o.holds? row = some (o.holds row) := by
  rw [holds?, holds]
  cases row.text? o.var with
  | none => rfl
  | some s =>
    simp only [Token.scan?_eq]
    rfl

namespace Condition

mutual

/-- Whether the row satisfies the condition, by strict scanning. -/
def holds? (row : Row) : Condition → Option Bool
  | occurs o => o.holds? row
  | lacks o => (o.holds? row).map (!·)
  | all cs => allHold? row cs
  | any cs => anyHolds? row cs

/-- Whether the row satisfies all conditions of a list. Those behind one that does not
hold are not evaluated. -/
def allHold? (row : Row) : List Condition → Option Bool
  | [] => some true
  | c :: cs => do
    let first ← holds? row c
    if first then allHold? row cs else some false

/-- Whether the row satisfies some condition of a list. Those behind one that holds are
not evaluated. -/
def anyHolds? (row : Row) : List Condition → Option Bool
  | [] => some false
  | c :: cs => do
    let first ← holds? row c
    if first then some true else anyHolds? row cs

end

mutual

/-- Strict evaluation of a condition succeeds, with its truth value. -/
theorem holds?_eq (row : Row) : ∀ c : Condition, c.holds? row = some (c.holds row)
  | occurs o => o.holds?_eq row
  | lacks o => by rw [holds?, holds, o.holds?_eq row]; rfl
  | all cs => allHold?_eq row cs
  | any cs => anyHolds?_eq row cs

theorem allHold?_eq (row : Row) : ∀ cs : List Condition, allHold? row cs = some (allHold row cs)
  | [] => rfl
  | c :: cs => by
    rw [allHold?, allHold, holds?_eq row c, allHold?_eq row cs]
    cases c.holds row <;> rfl

theorem anyHolds?_eq (row : Row) :
    ∀ cs : List Condition, anyHolds? row cs = some (anyHolds row cs)
  | [] => rfl
  | c :: cs => by
    rw [anyHolds?, anyHolds, holds?_eq row c, anyHolds?_eq row cs]
    cases c.holds row <;> rfl

end

end Condition

namespace Choice

/-- The text of the first branch whose condition holds, by strict evaluation. The
conditions behind it are not evaluated. -/
def evalBranches? (row : Row) : List (Condition × Formula) → Option (Option String)
  | [] => some none
  | (guard, e) :: branches => do
    let holds ← guard.holds? row
    if holds then e.eval? row else evalBranches? row branches

/-- The text that the choice makes of a row, by strict evaluation. -/
def eval? (row : Row) (c : Choice) : Option (Option String) :=
  evalBranches? row c.branches

/-- Strict evaluation of a choice succeeds, with the result of evaluation. -/
theorem eval?_eq (row : Row) (c : Choice) : c.eval? row = some (c.eval row) := by
  rw [eval?, eval]
  induction c.branches with
  | nil => rfl
  | cons branch branches ih =>
    obtain ⟨guard, e⟩ := branch
    rw [evalBranches?, guard.holds?_eq row]
    cases decides : guard.holds row with
    | true => simp [decides, e.eval?_eq row]
    | false => simpa [decides] using ih

end Choice

/-- Strict evaluation never lacks a result: whatever the program and the texts, no access is
out of range, no difference is negative and no step leads back. In particular matching
started inside a text stays between its index and the end that lies ahead, and every span
that scanning finds lies in the text. -/
theorem strict_evaluation_succeeds :
    (∀ (p : Position) text, p.locate? text = some (p.locate text)) ∧
      (∀ (e : Formula) row, e.eval? row = some (e.eval row)) ∧
      (∀ (c : Condition) row, c.holds? row = some (c.holds row)) ∧
      (∀ (c : Choice) row, c.eval? row = some (c.eval row)) ∧
      (∀ (p : Pattern) text d i, i ≤ text.size →
        p.reach? text d i = some (p.reach text d i) ∧
          ∀ j ∈ p.reach text d i, d.Covers text i j) ∧
      ∀ (t : Token) text, t.scan? text 0 = some (t.spans text) ∧
        t.scanBackward? text text.size = some (t.spansBackward text) ∧
        t.opens? text = some (t.opens text) ∧ t.closes? text = some (t.closes text) ∧
        ∀ span ∈ t.spans text ++ t.spansBackward text,
          span.Within text ∧ span.length? = some span.length := by
  refine ⟨Position.locate?_eq, fun e row => e.eval?_eq row, fun c row => c.holds?_eq row,
    fun c row => c.eval?_eq row, ?_, ?_⟩
  · intro p text d i hi
    exact ⟨p.reach?_eq hi, fun j hj => Pattern.covers_of_mem_reach hi hj⟩
  · intro t text
    refine ⟨Token.scan?_eq 0, Token.scanBackward?_eq _ (Nat.le_refl _), Token.opens?_eq,
      Token.closes?_eq, ?_⟩
    intro span hspan
    have within : span.Within text := by
      rcases List.mem_append.mp hspan with forward | backward
      · exact Token.within_of_mem_spans span forward
      · exact Token.within_of_mem_spansBackward span backward
    exact ⟨within, Span.length?_eq within⟩

/-- The digit in front of a letter is matched and scanned inside the text. -/
theorem strict_evaluation_of_digit :
    let digit : Token := ⟨"\\d", .seq [.single (.digit false)]⟩
    let text := Text.ofString "1a"
    0 ≤ text.size ∧ 1 ∈ digit.pattern.reach text .forward 0 ∧
      Direction.forward.Covers text 0 1 ∧
      ⟨0, 1⟩ ∈ digit.spans text ++ digit.spansBackward text ∧ Span.Within text ⟨0, 1⟩ := by
  intro digit text
  obtain ⟨-, -, -, -, matching, scanning⟩ := strict_evaluation_succeeds
  obtain ⟨-, -, -, -, spans⟩ := scanning digit text
  have inside : 0 ≤ text.size := Nat.zero_le _
  have reached : 1 ∈ digit.pattern.reach text .forward 0 := by decide
  have found : ⟨0, 1⟩ ∈ digit.spans text ++ digit.spansBackward text := by
    have first : digit.spans text = ⟨0, 1⟩ :: digit.spansFrom text 1 :=
      (Token.spansFrom_eq 0).trans rfl
    rw [first]
    exact List.mem_cons_self
  exact ⟨inside, reached, (matching _ _ _ _ inside).2 _ reached, found, (spans _ found).1⟩

end StringTransform
