import Mathlib.Data.List.Find
import StringTransform.Formula.Choice
import StringTransform.Proofs.Extraction.RunLoop
import StringTransform.Proofs.Row.Writing

/-!
# The variables that evaluation reads

A condition, a formula or a choice mentions some variables, and evaluating it reads no others.
A loop mentions what its body mentions at any occurrence counted from the start. So two rows on
which the mentioned variables have the same texts, or none, give the same result, be it a text
or a failure, and how the rows were written does not matter otherwise.

## Main definitions

* `Condition.Mentions`, `Formula.Mentions`, `Choice.Mentions` — the variable occurs somewhere
* `Row.Agree` — the variables of a set have the same texts in two rows

## Main results

* `Condition.holds_congr`, `Formula.eval_congr`, `Choice.eval_congr` — rows that agree on the
  mentioned variables give the same result
* `evaluation_reads_mentioned` — the same for rows written in steps
-/

namespace StringTransform

variable {row row' : Row}

/-- Each variable of the set has the same text in both rows, or is absent from both. -/
def Row.Agree (P : Var → Prop) (row row' : Row) : Prop :=
  ∀ v, P v → row.text? v = row'.text? v

/-! ### Conditions -/

theorem Occurs.holds_congr (o : Occurs) (same : row.text? o.var = row'.text? o.var) :
    o.holds row = o.holds row' := by
  rw [holds, holds, same]

namespace Condition

/-- The variable occurs in the condition. -/
inductive Mentions : Condition → Var → Prop where
  | occurs {o : Occurs} : Mentions (.occurs o) o.var
  | lacks {o : Occurs} : Mentions (.lacks o) o.var
  | all {cs : List Condition} {c : Condition} {v : Var} (member : c ∈ cs)
      (inMember : Mentions c v) : Mentions (.all cs) v
  | any {cs : List Condition} {c : Condition} {v : Var} (member : c ∈ cs)
      (inMember : Mentions c v) : Mentions (.any cs) v

/-- The members of a combination have the same truth values on rows that agree on what it
mentions. -/
theorem values_congr {P : Var → Prop} {cs : List Condition} (agree : row.Agree P row')
    (mentions : ∀ c ∈ cs, ∀ v, c.Mentions v → P v)
    (members : ∀ c ∈ cs, row.Agree c.Mentions row' → c.holds row = c.holds row') :
    cs.map (holds row) = cs.map (holds row') := by
  apply List.map_congr_left
  intro c member
  exact members c member fun v inMember => agree v (mentions c member v inMember)

/-- Rows that agree on the variables of a condition satisfy it both or neither. -/
theorem holds_congr (c : Condition) (agree : row.Agree c.Mentions row') :
    c.holds row = c.holds row' := by
  induction c using induct with
  | occurs o => exact o.holds_congr (agree _ .occurs)
  | lacks o => rw [holds, holds, o.holds_congr (agree _ .lacks)]
  | all cs members =>
    have values := values_congr agree (fun _ member _ inMember => .all member inMember) members
    rw [holds, holds, allHold_eq_all, allHold_eq_all, values]
  | any cs members =>
    have values := values_congr agree (fun _ member _ inMember => .any member inMember) members
    rw [holds, holds, anyHolds_eq_any, anyHolds_eq_any, values]

end Condition

/-! ### Formulas -/

namespace Formula

/-- The variable occurs in the formula, for a loop at some occurrence counted from the start. -/
inductive Mentions : Formula → Var → Prop where
  | slice {v : Var} {start stop : Position} : Mentions (.slice v start stop) v
  | nth {v : Var} {t : Token} {k : Occurrence} : Mentions (.nth v t k) v
  | loop {l : Loop Formula} {k : Occurrence} {v : Var} (positive : k.fromStart = true)
      (inBody : Mentions (l.body k) v) : Mentions (.loop l) v
  | concat {parts : List Formula} {e : Formula} {v : Var} (member : e ∈ parts)
      (inPart : Mentions e v) : Mentions (.concat parts) v

mutual

/-- On rows that agree on the variables of a formula it gives the same result. -/
theorem eval_congr : ∀ e : Formula, row.Agree e.Mentions row' → e.eval row = e.eval row'
  | const s, _ => rfl
  | slice v start stop, agree => by
    rw [eval, eval, agree v .slice]
  | nth v t k, agree => by
    rw [eval, eval, agree v .nth]
  | loop ⟨body, limit⟩, agree => by
    rw [eval, eval]
    refine Loop.run_congr ?_ fun k positive => ?_
    · rfl
    · exact eval_congr (body k) fun v inBody => agree v (.loop positive inBody)
  | concat parts, agree =>
    evalAll_congr parts fun e member v inPart => agree v (.concat member inPart)
  | fail, _ => rfl

theorem evalAll_congr : ∀ es : List Formula, (∀ e ∈ es, row.Agree e.Mentions row') →
    evalAll row es = evalAll row' es
  | [], _ => rfl
  | e :: es, agree => by
    obtain ⟨first, others⟩ := List.forall_mem_cons.mp agree
    rw [evalAll, evalAll, eval_congr e first, evalAll_congr es others]

end

end Formula

/-! ### Choices -/

namespace Choice

/-- The variable occurs in one of the guards or formulas. -/
def Mentions (c : Choice) (v : Var) : Prop :=
  ∃ branch ∈ c.branches, branch.1.Mentions v ∨ branch.2.Mentions v

/-- On rows that agree on the variables of a choice the same branch decides, with the same
result. -/
theorem eval_congr (c : Choice) (agree : row.Agree c.Mentions row') : c.eval row = c.eval row' := by
  have guards : ∀ branch ∈ c.branches, branch.1.holds row = branch.1.holds row' := by
    intro branch member
    exact branch.1.holds_congr fun v inGuard => agree v ⟨branch, member, .inl inGuard⟩
  rw [eval, eval, List.find?_congr guards]
  apply Option.bind_congr
  intro branch found
  have member := List.mem_of_find?_eq_some found
  exact branch.2.eval_congr fun v inFormula => agree v ⟨branch, member, .inr inFormula⟩

end Choice

/-! ### Rows written in steps -/

/-- Steps that give variables the same last texts lead to rows that agree on them. -/
theorem Entry.Agree.ofEntries {P : Var → Prop} {es fs : List Entry} (agree : Agree P es fs) :
    (Row.ofEntries es).Agree P (Row.ofEntries fs) := by
  intro v read
  rw [Row.text?_ofEntries, Row.text?_ofEntries, agree v read]

/-- However two rows were written, a condition, a formula or a choice gives the same result on
both, a text or a failure, if each variable that it mentions was given the same text last or
was never written. So it does not matter in which order different variables are written, which
texts are written over, and what is written for variables that are not mentioned. -/
theorem evaluation_reads_mentioned (es fs : List Entry) :
    (∀ c : Condition, Entry.Agree c.Mentions es fs →
        c.holds (.ofEntries es) = c.holds (.ofEntries fs)) ∧
      (∀ e : Formula, Entry.Agree e.Mentions es fs →
        e.eval (.ofEntries es) = e.eval (.ofEntries fs)) ∧
      (∀ c : Choice, Entry.Agree c.Mentions es fs →
        c.eval (.ofEntries es) = c.eval (.ofEntries fs)) ∧
      ∀ P : Var → Prop, Relation.EqvGen (Entry.Edit P) es fs → Entry.Agree P es fs := by
  refine ⟨?_, ?_, ?_, ?_⟩
  · exact fun c agree => c.holds_congr agree.ofEntries
  · exact fun e agree => e.eval_congr agree.ofEntries
  · exact fun c agree => c.eval_congr agree.ofEntries
  · exact fun P edits => Entry.agree_of_edits edits

/-- The digits of a telephone number: neither the number written before matters, nor the name
or the subject, nor when they were written. -/
theorem digits_read_phone_column :
    Entry.Agree (Formula.loop ⟨fun k => .nth (.column "phone") Run.num.token k, none⟩).Mentions
        [⟨.column "phone", "425-706"⟩]
        [⟨.subject, "row 7"⟩, ⟨.column "phone", "unknown"⟩, ⟨.column "phone", "425-706"⟩,
          ⟨.column "name", "Ann 2"⟩] ∧
      (Formula.loop ⟨fun k => .nth (.column "phone") Run.num.token k, none⟩).eval
        (.ofEntries [⟨.subject, "row 7"⟩, ⟨.column "phone", "unknown"⟩,
          ⟨.column "phone", "425-706"⟩, ⟨.column "name", "Ann 2"⟩]) = some "425706" := by
  let es : List Entry := [⟨.column "phone", "425-706"⟩]
  let fs : List Entry := [⟨.subject, "row 7"⟩, ⟨.column "phone", "unknown"⟩,
    ⟨.column "phone", "425-706"⟩, ⟨.column "name", "Ann 2"⟩]
  have agree : Entry.Agree
      (Formula.loop ⟨fun k => .nth (.column "phone") Run.num.token k, none⟩).Mentions es fs := by
    intro v mentioned
    cases mentioned with
    | loop _ inBody =>
      cases inBody
      rfl
  have present : (Row.ofEntries es).text? (.column "phone") = some "425-706" := rfl
  have collected := Loop.run_of_parts (l := ⟨fun k => _, none⟩) rfl
    fun k positive => Formula.nth_eval_of_run .num present positive
  refine ⟨agree, ?_⟩
  rw [← (evaluation_reads_mentioned es fs).2.1 _ agree]
  exact collected.trans (by decide +kernel)

end StringTransform
