import StringTransform.Proofs.Grammar.Soundness

/-!
# The shape of the patterns that are read

Trees are free, but reading builds trees of one shape only, in four layers: the whole of a
text or of a group is one branch or several, a branch is a sequence of members, a member is
an atom or a quantifier directly around one, and an atom is all that parentheses, brackets or
a single character can stand for. So a quantifier is never applied to another one, and a
sequence never directly contains a sequence.

## Main definitions

* `CharTest.IsWritable` — a test with a notation
* `Layer`, `Shaped` — the shape, layer by layer

## Main results

* `isShaped_of_derives` — whatever derives from a text has the shape of its layer
* `shaped_of_parse` — and so has every pattern that is read
-/

namespace StringTransform

/-- A range of a set does not end before it starts. -/
def Item.IsOrdered : Item → Prop
  | .range lo hi => lo ≤ hi
  | _ => True

/-- A set has a member, and its ranges are ordered. There is a notation for every other test. -/
def CharTest.IsWritable : CharTest → Prop
  | .set _ items => items ≠ [] ∧ ∀ item ∈ items, item.IsOrdered
  | _ => True

namespace Grammar

/-- The layers in which trees are built. -/
inductive Layer where
  /-- All of a text, or all that a group contains. -/
  | whole
  /-- What stands between two bars. -/
  | branch
  /-- An atom, or an atom with a quantifier. -/
  | member
  | atom

/-- The trees of each layer. -/
inductive Shaped : Layer → Pattern → Prop where
  | one {p : Pattern} (branch : Shaped .branch p) : Shaped .whole p
  | several {bs : List Pattern} (several : 2 ≤ bs.length)
      (branches : ∀ b ∈ bs, Shaped .branch b) : Shaped .whole (.alt bs)
  | seq {ms : List Pattern} (members : ∀ m ∈ ms, Shaped .member m) : Shaped .branch (.seq ms)
  | once {p : Pattern} (atom : Shaped .atom p) : Shaped .member p
  | quantified {p : Pattern} (q : Quantifier) (atom : Shaped .atom p) :
      Shaped .member (.quantified q p)
  | group {p : Pattern} (content : Shaped .whole p) : Shaped .atom (.group p)
  | look {p : Pattern} (negated : Bool) (content : Shaped .whole p) :
      Shaped .atom (.look negated p)
  | anchor (a : Anchor) : Shaped .atom (.anchor a)
  | single {t : CharTest} (writable : t.IsWritable) : Shaped .atom (.single t)

variable {first : Bool} {cs : List Char} {test : CharTest} {items : List Item} {p : Pattern}
  {bs : List Pattern}

/-! ### The leaves -/

theorem isOrdered_of_setItems (listed : SetItems first cs items) :
    ∀ item ∈ items, item.IsOrdered := by
  induction listed with
  | close => exact List.forall_mem_nil _
  | @kind first c item cs items names _ ih =>
    refine List.forall_mem_cons.mpr ⟨?_, ih⟩
    unfold kind? at names
    split at names <;> cases names <;> trivial
  | char _ _ _ ih => exact List.forall_mem_cons.mpr ⟨trivial, ih⟩
  | range _ _ ordered _ ih => exact List.forall_mem_cons.mpr ⟨ordered, ih⟩

theorem isWritable_of_setItems {negated : Bool} (listed : SetItems true cs items) :
    (CharTest.set negated items).IsWritable := by
  refine ⟨?_, isOrdered_of_setItems listed⟩
  -- The set is not closed in the first place.
  rintro rfl
  cases listed

theorem isWritable_of_setBody (body : SetBody cs test) : test.IsWritable := by
  cases body with
  | listed _ members => exact isWritable_of_setItems members
  | excluded members => exact isWritable_of_setItems members

theorem shaped_escapedAtom (c : Char) : Shaped .atom (escapedAtom c) := by
  unfold escapedAtom
  split
  all_goals first
    | exact .anchor _
    | exact .single trivial

/-! ### Phrases -/

theorem shaped_choice (nonempty : bs ≠ []) (branches : ∀ b ∈ bs, Shaped .branch b) :
    Shaped .whole (choice bs) := by
  have positive := List.length_pos_iff.mpr nonempty
  by_cases several : 2 ≤ bs.length
  · rw [choice_of_several several]
    exact .several several branches
  · have single : bs.length = 1 := by omega
    obtain ⟨b, rfl⟩ := List.length_eq_one_iff.mp single
    exact .one (branches b List.mem_cons_self)

theorem shaped_wrap (kind : GroupKind) (content : Shaped .whole p) :
    Shaped .atom (kind.wrap p) := by
  cases kind with
  | plain => exact .group content
  | look negated => exact .look negated content

/-- The patterns of a phrase have the shape that belongs to it. -/
def Phrase.IsShaped : Phrase → Prop
  | .branches bs => bs ≠ [] ∧ ∀ b ∈ bs, Shaped .branch b
  | .branch ms => ∀ m ∈ ms, Shaped .member m
  | .member m => Shaped .member m
  | .atom p => Shaped .atom p

/-- Every rule of the grammar gives a phrase of the right shape, if its parts have it. -/
theorem isShaped_of_derives {phrase : Phrase} (derives : Derives cs phrase) :
    phrase.IsShaped := by
  induction derives with
  | lastBranch _ ih => exact ⟨List.cons_ne_nil _ _, List.forall_mem_singleton.mpr (.seq ih)⟩
  | moreBranches _ _ ihBranch ihOthers =>
    exact ⟨List.cons_ne_nil _ _, List.forall_mem_cons.mpr ⟨.seq ihBranch, ihOthers.2⟩⟩
  | noMember => exact List.forall_mem_nil _
  | moreMembers _ _ ihMember ihOthers => exact List.forall_mem_cons.mpr ⟨ihMember, ihOthers⟩
  | once _ ih => exact .once ih
  | quantified _ _ ih => exact .quantified _ ih
  | group _ _ ih => exact shaped_wrap _ (shaped_choice ih.1 ih.2)
  | set body => exact .single (isWritable_of_setBody body)
  | escape => exact shaped_escapedAtom _
  | start => exact .anchor _
  | stop => exact .anchor _
  | code => exact .single trivial
  | dot => exact .single trivial
  | literal => exact .single trivial

/-- A pattern that is read from a text has the shape of a whole text. -/
theorem shaped_of_parse {source : String} (parsed : Pattern.parse source = .ok p) :
    Shaped .whole p := by
  obtain ⟨bs, derives, rfl⟩ := denotes_of_parse parsed
  obtain ⟨nonempty, branches⟩ : bs ≠ [] ∧ ∀ b ∈ bs, Shaped .branch b :=
    isShaped_of_derives derives
  exact shaped_choice nonempty branches

end Grammar

end StringTransform
