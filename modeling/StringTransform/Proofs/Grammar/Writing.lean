import StringTransform.Proofs.Grammar.Shapes

/-!
# Writing patterns

Every pattern of the shape that reading gives can be written such that reading the text gives
the pattern back. A character that has a meaning where it stands is written behind a
backslash, which never turns it into something else: what backslashes do turn into something
else are letters, and these are written as they are. Groups are written with their mark, so
that nothing inside them is taken for one.

Inside a set a hyphen or a caret could have a meaning in some places only. They are written
behind a backslash in all places, so that neither a range nor the exclusion of the members
starts where none is meant.

## Main definitions

* `Pattern.write` — the text of a pattern
* `Layer.DerivesFrom` — a text of the layer that stands for the pattern

## Main results

* `setItems_write` — the members of a set, read back in their places
* `derivesFrom_write` — the text of a pattern derives the pattern
* `parse_write` — reading gives back what has been written
* `exists_parse_iff_shaped` — which patterns reading can give
-/

namespace StringTransform

/-! ### The text of a pattern -/

/-- The character that stands for a quantifier. -/
def Quantifier.symbol : Quantifier → Char
  | .zeroOrOne => '?'
  | .zeroOrMore => '*'
  | .oneOrMore => '+'

/-- A character as a member of a set or as the end of a range. -/
def writeInSet (c : Char) : List Char :=
  if c ∈ ['\\', ']', '-', '^'] then ['\\', c] else [c]

/-- The text of a member of a set. -/
def Item.write : Item → List Char
  | .char c => writeInSet c
  | .range lo hi => writeInSet lo ++ '-' :: writeInSet hi
  | .digit => ['\\', 'd']
  | .word => ['\\', 'w']
  | .space => ['\\', 's']

/-- The text of the members of a set, with the bracket that closes the set. -/
def writeMembers (items : List Item) : List Char :=
  items.flatMap (·.write) ++ [']']

theorem writeMembers_cons (item : Item) (items : List Item) :
    writeMembers (item :: items) = item.write ++ writeMembers items := by
  rw [writeMembers, List.flatMap_cons, List.append_assoc, ← writeMembers]

/-- The text of a test. -/
def CharTest.write : CharTest → List Char
  | .literal c => if Grammar.isSpecial c then ['\\', c] else [c]
  | .dot => ['.']
  | .digit negated => ['\\', if negated then 'D' else 'd']
  | .word negated => ['\\', if negated then 'W' else 'w']
  | .space negated => ['\\', if negated then 'S' else 's']
  | .set negated items => '[' :: ((if negated then ['^'] else []) ++ writeMembers items)

/-- The text of an anchor. -/
def Anchor.write : Anchor → List Char
  | .textStart => ['^']
  | .textEnd => ['$']
  | .absoluteEnd => ['\\', 'z']
  | .wordBoundary negated => ['\\', if negated then 'B' else 'b']

/-- The text of a group with the given content. -/
def GroupKind.enclose (kind : GroupKind) (content : List Char) : List Char :=
  kind.opening.toList ++ content ++ [')']

namespace Pattern

mutual

/-- The text of a pattern. -/
def write : Pattern → List Char
  | .seq ms => (writeAll ms).flatten
  | .alt bs => ['|'].intercalate (writeAll bs)
  | .quantified q p => write p ++ [q.symbol]
  | .group p => GroupKind.plain.enclose (write p)
  | .look negated p => (GroupKind.look negated).enclose (write p)
  | .anchor a => a.write
  | .single t => t.write

/-- The texts of the patterns of a list. -/
def writeAll : List Pattern → List (List Char)
  | [] => []
  | p :: ps => write p :: writeAll ps

end

theorem writeAll_eq_map (ps : List Pattern) : writeAll ps = ps.map write := by
  induction ps with
  | nil => rfl
  | cons p ps ih => rw [writeAll, ih, List.map_cons]

end Pattern

namespace Grammar

variable {c : Char} {cs : List Char} {t : CharTest} {items : List Item} {p : Pattern}
  {ms bs : List Pattern}

/-! ### Sets -/

theorem setChar_write (first : Bool) (c : Char) : SetChar first (writeInSet c) c := by
  unfold writeInSet
  split
  · next special =>
    -- None of these characters is a letter, to which a backslash would give another meaning.
    have same : unescape c = c ∧ kind? c = none ∧ c ≠ 'u' := by
      simp only [List.mem_cons, List.not_mem_nil, or_false] at special
      obtain rfl | rfl | rfl | rfl := special <;> decide
    obtain ⟨same, single, plain⟩ := same
    have escaped : SetChar first ['\\', c] (unescape c) := .escaped single plain
    rwa [same] at escaped
  · next plain =>
    simp only [List.mem_cons, List.not_mem_nil, or_false, not_or] at plain
    exact .raw plain.1 fun bracket => absurd bracket plain.2.1

/-- What is written for a character in a set starts neither a range nor an exclusion. -/
theorem head?_writeInSet (c : Char) :
    ∃ d ds, writeInSet c = d :: ds ∧ d ≠ '-' ∧ d ≠ '^' := by
  unfold writeInSet
  split
  · exact ⟨'\\', [c], rfl, by decide, by decide⟩
  · next plain =>
    simp only [List.mem_cons, List.not_mem_nil, or_false, not_or] at plain
    exact ⟨c, [], rfl, plain.2.2⟩

theorem head?_write_item (item : Item) :
    ∃ d ds, item.write = d :: ds ∧ d ≠ '-' ∧ d ≠ '^' := by
  cases item with
  | char c => exact head?_writeInSet c
  | range lo hi =>
    obtain ⟨d, ds, first, plain⟩ := head?_writeInSet lo
    exact ⟨d, ds ++ '-' :: writeInSet hi, by rw [Item.write, first, List.cons_append], plain⟩
  | digit => exact ⟨'\\', _, rfl, by decide, by decide⟩
  | word => exact ⟨'\\', _, rfl, by decide, by decide⟩
  | space => exact ⟨'\\', _, rfl, by decide, by decide⟩

/-- Behind a member no range is started, since its hyphen would be written as a character. -/
theorem not_startsRange_write (items : List Item) : ¬StartsRange (writeMembers items) := by
  rintro ⟨c, ds, whole, _⟩
  cases items with
  | nil => cases whole
  | cons item items =>
    obtain ⟨d, es, first, plain, _⟩ := head?_write_item item
    rw [writeMembers_cons, first] at whole
    exact plain (List.cons.inj whole).1

theorem setItems_write {first : Bool} (nonempty : first = true → items ≠ [])
    (ordered : ∀ item ∈ items, item.IsOrdered) :
    SetItems first (writeMembers items) items := by
  -- Only the first place needs a member, and it may be the place of any of them.
  induction items generalizing first with
  | nil =>
    cases first with
    | true => exact absurd rfl (nonempty rfl)
    | false => exact .close
  | cons item items ih =>
    obtain ⟨this, others⟩ := List.forall_mem_cons.mp ordered
    have rest : SetItems false (writeMembers items) items := ih nofun others
    rw [writeMembers_cons]
    cases item with
    | char c => exact .char (setChar_write first c) (not_startsRange_write items) rest
    | range lo hi =>
      rw [Item.write, List.append_assoc, List.cons_append]
      exact .range (setChar_write first lo) (setChar_write false hi) this rest
    | digit => exact .kind rfl rest
    | word => exact .kind rfl rest
    | space => exact .kind rfl rest

theorem setBody_write {negated : Bool} (writable : (CharTest.set negated items).IsWritable) :
    SetBody ((if negated then ['^'] else []) ++ writeMembers items)
      (.set negated items) := by
  obtain ⟨nonempty, ordered⟩ := writable
  have listed : SetItems true (writeMembers items) items :=
    setItems_write (fun _ => nonempty) ordered
  cases negated with
  | true => exact .excluded listed
  | false =>
    refine .listed ?_ listed
    obtain ⟨item, others, rfl⟩ := List.exists_cons_of_ne_nil nonempty
    obtain ⟨d, ds, first, _, plain⟩ := head?_write_item item
    rw [writeMembers_cons, first]
    exact fun caret => plain (Option.some.inj caret)

/-! ### Atoms -/

theorem escapedAtom_of_special (special : isSpecial c = true) :
    c ≠ 'u' ∧ escapedAtom c = .single (.literal c) := by
  simp only [isSpecial, List.mem_cons, List.not_mem_nil, or_false, decide_eq_true_eq] at special
  obtain rfl | rfl | rfl | rfl | rfl | rfl | rfl | rfl | rfl | rfl | rfl := special <;>
    exact ⟨by decide, rfl⟩

theorem derives_write_test (writable : t.IsWritable) :
    Derives t.write (.atom (.single t)) := by
  cases t with
  | literal c =>
    rw [CharTest.write]
    split
    · next special =>
      obtain ⟨plain, same⟩ := escapedAtom_of_special special
      exact same ▸ .escape plain
    · next plain => exact .literal (Bool.eq_false_iff.mpr plain)
  | dot => exact .dot
  | digit negated => cases negated <;> exact .escape (by decide)
  | word negated => cases negated <;> exact .escape (by decide)
  | space negated => cases negated <;> exact .escape (by decide)
  | set negated items => exact .set (setBody_write writable)

theorem derives_write_anchor (a : Anchor) : Derives a.write (.atom (.anchor a)) := by
  cases a with
  | textStart => exact .start
  | textEnd => exact .stop
  | absoluteEnd => exact .escape (by decide)
  | wordBoundary negated => cases negated <;> exact .escape (by decide)

theorem derives_enclose (kind : GroupKind) (content : Derives cs (.branches bs)) :
    Derives (kind.enclose cs) (.atom (kind.wrap (choice bs))) := by
  have opens : Opens kind kind.opening.toList := by
    cases kind with
    | plain => exact .plain
    | look negated =>
      cases negated with
      | true => exact .absent
      | false => exact .present
  exact .group opens content

/-! ### Branches -/

theorem ofChar?_symbol (q : Quantifier) : Quantifier.ofChar? q.symbol = some q := by
  cases q <;> rfl

theorem derives_flatten (members : ∀ m ∈ ms, Derives m.write (.member m)) :
    Derives (ms.map Pattern.write).flatten (.branch ms) := by
  induction ms with
  | nil => exact .noMember
  | cons m ms ih =>
    obtain ⟨first, others⟩ := List.forall_mem_cons.mp members
    exact .moreMembers first (ih others)

/-- A text of the layer that stands for the pattern. -/
def Layer.DerivesFrom (cs : List Char) (p : Pattern) : Layer → Prop
  | .whole => ∃ bs, Derives cs (.branches bs) ∧ choice bs = p
  | .branch => ∃ ms, Derives cs (.branch ms) ∧ .seq ms = p
  | .member => Derives cs (.member p)
  | .atom => Derives cs (.atom p)

/-- Texts that stand for branches are a list of branches with bars between them. -/
theorem derives_intercalate {α : Type} {xs : List α} {text : α → List Char} {tree : α → Pattern}
    (nonempty : xs ≠ []) (branches : ∀ x ∈ xs, Layer.branch.DerivesFrom (text x) (tree x)) :
    Derives (['|'].intercalate (xs.map text)) (.branches (xs.map tree)) := by
  induction xs with
  | nil => exact absurd rfl nonempty
  | cons x xs ih =>
    obtain ⟨⟨ms, derives, same⟩, others⟩ := List.forall_mem_cons.mp branches
    rw [List.map_cons, List.map_cons, ← same]
    cases xs with
    | nil =>
      rw [List.map_nil, List.intercalate_singleton]
      exact .lastBranch derives
    | cons y xs =>
      rw [List.map_cons, List.intercalate_cons_cons, List.append_assoc]
      exact .moreBranches derives (ih (List.cons_ne_nil y xs) others)

/-- The text of a pattern derives the pattern, in the layer to which it belongs. -/
theorem derivesFrom_write {layer : Layer} (shaped : Shaped layer p) :
    layer.DerivesFrom p.write p := by
  induction shaped with
  | one _ ih =>
    -- A branch that is not followed by a bar is a list of branches by itself.
    obtain ⟨ms, derives, same⟩ := ih
    exact ⟨[.seq ms], .lastBranch derives, same⟩
  | @several bs several _ ih =>
    rw [Pattern.write, Pattern.writeAll_eq_map]
    have derives : Derives (['|'].intercalate (bs.map Pattern.write)) (.branches (bs.map id)) :=
      derives_intercalate (List.ne_nil_of_length_pos (by omega)) ih
    rw [List.map_id] at derives
    exact ⟨bs, derives, choice_of_several several⟩
  | @seq ms _ ih =>
    rw [Pattern.write, Pattern.writeAll_eq_map]
    exact ⟨ms, derives_flatten ih, rfl⟩
  | once _ ih => exact .once ih
  | quantified q _ ih => exact .quantified ih (ofChar?_symbol q)
  | group _ ih =>
    obtain ⟨bs, derives, rfl⟩ := ih
    exact derives_enclose .plain derives
  | look negated _ ih =>
    obtain ⟨bs, derives, rfl⟩ := ih
    exact derives_enclose (.look negated) derives
  | anchor a => exact derives_write_anchor a
  | single writable => exact derives_write_test writable

/-- Reading the text of a pattern that can be read gives it back. -/
theorem parse_write (shaped : Shaped .whole p) :
    Pattern.parse (String.ofList p.write) = .ok p := by
  obtain ⟨bs, derives, same⟩ : ∃ bs, Derives p.write (.branches bs) ∧ choice bs = p :=
    derivesFrom_write shaped
  apply parse_of_denotes
  refine ⟨bs, ?_, same⟩
  rwa [String.toList_ofList]

example :
    Pattern.write (.seq [
      .quantified .zeroOrMore (.group (.alt [.seq [], .seq [.anchor .textEnd]])),
      .single (.set true [.range '-' ']', .char '^', .digit])]) =
        "(?:|$)*[^\\--\\]\\^\\d]".toList := by
  decide

/-- The patterns that can be read from a text are exactly the trees with the shape of a whole
text. -/
theorem exists_parse_iff_shaped (p : Pattern) :
    (∃ source, Pattern.parse source = .ok p) ↔ Shaped .whole p := by
  constructor
  · rintro ⟨source, parsed⟩
    exact shaped_of_parse parsed
  · intro shaped
    exact ⟨String.ofList p.write, parse_write shaped⟩

end Grammar

end StringTransform
