import StringTransform.Proofs.Extraction.FromStart

/-!
# Cutting a text and joining the pieces

A text can be cut at a list of positions, each piece ending where the next one starts. The
pieces joined are what lies between the first position and the last one, or else one of the
pieces cannot be cut out, and then nothing comes of any of them. A piece has to start inside
the text but may end where the text does, so the last position is the only one that may be
the end.

## Main definitions

* `Text.CutsAt` — a text can be cut at these indices
* `Formula.slices` — the pieces between consecutive positions

## Main results

* `Text.stretch_append` — pieces that meet make up one piece
* `Text.cutsAt_cons_cons_iff` — one more index in front of others
* `Formula.eval_concat_slices_iff` — what the pieces are joined to
-/

namespace StringTransform

namespace Text

variable {text : Text} {i j k : Nat} {is : List Nat} {start stop : Position} {piece : String}

/-- A piece and the one that starts where it ends are one piece. -/
theorem stretch_append (first : i ≤ j) (second : j ≤ k) :
    text.stretch ⟨i, j⟩ ++ text.stretch ⟨j, k⟩ = text.stretch ⟨i, k⟩ := by
  apply String.toList_inj.mp
  have front : (text.toList.take j).drop i = ((text.toList.take k).drop i).take (j - i) := by
    rw [List.take_drop, List.take_take, Nat.add_sub_cancel' first, Nat.min_eq_left second]
  have back : (text.toList.take k).drop j = ((text.toList.take k).drop i).drop (j - i) := by
    rw [List.drop_drop, Nat.add_sub_cancel' first]
  simp only [stretch, Text.toString, String.toList_append, String.toList_ofList, toList_drop,
    toList_take]
  rw [front, back, List.take_append_drop]

/-- A piece can be cut out between two positions that are found in order, the first one
inside the text and the second one not behind its end. -/
theorem cut_eq_some_iff :
    text.cut start stop = some piece ↔
      ∃ i j, start.locate text = some i ∧ stop.locate text = some j ∧
        (i < text.size ∧ j ≤ text.size ∧ i ≤ j) ∧ text.stretch ⟨i, j⟩ = piece := by
  simp only [cut, stretch, Option.bind_eq_some_iff, Option.ite_none_right_eq_some,
    Option.some.injEq]
  constructor
  · rintro ⟨i, first, j, second, inside, same⟩
    exact ⟨i, j, first, second, inside, same⟩
  · rintro ⟨i, j, first, second, inside, same⟩
    exact ⟨i, first, j, second, inside, same⟩

/-- The text can be cut at these indices: they are in order, the last one does not lie behind
its end, and the one before it lies inside. -/
structure CutsAt (text : Text) (is : List Nat) : Prop where
  ordered : is.Pairwise (· ≤ ·)
  last : ∀ i ∈ is.getLast?, i ≤ text.size
  inner : ∀ i ∈ is.dropLast.getLast?, i < text.size

theorem CutsAt.le_getLast (cuts : text.CutsAt (i :: is)) :
    i ≤ (i :: is).getLast (List.cons_ne_nil i is) := by
  rcases List.mem_cons.mp (List.getLast_mem (List.cons_ne_nil i is)) with same | later
  · exact Nat.le_of_eq same.symm
  · exact (List.pairwise_cons.mp cuts.ordered).1 _ later

theorem CutsAt.le_size (cuts : text.CutsAt (i :: is)) : i ≤ text.size := by
  have atEnd : (i :: is).getLast? = some ((i :: is).getLast (List.cons_ne_nil i is)) :=
    List.getLast?_eq_some_getLast (List.cons_ne_nil i is)
  exact Nat.le_trans cuts.le_getLast (cuts.last _ atEnd)

/-- A piece can be cut off in front of the others. -/
theorem cutsAt_cons_cons_iff :
    text.CutsAt (i :: j :: is) ↔ (i < text.size ∧ i ≤ j) ∧ text.CutsAt (j :: is) := by
  have last : (i :: j :: is).getLast? = (j :: is).getLast? := List.getLast?_cons_cons
  have inner : (i :: j :: is).dropLast = i :: (j :: is).dropLast := rfl
  constructor
  · rintro ⟨ordered, atEnd, before⟩
    obtain ⟨least, others⟩ := List.pairwise_cons.mp ordered
    rw [last] at atEnd
    rw [inner, List.getLast?_cons] at before
    have inside := before _ rfl
    -- All indices but the last one lie at or before the one in front of the last.
    cases hidden : (j :: is).dropLast.getLast? with
    | none =>
      rw [hidden] at inside
      exact ⟨⟨inside, least j List.mem_cons_self⟩, others, atEnd, by simp [hidden]⟩
    | some k =>
      rw [hidden] at inside
      have member : k ∈ j :: is := List.dropLast_subset _ (List.mem_of_getLast? hidden)
      refine ⟨⟨Nat.lt_of_le_of_lt (least k member) inside, least j List.mem_cons_self⟩, others,
        atEnd, ?_⟩
      rw [hidden]
      rintro _ ⟨⟩
      exact inside
  · rintro ⟨⟨inside, le⟩, ordered, atEnd, before⟩
    refine ⟨?_, last ▸ atEnd, ?_⟩
    · have least : ∀ k ∈ j :: is, i ≤ k := by
        rintro k (_ | ⟨_, later⟩)
        · exact le
        · exact Nat.le_trans le ((List.pairwise_cons.mp ordered).1 k later)
      exact List.pairwise_cons.mpr ⟨least, ordered⟩
    · rw [inner, List.getLast?_cons]
      rintro _ ⟨⟩
      cases hidden : (j :: is).dropLast.getLast? with
      | none => exact inside
      | some k => exact before k hidden

theorem cutsAt_singleton_iff : text.CutsAt [i] ↔ i ≤ text.size := by
  constructor
  · intro cuts
    exact cuts.last i rfl
  · intro inside
    exact ⟨List.pairwise_singleton _ i, by simpa using inside, by simp⟩

end Text

namespace Formula

variable {row : Row} {v : Var} {s : String} {p q : Position} {ps : List Position}
  {result : String}

/-- The pieces of a variable's text between consecutive positions. -/
def slices (v : Var) : List Position → List Formula
  | p :: q :: ps => slice v p q :: slices v (q :: ps)
  | _ => []

/-- A piece and what others are joined to: the piece is cut out and put in front. -/
theorem eval_concat_slice_cons_iff (present : row.text? v = some s) (others : List Formula) :
    (concat (slice v p q :: others)).eval row = some result ↔
      ∃ i j rest, p.locate (.ofString s) = some i ∧ q.locate (.ofString s) = some j ∧
        (i < (Text.ofString s).size ∧ j ≤ (Text.ofString s).size ∧ i ≤ j) ∧
        (concat others).eval row = some rest ∧
        (Text.ofString s).stretch ⟨i, j⟩ ++ rest = result := by
  simp only [eval, evalAll, present, Option.bind_some, Option.bind_eq_some_iff,
    Option.map_eq_some_iff, Text.cut_eq_some_iff]
  constructor
  · rintro ⟨_, ⟨i, j, first, second, inside, rfl⟩, rest, joined, same⟩
    exact ⟨i, j, rest, first, second, inside, joined, same⟩
  · rintro ⟨i, j, rest, first, second, inside, joined, same⟩
    exact ⟨_, ⟨i, j, first, second, inside, rfl⟩, rest, joined, same⟩

/-- The pieces of a text cut at two positions or more are joined to what lies between the
first one and the last one, if all of them are found and the text can be cut there. In every
other case nothing comes of them. -/
theorem eval_concat_slices_iff (present : row.text? v = some s) (p q : Position)
    (ps : List Position) (result : String) :
    (concat (slices v (p :: q :: ps))).eval row = some result ↔
      ∃ i is, List.Forall₂ (fun p i => p.locate (.ofString s) = some i) (p :: q :: ps) (i :: is) ∧
        (Text.ofString s).CutsAt (i :: is) ∧
        result = (Text.ofString s).stretch ⟨i, (i :: is).getLast (List.cons_ne_nil i is)⟩ := by
  -- Of two positions there is one piece; a third one cuts off the first piece from the others.
  induction ps generalizing p q result with
  | nil =>
    have nothing : ∀ rest, (concat (slices v [q])).eval row = some rest ↔ rest = "" :=
      fun rest => Option.some_inj.trans eq_comm
    rw [slices, eval_concat_slice_cons_iff present]
    constructor
    · rintro ⟨i, j, rest, first, second, ⟨inside, within, ordered⟩, joined, rfl⟩
      rw [(nothing rest).mp joined, String.append_empty]
      exact ⟨i, [j], .cons first (.cons second .nil),
        Text.cutsAt_cons_cons_iff.mpr ⟨⟨inside, ordered⟩, Text.cutsAt_singleton_iff.mpr within⟩,
        rfl⟩
    · rintro ⟨i, is, found, cuts, rfl⟩
      obtain ⟨first, found⟩ := List.forall₂_cons.mp found
      cases found with
      | @cons _ j _ _ second none =>
        cases none
        obtain ⟨⟨inside, ordered⟩, within⟩ := Text.cutsAt_cons_cons_iff.mp cuts
        exact ⟨i, j, "", first, second, ⟨inside, Text.cutsAt_singleton_iff.mp within, ordered⟩,
          (nothing "").mpr rfl, String.append_empty⟩
  | cons r ps ih =>
    rw [slices, eval_concat_slice_cons_iff present]
    constructor
    · rintro ⟨i, j, rest, first, second, ⟨inside, -, ordered⟩, joined, rfl⟩
      obtain ⟨j', js, found, cuts, rfl⟩ := (ih q r rest).mp joined
      obtain ⟨again, others⟩ := List.forall₂_cons.mp found
      obtain rfl : j = j' := Option.some_inj.mp (second.symm.trans again)
      refine ⟨i, j :: js, .cons first found,
        Text.cutsAt_cons_cons_iff.mpr ⟨⟨inside, ordered⟩, cuts⟩, ?_⟩
      exact Text.stretch_append ordered cuts.le_getLast
    · rintro ⟨i, is, found, cuts, rfl⟩
      obtain ⟨first, found⟩ := List.forall₂_cons.mp found
      cases is with
      | nil => cases found
      | cons j js =>
        obtain ⟨⟨inside, ordered⟩, cuts⟩ := Text.cutsAt_cons_cons_iff.mp cuts
        have second := (List.forall₂_cons.mp found).1
        have joined := (ih q r _).mpr ⟨j, js, found, cuts, rfl⟩
        exact ⟨i, j, _, first, second, ⟨inside, cuts.le_size, ordered⟩, joined,
          Text.stretch_append ordered cuts.le_getLast⟩

/-- A text cut behind its blank, at the boundary to the digits, and joined again. -/
theorem pieces_around_blank_joined :
    ∃ blank digit : Token, Token.ofPattern "\\s" = .ok blank ∧ Token.ofPattern "\\d" = .ok digit ∧
      Row.text? (.ofSubject "né 19") .subject = some "né 19" ∧
      (concat (slices .subject [.const 1, .boundary blank digit .first, .const (-1)])).eval
        (.ofSubject "né 19") = some "é 19" := by
  let blank : Token := ⟨"\\s", .seq [.single (.space false)]⟩
  let digit : Token := ⟨"\\d", .seq [.single (.digit false)]⟩
  have present : Row.text? (.ofSubject "né 19") .subject = some "né 19" := rfl
  have boundary : (Position.boundary blank digit .first).locate (.ofString "né 19") = some 3 := by
    decide +kernel
  have cuts : (Text.ofString "né 19").CutsAt [1, 3, 5] := ⟨by decide, by decide, by decide⟩
  exact ⟨blank, digit, rfl, rfl, present, (eval_concat_slices_iff present _ _ _ _).mpr
    ⟨1, [3, 5], .cons rfl (.cons boundary (.cons rfl .nil)), cuts, rfl⟩⟩

end Formula

end StringTransform
