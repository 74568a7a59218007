import Mathlib.Data.List.Basic
import StringTransform.Pattern.Reverse
import StringTransform.Proofs.Pattern.Backtracking

/-!
# Steps carried from one text to another

The same match can be made in two texts: in a text and in what is left of it behind a cut, or in
a text and in its mirror. Its indices are then different ones, but each step in the one text is a
step in the other, and the steps come in the same order. A map of indices carries steps of the
first kind to steps of the second kind. What is combined of carried steps is carried as well,
repetitions included, and so is what plain backtracking makes of a pattern, provided that the
texts look alike from the indices in question.

## Main definitions

* `Carries` — a map of indices carries the steps of one function to those of another
* `Direction.Embeds` — a map of indices carries the characters ahead and the room
* `Pattern.AssertsAlike` — a pattern itself asserts the same in two texts

## Main results

* `Carries.flatMap`, `Carries.again` — steps one behind the other, and repeated steps
* `Carries.eraseDups_eq` — first occurrences are carried to first occurrences
* `Pattern.carries_enumerate` — plain backtracking in an embedded text
-/

namespace StringTransform

open Relation

/-! ### Steps -/

/-- The steps of `f` from the image of an index are the images of the steps of `g` from the index,
which do not leave the set `inside`. -/
structure Carries (inside : Nat → Prop) (φ : Nat → Nat) (f g : Nat → List Nat) : Prop where
  eq : ∀ i, inside i → f (φ i) = (g i).map φ
  closed : ∀ i, inside i → ∀ j ∈ g i, inside j

namespace Carries

variable {inside : Nat → Prop} {φ : Nat → Nat} {f g f' g' : Nat → List Nat}
  {room room' : Nat → Nat}

theorem stay : Carries inside φ (fun i => [i]) (fun i => [i]) where
  eq _ _ := rfl
  closed _ hi _ hj := List.mem_singleton.mp hj ▸ hi

theorem nothing : Carries inside φ (fun _ => []) (fun _ => []) where
  eq _ _ := rfl
  closed _ _ _ := nofun

theorem append (first : Carries inside φ f g) (second : Carries inside φ f' g') :
    Carries inside φ (fun i => f i ++ f' i) (fun i => g i ++ g' i) where
  eq i hi := by rw [first.eq i hi, second.eq i hi, List.map_append]
  closed i hi j hj := (List.mem_append.mp hj).elim (first.closed i hi j) (second.closed i hi j)

theorem flatMap (first : Carries inside φ f g) (second : Carries inside φ f' g') :
    Carries inside φ (fun i => (f i).flatMap f') (fun i => (g i).flatMap g') where
  eq i hi := by
    rw [first.eq i hi, List.flatMap_map, List.map_flatMap]
    exact List.flatMap_congr fun j hj => second.eq j (first.closed i hi j hj)
  closed i hi j hj := by
    obtain ⟨k, hk, hj⟩ := List.mem_flatMap.mp hj
    exact second.closed k (first.closed i hi k hk) j hj

/-- A test that gives the same answer at an index and at its image. -/
theorem guard {b b' : Nat → Bool} (same : ∀ i, inside i → b (φ i) = b' i) :
    Carries inside φ (fun i => if b i then [i] else []) (fun i => if b' i then [i] else []) where
  eq i hi := by
    rw [same i hi]
    split <;> rfl
  closed i hi j hj := by
    split at hj
    · exact stay.closed (φ := φ) i hi j hj
    · cases hj

variable (steps : Carries inside φ f g) (rooms : ∀ i, inside i → room (φ i) = room' i)
include steps

theorem mem_again {i j : Nat} (hi : inside i) (hj : j ∈ again room' g i) : inside j := by
  have reached : ReflTransGen (Leads room' g) i j := StringTransform.mem_again.mp hj
  induction reached with
  | refl => exact hi
  | tail _ last ih => exact steps.closed _ (ih (StringTransform.mem_again.mpr ‹_›)) _ last.1

include rooms

/-- Steps that make progress are carried to steps that make progress, so that they can be
repeated. -/
theorem again : Carries inside φ (again room f) (again room' g) where
  eq i hi := by
    -- On the room left at `i`, of which every step that makes progress leaves less.
    induction hroom : room' i using Nat.strongRecOn generalizing i with
    | _ m ih =>
      have progress : (g i).filter (fun j => room (φ j) < room (φ i)) =
          (g i).filter (room' · < room' i) := by
        refine List.filter_congr fun j hj => ?_
        rw [rooms i hi, rooms j (steps.closed i hi j hj)]
      rw [again_eq, again_eq, List.map_append, steps.eq i hi, List.filter_map, List.flatMap_map,
        List.map_flatMap]
      congr 1
      refine (congrArg (List.flatMap _) progress).trans (List.flatMap_congr fun j hj => ?_)
      obtain ⟨hj, less⟩ := List.mem_filter.mp hj
      exact ih (room' j) (hroom ▸ of_decide_eq_true less) j (steps.closed i hi j hj) rfl
  closed _ hi _ hj := steps.mem_again hi hj

theorem ways (q : Quantifier) : Carries inside φ (q.ways room f) (q.ways room' g) := by
  cases q with
  | zeroOrOne => exact steps.append stay
  | zeroOrMore => exact steps.again rooms
  | oneOrMore => exact steps.flatMap (steps.again rooms)

omit rooms in
/-- A map that keeps indices apart carries first occurrences to first occurrences. -/
theorem eraseDups_eq (apart : ∀ i j, inside i → inside j → φ i = φ j → i = j) {i : Nat}
    (hi : inside i) : (f (φ i)).eraseDups = (g i).eraseDups.map φ := by
  rw [steps.eq i hi]
  exact eraseDups_map fun j hj k hk => apart j k (steps.closed i hi j hj) (steps.closed i hi k hk)

end Carries

/-! ### Patterns -/

/-- Going in this direction, the text `part` looks from an index as `text` looks from the image
of the index: the same character lies ahead, if there is one, and there is as much room. -/
structure Direction.Embeds (d : Direction) (inside : Nat → Prop) (φ : Nat → Nat)
    (text part : Text) : Prop where
  next : ∀ i, inside i → d.next? text (φ i) = (d.next? part i).map (Prod.map id φ)
  closed : ∀ i, inside i → ∀ c j, d.next? part i = some (c, j) → inside j
  room : ∀ i, inside i → d.room text (φ i) = d.room part i

namespace Pattern

variable {d : Direction} {inside : Nat → Prop} {φ : Nat → Nat} {text part : Text}

/-- Whether the pattern itself, whatever it is made of, asserts the same at an index of `part` and
at its image in `text`. A lookahead looks forward, so it does if that is where both texts look
alike. -/
def AssertsAlike (d : Direction) (inside : Nat → Prop) (φ : Nat → Nat) (text part : Text) :
    Pattern → Prop
  | .anchor a => ∀ i, inside i → a.holds text (φ i) = a.holds part i
  | .look _ _ => d = .forward
  | _ => True

theorem carries_single (embeds : d.Embeds inside φ text part) (t : CharTest) :
    Carries inside φ (enumerate text d (.single t)) (enumerate part d (.single t)) where
  eq i hi := by
    rw [enumerate, enumerate, embeds.next i hi]
    cases d.next? part i with
    | none => rfl
    | some ahead => by_cases holds : t.holds ahead.1 <;> simp [holds]
  closed i hi j hj := by
    rw [enumerate] at hj
    cases next : d.next? part i with
    | none => rw [next] at hj; cases hj
    | some ahead =>
      simp only [next, List.mem_ite_nil_right, List.mem_singleton] at hj
      exact hj.2 ▸ embeds.closed i hi _ _ next

/-- Plain backtracking makes the same steps in a text and in one that it is embedded in, if all
parts of the pattern assert the same in both. -/
theorem carries_enumerate {p : Pattern} (embeds : d.Embeds inside φ text part)
    (alike : ∀ q ∈ p.parts, q.AssertsAlike d inside φ text part) :
    Carries inside φ (enumerate text d p) (enumerate part d p) := by
  induction p using induct
    (L := fun ps => (∀ q ∈ partsAll ps, q.AssertsAlike d inside φ text part) →
      Carries inside φ (enumerateSeq text d ps) (enumerateSeq part d ps) ∧
        Carries inside φ (enumerateAlt text d ps) (enumerateAlt part d ps)) with
  | seq ps ih => exact (ih fun q hq => alike q (List.mem_cons_of_mem _ hq)).1
  | alt ps ih => exact (ih fun q hq => alike q (List.mem_cons_of_mem _ hq)).2
  | quantified q p ih =>
    have body := ih fun q hq => alike q (List.mem_cons_of_mem _ hq)
    rw [funext (enumerate_quantified q p), funext (enumerate_quantified q p)]
    exact body.ways embeds.room q
  | group p ih => exact ih fun q hq => alike q (List.mem_cons_of_mem _ hq)
  | look negated p ih =>
    have body := ih fun q hq => alike q (List.mem_cons_of_mem _ hq)
    obtain rfl : d = .forward := alike _ List.mem_cons_self
    refine .guard fun i hi => ?_
    rw [body.eq i hi, List.isEmpty_map]
  | anchor a => exact .guard (alike _ List.mem_cons_self)
  | single t => exact carries_single embeds t
  | nil => exact ⟨.stay, .nothing⟩
  | cons p ps ih ihs alike =>
    have first := ih fun q hq => alike q (List.mem_append_left _ hq)
    obtain ⟨others, branches⟩ := ihs fun q hq => alike q (List.mem_append_right _ hq)
    refine ⟨?_, first.append branches⟩
    cases d with
    | forward => exact first.flatMap others
    | backward => exact others.flatMap first

end Pattern

end StringTransform
