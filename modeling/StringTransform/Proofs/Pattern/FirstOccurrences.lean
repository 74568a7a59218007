import StringTransform.Pattern.Positions
import Mathlib.Data.List.Induction

/-!
# First occurrences

Two lists have the same first occurrences if they have the same members and these come
up for the first time in the same order. Putting either of them into a collection of
positions then has the same effect, whatever the collection holds already. So lists can be
exchanged for lists with the same first occurrences wherever they end up in such a
collection, also as the starting points from which further lists are produced.

## Main results

* `eraseDups_eq_iff` — lists with the same first occurrences cannot be told apart by
  inserting them
* `eraseDups_append_congr`, `eraseDups_flatMap_congr` — first occurrences of combined
  lists depend on those of the parts
-/

namespace StringTransform

namespace Positions

variable {found : Positions} {i : Nat} {is js : List Nat} {f g : Nat → List Nat}

@[simp] theorem insertAll_nil : found.insertAll [] = found := rfl

@[simp] theorem insertAll_singleton : found.insertAll [i] = found.insert i := rfl

theorem insertAll_append : found.insertAll (is ++ js) = (found.insertAll is).insertAll js :=
  List.foldl_append

/-- Inserting only members changes nothing. -/
theorem insertAll_of_subset (h : ∀ i ∈ is, i ∈ found) : found.insertAll is = found := by
  induction is with
  | nil => rfl
  | cons i is ih =>
    rw [← List.singleton_append, insertAll_append, insertAll_singleton,
      insert_of_mem (h i List.mem_cons_self)]
    exact ih fun j hj => h j (List.mem_cons_of_mem i hj)

theorem toList_empty_insertAll : ((∅ : Positions).insertAll is).toList = is.eraseDups := by
  rw [← distinct_eq_toList, distinct_eq_eraseDups]

/-- Lists that can be exchanged one by one can be exchanged when they are joined. -/
theorem insertAll_flatMap_congr
    (h : ∀ i ∈ is, ∀ found : Positions, found.insertAll (f i) = found.insertAll (g i)) :
    found.insertAll (is.flatMap f) = found.insertAll (is.flatMap g) := by
  induction is generalizing found with
  | nil => rfl
  | cons i is ih =>
    rw [List.flatMap_cons, List.flatMap_cons, insertAll_append, insertAll_append,
      h i List.mem_cons_self]
    exact ih fun j hj => h j (List.mem_cons_of_mem i hj)

/-- A starting point that has occurred before leads to nothing new. -/
theorem insertAll_flatMap_eraseDups :
    found.insertAll (is.eraseDups.flatMap f) = found.insertAll (is.flatMap f) := by
  -- From the right, since what matters is what has been inserted before the last member.
  induction is using List.reverseRecOn with
  | nil => rfl
  | append_singleton is i ih =>
    rw [List.eraseDups_append, List.flatMap_append, List.flatMap_append, insertAll_append,
      insertAll_append, ih]
    by_cases old : i ∈ is
    · have known : ∀ j ∈ [i].flatMap f, j ∈ found.insertAll (is.flatMap f) := by
        intro j hj
        have : j ∈ f i := by simpa using hj
        exact mem_insertAll.mpr (.inr (List.mem_flatMap.mpr ⟨i, old, this⟩))
      rw [insertAll_of_subset known]
      simp [List.removeAll, old]
    · simp [List.removeAll, old, List.eraseDups_cons]

theorem insertAll_eraseDups : found.insertAll is.eraseDups = found.insertAll is := by
  have singles : found.insertAll (is.eraseDups.flatMap fun i => [i]) =
      found.insertAll (is.flatMap fun i => [i]) := insertAll_flatMap_eraseDups
  simpa using singles

end Positions

section Lists

variable {is js ks ls : List Nat} {f g : Nat → List Nat}

/-- Lists with the same first occurrences cannot be told apart by inserting them. -/
theorem eraseDups_eq_iff :
    is.eraseDups = js.eraseDups ↔
      ∀ found : Positions, found.insertAll is = found.insertAll js := by
  constructor
  · intro h found
    rw [← Positions.insertAll_eraseDups, h, Positions.insertAll_eraseDups]
  · intro h
    -- Inserted into the empty collection, a list leaves its first occurrences.
    rw [← Positions.toList_empty_insertAll, h, Positions.toList_empty_insertAll]

theorem eraseDups_append_congr (his : is.eraseDups = ks.eraseDups)
    (hjs : js.eraseDups = ls.eraseDups) : (is ++ js).eraseDups = (ks ++ ls).eraseDups := by
  rw [eraseDups_eq_iff] at *
  intro found
  rw [Positions.insertAll_append, Positions.insertAll_append, his, hjs]

/-- The first occurrences of what a list of starting points leads to depend on the first
occurrences among the starting points and on those of what each of them leads to. -/
theorem eraseDups_flatMap_congr (his : is.eraseDups = js.eraseDups)
    (hfg : ∀ i ∈ js, (f i).eraseDups = (g i).eraseDups) :
    (is.flatMap f).eraseDups = (js.flatMap g).eraseDups := by
  refine eraseDups_eq_iff.mpr fun found => ?_
  calc found.insertAll (is.flatMap f)
      = found.insertAll (js.flatMap f) := by
        rw [← Positions.insertAll_flatMap_eraseDups, his, Positions.insertAll_flatMap_eraseDups]
    _ = found.insertAll (js.flatMap g) :=
        Positions.insertAll_flatMap_congr fun i hi => eraseDups_eq_iff.mp (hfg i hi)

@[simp] theorem eraseDups_eraseDups : is.eraseDups.eraseDups = is.eraseDups :=
  eraseDups_eq_iff.mpr fun _ => Positions.insertAll_eraseDups

theorem eraseDups_eq_self (h : is.Nodup) : is.eraseDups = is := by
  induction is with
  | nil => rfl
  | cons i is ih =>
    obtain ⟨fresh, rest⟩ := List.nodup_cons.mp h
    have : is.filter (fun j => !j == i) = is :=
      List.filter_eq_self.mpr fun j hj => by simpa using fun (same : j = i) => fresh (same ▸ hj)
    rw [List.eraseDups_cons, this, ih rest]

/-- A map that keeps the members apart keeps their first occurrences. -/
theorem eraseDups_map {f : Nat → Nat} (apart : ∀ i ∈ is, ∀ j ∈ is, f i = f j → i = j) :
    (is.map f).eraseDups = is.eraseDups.map f := by
  induction is using List.reverseRecOn with
  | nil => rfl
  | append_singleton is i ih =>
    have old : (∃ j ∈ is, f j = f i) ↔ i ∈ is := by
      constructor
      · rintro ⟨j, hj, same⟩
        exact apart j (List.mem_append_left _ hj) i (by simp) same ▸ hj
      · exact fun hi => ⟨i, hi, rfl⟩
    rw [List.map_append, List.eraseDups_append, List.eraseDups_append, List.map_append,
      ih fun j hj k hk => apart j (List.mem_append_left _ hj) k (List.mem_append_left _ hk)]
    by_cases hi : i ∈ is <;> simp [List.removeAll, List.eraseDups_cons, old, hi]

theorem nodup_eraseDups : is.eraseDups.Nodup := by
  rw [← Positions.toList_empty_insertAll]
  exact Positions.nodup_toList _

end Lists

end StringTransform
