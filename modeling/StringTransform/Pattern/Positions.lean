/-!
# Positions in the order of their discovery

The indices that a match can reach are kept in the order in which they were found, and
each is kept once. Beside the list stands the set of its members as a number whose
binary digits are the members, so that whether an index has been found already is one
test of a digit.

## Main definitions

* `Positions` — indices in the order of their discovery
* `Positions.insert` — adds an index unless it is there already
* `Positions.toList` — the indices, first found first
* `distinct` — the first occurrences of the members of a list

## Main results

* `Positions.toList_insert` — a new index comes last, an old one changes nothing
* `Positions.toList_insertAll` — inserting a list appends what is new of it
* `distinct_eq_eraseDups`, `mem_distinct`, `nodup_distinct` — what `distinct` keeps
-/

namespace StringTransform

/-- Indices in the order of their discovery, each of them once. -/
structure Positions where
  newestFirst : List Nat
  /-- The number whose binary digit at `i` tells whether `i` is a member. -/
  digits : Nat
  testBit_digits : ∀ i, digits.testBit i = true ↔ i ∈ newestFirst
  nodup : newestFirst.Nodup

namespace Positions

variable {found : Positions} {i j : Nat} {is : List Nat}

def empty : Positions := ⟨[], 0, by simp, List.nodup_nil⟩

instance : EmptyCollection Positions := ⟨empty⟩

instance : Membership Nat Positions := ⟨fun found i => i ∈ found.newestFirst⟩

instance : Decidable (i ∈ found) :=
  decidable_of_iff (found.digits.testBit i = true) (found.testBit_digits i)

/-- Adds an index unless it is a member already. -/
def insert (found : Positions) (i : Nat) : Positions :=
  if h : i ∈ found then found
  else
    { newestFirst := i :: found.newestFirst
      digits := found.digits ||| 1 <<< i
      testBit_digits := fun j => by
        rw [Nat.testBit_or, Bool.or_eq_true, found.testBit_digits, Nat.shiftLeft_eq, Nat.one_mul,
          Nat.testBit_two_pow, List.mem_cons, decide_eq_true_eq, or_comm, eq_comm]
      nodup := List.nodup_cons.mpr ⟨h, found.nodup⟩ }

/-- Adds the members of a list one after the other. -/
def insertAll (found : Positions) (is : List Nat) : Positions :=
  is.foldl insert found

/-- The indices, first found first. -/
def toList (found : Positions) : List Nat :=
  found.newestFirst.reverse

@[simp] theorem toList_empty : (∅ : Positions).toList = [] := rfl

@[simp] theorem mem_toList : i ∈ found.toList ↔ i ∈ found :=
  List.mem_reverse

@[simp] theorem notMem_empty : i ∉ (∅ : Positions) := List.not_mem_nil

theorem nodup_toList (found : Positions) : found.toList.Nodup :=
  List.pairwise_reverse.mpr (found.nodup.imp Ne.symm)

theorem insert_of_mem (h : i ∈ found) : found.insert i = found := by
  rw [insert, dif_pos h]

theorem toList_insert_of_notMem (h : i ∉ found) :
    (found.insert i).toList = found.toList ++ [i] := by
  simp [insert, h, toList]

theorem toList_insert :
    (found.insert i).toList = if i ∈ found then found.toList else found.toList ++ [i] := by
  split
  next h => rw [insert_of_mem h]
  next h => exact toList_insert_of_notMem h

@[simp] theorem mem_insert : j ∈ found.insert i ↔ j ∈ found ∨ j = i := by
  rw [← mem_toList, toList_insert]
  split
  next h =>
    exact ⟨fun hj => .inl (mem_toList.mp hj),
      fun hj => hj.elim mem_toList.mpr (· ▸ mem_toList.mpr h)⟩
  next h => simp

@[simp] theorem mem_insertAll : j ∈ found.insertAll is ↔ j ∈ found ∨ j ∈ is := by
  induction is generalizing found with
  | nil => simp [insertAll]
  | cons i is ih =>
    have : found.insertAll (i :: is) = (found.insert i).insertAll is := rfl
    simp [this, ih, or_assoc]

/-- Inserting a list appends its first occurrences of what is new. -/
theorem toList_insertAll :
    (found.insertAll is).toList = found.toList ++ (is.filter (· ∉ found)).eraseDups := by
  induction is generalizing found with
  | nil => simp [insertAll]
  | cons i is ih =>
    have : found.insertAll (i :: is) = (found.insert i).insertAll is := rfl
    rw [this, ih]
    by_cases h : i ∈ found
    · rw [insert_of_mem h, List.filter_cons_of_neg (by simpa using h)]
    · rw [toList_insert_of_notMem h, List.filter_cons_of_pos (by simpa using h),
        List.eraseDups_cons, List.append_assoc, List.singleton_append, List.filter_filter]
      congr 4
      funext j
      by_cases hj : j = i <;> simp [hj]

end Positions

/-- The first occurrences of the members of a list. -/
def distinct : List Nat → List Nat
  | [] => []
  | [i] => [i]
  | is => ((∅ : Positions).insertAll is).toList

theorem distinct_eq_toList (is : List Nat) :
    distinct is = ((∅ : Positions).insertAll is).toList := by
  match is with
  | [] => rfl
  | [i] => simp [distinct, Positions.toList_insertAll, List.eraseDups_cons]
  | _ :: _ :: _ => rfl

theorem distinct_eq_eraseDups (is : List Nat) : distinct is = is.eraseDups := by
  simp [distinct_eq_toList, Positions.toList_insertAll, List.filter_eq_self.mpr]

@[simp] theorem mem_distinct {is : List Nat} {i : Nat} : i ∈ distinct is ↔ i ∈ is := by
  simp [distinct_eq_toList]

theorem nodup_distinct (is : List Nat) : (distinct is).Nodup := by
  rw [distinct_eq_toList]
  exact Positions.nodup_toList _

end StringTransform
