/-!
# Values at numbered slots

A finite map on the positions of an arena, kept as an array with a slot for each position, so that
a look-up is one access. Slots beyond the end are empty.

Results:
* `get?_insert`, `get?_insertNew`: what an insertion does to the view `get?`.
-/
namespace KernelObjects

/-- What is kept at some of the positions of an arena. -/
structure Slots (α : Type) where
  slots : Array (Option α) := #[]
  deriving DecidableEq, Inhabited, Repr

namespace Slots

variable {α : Type}

instance : EmptyCollection (Slots α) := ⟨{}⟩

/-- What is kept at a position. -/
def get? (s : Slots α) (i : Nat) : Option α :=
  s.slots[i]?.join

/-- Adds empty slots at the end until there is one at a position. -/
def reserve (slots : Array (Option α)) (i : Nat) : Array (Option α) :=
  slots ++ Array.replicate (i + 1 - slots.size) none

/-- Keeps a value at a position, in place of the one that is there. -/
def insert (s : Slots α) (i : Nat) (a : α) : Slots α :=
  ⟨(reserve s.slots i).setIfInBounds i (some a)⟩

/-- Keeps a value at a position that has none. -/
def insertNew (s : Slots α) (i : Nat) (a : α) : Slots α :=
  if (s.get? i).isSome then s else s.insert i a

theorem lt_size_reserve (slots : Array (Option α)) (i : Nat) : i < (reserve slots i).size := by
  simp only [reserve, Array.size_append, Array.size_replicate]
  omega

theorem join_getElem?_reserve (slots : Array (Option α)) (i j : Nat) :
    (reserve slots i)[j]?.join = slots[j]?.join := by
  rw [reserve, Array.getElem?_append]
  split
  · rfl
  · next h =>
    rw [Array.getElem?_replicate, Array.getElem?_eq_none (Nat.le_of_not_lt h)]
    split <;> rfl

@[simp]
theorem get?_empty (i : Nat) : (∅ : Slots α).get? i = none := rfl

@[simp]
theorem get?_insert (s : Slots α) (i j : Nat) (a : α) :
    (s.insert i a).get? j = if j = i then some a else s.get? j := by
  unfold insert get?
  rw [Array.getElem?_setIfInBounds]
  by_cases h : j = i
  · subst h
    simp [lt_size_reserve]
  · rw [if_neg (Ne.symm h), if_neg h, join_getElem?_reserve]

@[simp]
theorem get?_insertNew (s : Slots α) (i j : Nat) (a : α) :
    (s.insertNew i a).get? j = if j = i then some ((s.get? i).getD a) else s.get? j := by
  unfold insertNew
  cases h : s.get? i <;> simp
  intro he
  rw [he, h]

end Slots

end KernelObjects
