import KernelObjects.Fault

/-!
# Positions that may count from the end

A position from 0 on counts from the start, a negative one from the end, where -1 is the last item.

Results:
* `signedIndex?_eq_some_iff`: which positions denote an item, and which one.
-/
namespace KernelObjects

/-- The item number that a position denotes among `size` items. -/
def signedIndex? (size : Nat) (i : Int) : Option Nat :=
  let n := if i < 0 then i + size else i
  if 0 ≤ n ∧ n < size then some n.toNat else none

/-- The item number that a position denotes, or a fault. -/
def signedIndex (size : Nat) (i : Int) : Except Fault Nat :=
  match signedIndex? size i with
  | some n => .ok n
  | none => .error .outOfRange

/-- The item at a position. -/
def itemAt {α : Type} (xs : Array α) (i : Int) : Except Fault α :=
  match (signedIndex? xs.size i).bind fun n => xs[n]? with
  | some x => .ok x
  | none => .error .outOfRange

theorem signedIndex?_eq_some_iff {size n : Nat} {i : Int} :
    signedIndex? size i = some n ↔
      n < size ∧ ((n : Int) = i ∨ (n : Int) = i + size) ∧ i < size := by
  unfold signedIndex?
  by_cases h : i < 0
  · simp only [h, if_true]
    split
    · simp only [Option.some.injEq]; omega
    · simp only [reduceCtorEq, false_iff]; omega
  · simp only [h, if_false]
    split
    · simp only [Option.some.injEq]; omega
    · simp only [reduceCtorEq, false_iff]; omega

theorem itemAt_ofNat {α : Type} (xs : Array α) (n : Nat) (h : n < xs.size) :
    itemAt xs n = .ok xs[n] := by
  have : signedIndex? xs.size n = some n := by
    rw [signedIndex?_eq_some_iff]
    omega
  simp [itemAt, this, h]

end KernelObjects
