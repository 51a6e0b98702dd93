import KernelObjects.Text.Blank
import KernelObjects.Text.DecimalDigit
import KernelObjects.Text.Split

/-!
# Whole numbers as text

A numeral is an optional sign and decimal digits of any script, with single underscores allowed
between digits and white space allowed around the whole. It has at most `maxDigits` digits, and a
number that needs more cannot be written.

Results:
* `read?_nonneg`: without a minus no number below zero is read.
* `write?_eq_some_iff`: which numbers can be written, and how.
-/
namespace KernelObjects.Text.Numeral

/-- Longer numerals are neither read nor written. -/
def maxDigits : Nat := 4300

/-- The number that a list of digit values denotes, most significant first. -/
def ofDigits (ds : List Nat) : Nat :=
  ds.foldl (fun acc d => 10 * acc + d) 0

/-- The values of the digits of one group, a non-empty run between underscores. -/
def group? (s : List Char) : Option (List Nat) :=
  if s.isEmpty then none else s.mapM DecimalDigit.value?

/-- Digits with single underscores between them. -/
def magnitude? (s : List Char) : Option Nat := do
  let groups ← (splitOn '_' s).mapM group?
  let ds := groups.flatten
  if ds.length ≤ maxDigits then some (ofDigits ds) else none

/-- The number that a text denotes; `none` if it is no numeral. -/
def read? (s : List Char) : Option Int :=
  match Blank.trimBy Blank.isSpace s with
  | '+' :: r => (magnitude? r).map Int.ofNat
  | '-' :: r => (magnitude? r).map fun n => -(n : Int)
  | r => (magnitude? r).map Int.ofNat

theorem read?_nonneg {s : List Char} {n : Int} (hs : '-' ∉ s) (h : read? s = some n) : 0 ≤ n := by
  unfold read? at h
  split at h
  · obtain ⟨k, -, rfl⟩ := Option.map_eq_some_iff.1 h
    exact Int.natCast_nonneg k
  · next hr => exact absurd (Blank.trimBy_subset _ s (hr ▸ List.mem_cons_self ..)) hs
  · obtain ⟨k, -, rfl⟩ := Option.map_eq_some_iff.1 h
    exact Int.natCast_nonneg k

/-- The digits of a number, with a minus if it is negative; `none` if there are too many. -/
def write? (n : Int) : Option String :=
  if n.natAbs < Nat.pow 10 maxDigits then some (toString n) else none

theorem write?_eq_some_iff {n : Int} {s : String} :
    write? n = some s ↔ n.natAbs < Nat.pow 10 maxDigits ∧ toString n = s := by
  by_cases h : n.natAbs < Nat.pow 10 maxDigits <;> simp only [write?, h] <;> simp

end KernelObjects.Text.Numeral
