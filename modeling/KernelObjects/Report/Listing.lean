import KernelObjects.Program.Text
import KernelObjects.Registry.Basic
import KernelObjects.Report.Basic

/-!
# Listings

The descriptors of a registry that have one property, a line each: the name and, for most
properties, the offsets concerned in ascending order. A line with a number that cannot be written
ends the listing.
-/
namespace KernelObjects

/-- What can be listed. -/
inductive Listing where
  | tables
  | flexible
  | funcPtr
  | funcTable
  | refcount
  | copyin
  | copyout
  | boundary
  | cred
  | credDetails
  deriving DecidableEq, Repr

namespace Listing

open Report (write)

/-- One line: a name and offsets. -/
def line (name : String) (offsets : List Int) : Except Fault String := do
  return String.intercalate " " (name :: (← offsets.mapM numberText)) ++ "\n"

/-- Offsets between brackets. -/
def bracketed (offsets : OffsetSet) : Except Fault String := do
  return "[" ++ String.intercalate ", " (← offsets.items.mapM numberText) ++ "]"

/-- One line for each descriptor with a property; the result is their number. -/
def flagged (ds : List Descriptor) (has : Descriptor → Bool)
    (offsets : Descriptor → List Int) : Report Nat := do
  let chosen := ds.filter has
  chosen.forM fun d => do write (← orRaise (line d.name (offsets d)))
  return chosen.length

/-- The first line of an expanded table. -/
def tableLine (d : Descriptor) : Except Fault String := do
  let size ← numberText d.allocSize
  return s!"{d.name}: {d.declaredSize} fields, {d.expandedSize} expanded, alloc size {size}\n"

/-- One entry of an expanded table. -/
def entryLine (e : FieldEntry) (i : Nat) : Except Fault String := do
  let offset ← numberText e.offset
  let size ← numberText e.size
  let real ← numberText e.realSize
  let flags := if e.flags.isEmpty then "" else " " ++ e.flags
  return s!"  [{i}] offset {offset} size {size} real {real}{flags}\n"

/-- The expanded table of a descriptor. -/
def table (d : Descriptor) : Report Unit := do
  write (← orRaise (tableLine d))
  d.shape.fields.toList.zipIdx.forM fun (e, i) => do write (← orRaise (entryLine e i))

/-- The largest struct: by the name of its first descriptor, or by its own without one. -/
def largest (S : Structs) (ds : List Descriptor) (t : Tracker) : Report Unit :=
  match t.type with
  | none => pure ()
  | some st => do
    let name ← match ds.find? fun d => d.type = st with
      | some d => pure d.name
      | none => orRaise (scopeName S st none)
    let size ← orRaise (numberText t.size)
    write s!"largest aggregate: {name} ({size} expanded fields)\n"

/-- Credentials: offsets from the definition and from calls that free them. -/
def credBlock (P : Program) (d : Descriptor) : Report Unit := do
  write s!"[+] {d.name}\n"
  let offsets ← orRaise (bracketed d.credOffsets)
  write s!"cred offsets: {offsets}\n"
  let freed ← orRaise (bracketed d.credFreeOffsets)
  write s!"cred free offsets: {freed}\n"
  d.credFreeSites.items.forM fun v => do write ((← orRaise (P.located v)) ++ "\n")

/-- A listing of descriptors; the result is their number, where it is counted. -/
def render (P : Program) (ds : List Descriptor) (t : Tracker) : Listing → Report (Option Nat)
  | .tables => do
    ds.forM table
    largest P.structs ds t
    return none
  | .flexible => some <$> flagged ds (·.flexible) fun d => d.lenByFlexible.mergeSort (· ≤ ·)
  | .funcPtr => some <$> flagged ds (·.hasFuncPtr) (·.funcPtrOffsets.items)
  | .funcTable => some <$> flagged ds (·.isFuncTable) fun _ => []
  | .refcount => some <$> flagged ds (·.hasRefcount) (·.refcountOffsets.items)
  | .copyin => some <$> flagged ds (·.controllable) (·.controllableOffsets.items)
  | .copyout => some <$> flagged ds (·.leakable) (·.leakableOffsets.items)
  | .boundary => some <$> flagged ds (·.hasBoundary) (·.boundaryOffsets.items)
  | .cred => some <$> flagged ds (·.isCred) fun _ => []
  | .credDetails => do
    let chosen := ds.filter fun d => d.isCred || !d.credFreeOffsets.isEmpty
    chosen.forM (credBlock P)
    return some chosen.length

end Listing

end KernelObjects
