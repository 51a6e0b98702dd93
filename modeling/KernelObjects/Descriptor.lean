import KernelObjects.Fault
import KernelObjects.OffsetSet
import KernelObjects.Provenance.Ledger
import KernelObjects.Shape
import KernelObjects.Struct

/-!
# Descriptors

All that is known about one struct of one module: its expanded table, the structs that contain it,
what follows from the table, and what other analyses noted about its allocation, its leaks and its
guards. The table can be changed until the descriptor is finished; notes are only ever added.

Results:
* `shape_settle`: settling the properties leaves a table with entries alone.
* `shape_note`: no note changes the table.
* `mem_places`: the ordered view of the containers has the same members.
-/
namespace KernelObjects

/-- What is known about one struct of one module. Offsets are in bytes. -/
structure Descriptor where
  type : StructId
  home : ModuleId
  layout : LayoutId
  settings : Option SettingsId
  name : String
  shape : Shape := {}
  finished : Bool := false
  containers : List (StructId × Int) := []         -- a container and the offset in it
  -- an array of no fixed length at the end
  flexible : Bool := false
  lenByFlexible : List Int := []
  lenByLeakable : OrderedSet Int := ∅
  -- function pointers
  hasFuncPtr : Bool := false
  isFuncTable : Bool := false
  funcPtrOffsets : OffsetSet := ∅
  -- copied out, copied in
  leakable : Bool := false
  leakableOffsets : OffsetSet := ∅
  copyoutInsts : OrderedSet ValueId := ∅
  controllable : Bool := false
  controllableOffsets : OffsetSet := ∅
  copyinInsts : OrderedSet ValueId := ∅
  -- boundaries and reference counters
  hasBoundary : Bool := false
  boundaryOffsets : OffsetSet := ∅
  hasRefcount : Bool := false
  refcountOffsets : OffsetSet := ∅
  -- credentials
  isCred : Bool := false
  credAnalyzed : Bool := false
  credOffsets : OffsetSet := ∅
  credFreeOffsets : OffsetSet := ∅
  credFreeSites : OrderedSet ValueId := ∅
  -- allocation and leaks
  allocSize : Int := 0
  allocSites : OrderedSet ValueId := ∅
  allocInsts : OrderedSet ValueId := ∅
  leakInsts : OrderedSet ValueId := ∅
  allocChecks : CheckMap := ∅
  otherChecks : CheckMap := ∅
  ledger : Ledger := {}

/-- What another analysis may note about a struct, leak sites apart. -/
inductive Note where
  | allocSize (size : Int)
  | allocSite (call : ValueId)
  | allocInst (inst : ValueId)
  | leakInst (inst : ValueId)
  | leakable (offset : Int) (inst : Option ValueId)
  | controllable (offset : Int) (inst : Option ValueId)
  | boundary (offset : Int)
  | refcount (offset : Int)
  | credFree (call : ValueId) (offset : Int)
  | flexibleLen (offset : Int)
  deriving DecidableEq, Repr

instance : Inhabited Descriptor :=
  ⟨{ type := default, home := default, layout := default, settings := none, name := "" }⟩

namespace Descriptor

/-! ## Building -/

/-- Changes the table of a descriptor that is not finished. -/
def reshape (d : Descriptor) (f : Shape → Shape) : Except Fault Descriptor :=
  if d.finished then .error (.tableFinished d.name) else .ok { d with shape := f d.shape }

/-- Notes that the struct lies in a container; this is open to finished descriptors too. -/
def addContainer (d : Descriptor) (container : StructId) (offset : Int) : Descriptor :=
  { d with containers := (container, offset) :: d.containers }

/-- Settles what follows from the table. A table without entries gets the vacant one. -/
def settle (d : Descriptor) : Descriptor :=
  let fields := if d.shape.fields.isEmpty then #[FieldEntry.vacant] else d.shape.fields
  let pointers := fields.toList.filter FieldEntry.isFuncPtr
  { d with
    shape := { d.shape with fields }
    funcPtrOffsets := d.funcPtrOffsets.union (.ofList (pointers.map FieldEntry.offset))
    hasFuncPtr := !pointers.isEmpty
    isFuncTable := fields[0]?.any (fun e => e.size ≠ 0) && pointers.length == fields.size
    hasRefcount := !d.refcountOffsets.isEmpty
    isCred := !d.credOffsets.isEmpty
    credAnalyzed := true }

/-- Whether the allocation size still has to be asked for. -/
def lacksAllocSize (d : Descriptor) (S : Structs) : Bool :=
  d.allocSize = 0 && !(S.get d.type).isOpaque

def setAllocSize (d : Descriptor) (size : Int) : Descriptor :=
  { d with allocSize := size }

/-- Closes the table. -/
def finish (d : Descriptor) : Descriptor :=
  { d with finished := true }

theorem shape_settle (d : Descriptor) (h : d.shape.fields ≠ #[]) : d.settle.shape = d.shape := by
  simp [settle, h]

/-! ## Asking -/

/-- The number of declared fields. -/
def declaredSize (d : Descriptor) : Nat :=
  d.shape.offsetMap.size

/-- The number of entries. -/
def expandedSize (d : Descriptor) : Nat :=
  d.shape.fields.size

/-- The fault of an index outside a field table. -/
def noSuchField (numbering : FieldNumbering) (index : Int) (size : Nat) : Fault :=
  .worded (fun _ => .fieldIndex numbering index size) (numberText index)

/-- The entry at an index. -/
def entry (d : Descriptor) (index : Int) : Except Fault FieldEntry :=
  match if 0 ≤ index then d.shape.fields[index.toNat]? else none with
  | some e => .ok e
  | none => .error (noSuchField .expanded index d.expandedSize)

/-- The first entry of a declared field. -/
def expandedIndex (d : Descriptor) (field : Int) : Except Fault Int :=
  match if 0 ≤ field then d.shape.offsetMap[field.toNat]? else none with
  | some i => .ok i
  | none => .error (noSuchField .declared field d.declaredSize)

/-- Whether the struct has no fields, told from the first entry. -/
def isEmpty (d : Descriptor) : Except Fault Bool :=
  match d.shape.fields[0]? with
  | some e => .ok (e.size = 0)
  | none => .error .outOfRange

/-- The container, if this struct lies in it at that offset. -/
def containerAt (d : Descriptor) (S : Structs) (container : StructId) (offset : Int) :
    Except Fault (Option StructId) :=
  if (S.get container).isOpaque then
    .error (.worded (.opaqueType · .queryContainers) (S.label container))
  else .ok (if (container, offset) ∈ d.containers then some container else none)

/-- The order of places in containers: by container, then by offset. -/
def placeLE (a b : StructId × Int) : Bool :=
  a.1.idx < b.1.idx || (a.1 == b.1 && a.2 ≤ b.2)

/-- The containers and the offsets in them, each pair once, in order. -/
def places (d : Descriptor) : List (StructId × Int) :=
  (d.containers.mergeSort placeLE).eraseReps

theorem mem_eraseReps_loop {α : Type} [BEq α] [LawfulBEq α] {a b : α} {xs kept : List α} :
    a ∈ List.eraseRepsBy.loop (· == ·) b xs kept ↔ a = b ∨ a ∈ xs ∨ a ∈ kept := by
  induction xs generalizing b kept with
  | nil => simp [List.eraseRepsBy.loop, or_comm]
  | cons x xs ih =>
    rw [List.eraseRepsBy.loop]
    split
    · next h =>
      simp only [beq_iff_eq] at h
      rw [ih, h, List.mem_cons, or_assoc, or_self_left]
    · simp only [ih, List.mem_cons, or_left_comm, or_assoc]

theorem mem_eraseReps {α : Type} [BEq α] [LawfulBEq α] {a : α} {xs : List α} :
    a ∈ xs.eraseReps ↔ a ∈ xs := by
  cases xs with
  | nil => rfl
  | cons x xs =>
    have : (x :: xs).eraseReps = List.eraseRepsBy.loop (· == ·) x xs [] := rfl
    rw [this, mem_eraseReps_loop]
    simp

theorem mem_places (d : Descriptor) (p : StructId × Int) : p ∈ d.places ↔ p ∈ d.containers := by
  rw [places, mem_eraseReps, List.mem_mergeSort]

/-- One line about a descriptor. -/
def summary (d : Descriptor) : String :=
  s!"StructInfo({d.name}, {d.declaredSize} fields, {d.expandedSize} expanded)"

/-! ## Noting -/

/-- Adds a note. -/
def note (d : Descriptor) : Note → Descriptor
  | .allocSize size => d.setAllocSize size
  | .allocSite call => { d with allocSites := d.allocSites.insert call }
  | .allocInst inst => { d with allocInsts := d.allocInsts.insert inst }
  | .leakInst inst => { d with leakInsts := d.leakInsts.insert inst }
  | .leakable offset inst =>
    { d with
      leakable := true
      leakableOffsets := d.leakableOffsets.insert offset
      copyoutInsts := d.copyoutInsts.insertAll inst.toList }
  | .controllable offset inst =>
    { d with
      controllable := true
      controllableOffsets := d.controllableOffsets.insert offset
      copyinInsts := d.copyinInsts.insertAll inst.toList }
  | .boundary offset =>
    { d with hasBoundary := true, boundaryOffsets := d.boundaryOffsets.insert offset }
  | .refcount offset =>
    { d with hasRefcount := true, refcountOffsets := d.refcountOffsets.insert offset }
  | .credFree call offset =>
    { d with
      credFreeSites := d.credFreeSites.insert call
      credFreeOffsets := d.credFreeOffsets.insert offset }
  | .flexibleLen offset => { d with lenByFlexible := d.lenByFlexible ++ [offset] }

theorem shape_note (d : Descriptor) (n : Note) : (d.note n).shape = d.shape := by
  cases n <;> rfl

/-- Enters a leak site and its length field; `none` if there is such a site already. -/
def addLeakSource (d : Descriptor) (offset : Int) (v : ValueId) (site : SiteId) :
    Option Descriptor :=
  (d.ledger.add offset v site).map fun ledger =>
    { d with ledger, lenByLeakable := d.lenByLeakable.insert offset }

end Descriptor

end KernelObjects
