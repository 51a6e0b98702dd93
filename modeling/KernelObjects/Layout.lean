import KernelObjects.Fault
import KernelObjects.Part
import KernelObjects.Position
import KernelObjects.Slots
import KernelObjects.Struct
import KernelObjects.Target

/-!
# Layouts

Sizes, alignments and field offsets on one target. Each field of a struct is placed at the next
multiple of its alignment, or right after the last one in a packed struct; the members of a union
all start at 0. The size is rounded up to the alignment of the struct.

The layout of a struct is computed once and then remembered, also if the query that asked for it
fails afterwards. So a query is an action on the memo.

Results:
* `get_setMemo`: what a new memo does to the view `get`.
* `onTarget_eq`: a query through a `Layout` is the query on its memo.
-/
namespace KernelObjects

/-- The layout of a struct: the offset of each field, the size and the alignment, in bytes. -/
structure StructLayout where
  offsets : Array Int
  size : Int
  alignment : Int
  deriving DecidableEq, Inhabited, Repr

/-- The least multiple of `align` that is not below `value`, for a positive `align`; the same
floor division for a negative one. -/
def roundUp (value align : Int) : Int :=
  (value + align - 1).fdiv align * align

/-- `roundUp`, refusing an alignment of zero. -/
def roundUp? (value align : Int) : Except Fault Int :=
  if align = 0 then .error .zeroAlignment else .ok (roundUp value align)

/-! ## Placing fields -/

/-- The part of a struct that has been placed. -/
structure Placement where
  offsets : Array Int := #[]
  size : Int := 0
  align : Int := 1
  deriving DecidableEq, Repr

/-- Places one more field of the given alignment and size. -/
def Placement.add (p : Placement) (isUnion : Bool) (align size : Int) : Except Fault Placement :=
  if isUnion then
    .ok ⟨p.offsets.push 0, max p.size size, max p.align align⟩
  else
    match roundUp? p.size align with
    | .ok start => .ok ⟨p.offsets.push start, start + size, max p.align align⟩
    | .error e => .error e

/-- The layout once all fields are placed. -/
def Placement.finish (p : Placement) (packed : Bool) (aggregateAlign : Int) : StructLayout :=
  let align := if packed then p.align else max p.align aggregateAlign
  ⟨p.offsets, roundUp p.size align, align⟩

/-! ## Queries -/

/-- The struct layouts that are known, by struct. -/
abbrev Memo := Slots StructLayout

/-- A question about sizes and offsets: it may fail, and it may leave layouts in the memo. -/
abbrev LayoutQuery (α : Type) := EStateM Fault Memo α

section

variable {m : Type → Type} [Monad m] [MonadExceptOf Fault m]
variable (t : Target) (S : Structs) (ask : StructId → m StructLayout)

/-- The alignment of a type, given how to lay out a struct. -/
def alignmentWith : Ty → m Int
  | .int bits => pure (t.intAlign bits)
  | .ptr .. => pure t.pointerAlign
  | .array e _ => alignmentWith e
  | .struct s => do return (← ask s).alignment
  | ty => throw (.worded .noAlignment (S.text ty))

/-- The distance in bytes between consecutive objects of a type, given how to lay out a struct. -/
def allocSizeWith : Ty → m Int
  | .int bits => orRaise (roundUp? (Target.intBytes bits) (t.intAlign bits))
  | .ptr .. => orRaise (roundUp? t.pointerSize t.pointerAlign)
  | .array e n => do return n * (← allocSizeWith e)
  | .struct s => do return (← ask s).size
  | .unknown => throw .unknownType
  | ty => throw (.worded .notSized (S.text ty))

/-- The alignment of a field of a given type. -/
def fieldAlignWith (packed : Bool) (e : Ty) : m Int :=
  if packed then pure 1 else alignmentWith t S ask e

/-- Places fields in order. The alignment of a field is asked for before its size. -/
def placeWith (isUnion packed : Bool) : List Ty → Placement → m Placement
  | [], p => pure p
  | e :: es, p => do
    let align ← fieldAlignWith t S ask packed e
    let size ← allocSizeWith t S ask e
    placeWith isUnion packed es (← orRaise (p.add isUnion align size))

end

/-- The layout of a struct, from the memo or from its body. The first argument bounds how deep
structs are nested by value; it is reached only by a struct that embeds itself, and there is no end
to laying that out. -/
def structLayoutTo (t : Target) (S : Structs) : Nat → StructId → LayoutQuery StructLayout
  | 0, _ => throw .endless
  | n + 1, st => do
    match (← get).get? st.idx with
    | some known => return known
    | none =>
      let d := S.get st
      if d.isOpaque then throw (.worded (.opaqueType · .layOut) (S.label st))
      else
        let p ← placeWith t S (structLayoutTo t S n) d.isUnion d.packed d.elements {}
        let layout := p.finish d.packed t.aggregateAlign
        modify (·.insert st.idx layout)
        return layout

section

variable (t : Target) (S : Structs)

/-- The layout of a struct. -/
def structLayout (st : StructId) : LayoutQuery StructLayout :=
  structLayoutTo t S (S.size + 1) st

/-- The alignment of a type. -/
def alignment (ty : Ty) : LayoutQuery Int :=
  alignmentWith t S (structLayout t S) ty

/-- The distance in bytes between consecutive objects of a type. -/
def allocSize (ty : Ty) : LayoutQuery Int :=
  allocSizeWith t S (structLayout t S) ty

/-- The bytes that a value of a type fills. -/
def storeSize : Ty → LayoutQuery Int
  | .int bits => pure (Target.intBytes bits)
  | .ptr .. => pure t.pointerSize
  | ty => allocSize t S ty

end

/-! ## Targets with their memos -/

/-- A target and what is known about structs on it. -/
structure Layout where
  target : Target := {}
  memo : Memo := ∅
  deriving Inhabited

/-- All layouts, each at the position that is its identity. -/
structure Layouts where
  all : Array Layout := #[]
  deriving Inhabited

namespace Layouts

def get (L : Layouts) (id : LayoutId) : Layout :=
  L.all.getD id.idx {}

/-- The target of a layout. -/
def targetOf (L : Layouts) (id : LayoutId) : Target :=
  (L.get id).target

/-- Adds a target about which nothing is known. -/
def define (L : Layouts) (t : Target) : LayoutId × Layouts :=
  (⟨L.all.size⟩, ⟨L.all.push { target := t }⟩)

/-- Replaces the memo of a layout. -/
def setMemo (L : Layouts) (id : LayoutId) (memo : Memo) : Layouts :=
  ⟨L.all.modify id.idx fun l => { l with memo }⟩

/-- Asks a layout a question that depends on its target. -/
def onTarget {α : Type} (id : LayoutId) (query : Target → LayoutQuery α) :
    EStateM Fault Layouts α :=
  fun L => onPart (fun L => (L.get id).memo) (fun m L => L.setMemo id m) (query (L.get id).target) L

theorem get_setMemo (L : Layouts) (id id' : LayoutId) (memo : Memo) :
    (L.setMemo id memo).get id' =
      if id' = id ∧ id.idx < L.all.size then { L.get id with memo } else L.get id' := by
  simp only [setMemo, get, Array.getD_eq_getD_getElem?, Array.getElem?_modify]
  by_cases h : id.idx = id'.idx
  · obtain rfl : id' = id := by cases id; cases id'; simp_all
    by_cases hlt : id'.idx < L.all.size
    · simp [hlt]
    · simp [hlt]
  · have : ¬ id' = id := fun he => h (he ▸ rfl)
    simp [h, this]

theorem targetOf_setMemo (L : Layouts) (id id' : LayoutId) (memo : Memo) :
    (L.setMemo id memo).targetOf id' = L.targetOf id' := by
  simp only [targetOf, get_setMemo]
  split
  · next h => rw [h.1]
  · rfl

theorem onTarget_eq {α : Type} (L : Layouts) (id : LayoutId) (query : Target → LayoutQuery α) :
    onTarget id query L =
      match query (L.targetOf id) (L.get id).memo with
      | .ok a m => .ok a (L.setMemo id m)
      | .error e m => .error e (L.setMemo id m) := by
  unfold onTarget onPart targetOf
  cases query (L.get id).target (L.get id).memo <;> rfl

end Layouts

/-- The offset of a field by position; a negative position counts from the end. -/
def StructLayout.offsetAt (l : StructLayout) (i : Int) : Except Fault Int :=
  itemAt l.offsets i

end KernelObjects
