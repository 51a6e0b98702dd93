import KernelObjects.OrderedSet
import KernelObjects.Ty

/-!
# Expanded field tables

A struct is described by a table in which every struct that it holds by value is spliced in, field
by field. The first entry of a spliced struct says how many entries it contributed; every other
entry counts 1. The offset map leads from a declared field to its first entry, and the element
types of an index are all types of which an object starts there.

For `struct outer { long a; int b; struct inner { int x, y, z; } c; }`:

    declared    a        b        c
    offset map  0        1        2
    expanded    a(1,@0)  b(1,@8)  c.x(3,@12)  c.y(1,@16)  c.z(1,@20)

Results:
* `size_spliced`: a splice contributes as many entries as the spliced table has.
* `getElem?_typeTable`: one pass finds the types at every index.
-/
namespace KernelObjects

/-- One entry of an expanded table. -/
structure FieldEntry where
  size : Int                            -- entries of the struct that starts here, else 1
  offset : Int                          -- in bytes, from the start of the object
  realSize : Int                        -- in bytes
  isArray : Bool := false
  isPointer : Bool := false
  isUnion : Bool := false
  isFuncPtr : Bool := false
  deriving DecidableEq, Inhabited, Repr

namespace FieldEntry

/-- The sole entry of a struct without fields. -/
def vacant : FieldEntry :=
  { size := 0, offset := 0, realSize := 0 }

/-- One letter for each property that holds. -/
def flags (e : FieldEntry) : String :=
  String.join
    [if e.isArray then "A" else "", if e.isPointer then "P" else "",
      if e.isUnion then "U" else "", if e.isFuncPtr then "F" else ""]

/-- The entry as part of an enclosing object. -/
def rebase (e : FieldEntry) (base : Int) (inUnion : Bool) : FieldEntry :=
  { e with offset := e.offset + base, isUnion := e.isUnion || inUnion }

end FieldEntry

/-- The entries of a table as part of an enclosing object. The first one stands for the whole. -/
def splicedFields (fields : Array FieldEntry) (base : Int) (isArray inUnion : Bool) :
    Array FieldEntry :=
  (fields.map fun e => e.rebase base inUnion).modify 0 fun e =>
    { e with size := fields.size, isArray := e.isArray || isArray }

theorem size_spliced (fields : Array FieldEntry) (base : Int) (isArray inUnion : Bool) :
    (splicedFields fields base isArray inUnion).size = fields.size := by
  simp [splicedFields]

/-- The expanded table of a struct, its offset map and its element types. -/
structure Shape where
  fields : Array FieldEntry := #[]
  offsetMap : Array Int := #[]
  elementTypes : Array (Int × Ty) := #[]    -- an index, and a type of which an object starts there
  deriving DecidableEq, Inhabited

namespace Shape

def addField (s : Shape) (e : FieldEntry) : Shape :=
  { s with fields := s.fields.push e }

def addOffset (s : Shape) (index : Int) : Shape :=
  { s with offsetMap := s.offsetMap.push index }

/-- Notes that an object of a type starts at an index. -/
def addType (s : Shape) (index : Int) (type : Ty) : Shape :=
  { s with elementTypes := s.elementTypes.push (index, type) }

/-- Appends the table of a struct that starts at byte `base`. -/
def splice (s other : Shape) (base : Int) (isArray inUnion : Bool) : Shape :=
  let start : Int := s.fields.size
  { s with
    fields := s.fields ++ splicedFields other.fields base isArray inUnion
    elementTypes := s.elementTypes ++ other.elementTypes.map fun (i, t) => (i + start, t) }

/-! ## Element types -/

/-- The type of a pair, if it belongs to an index. -/
def typeAt? (index : Int) (e : Int × Ty) : Option Ty :=
  if e.1 = index then some e.2 else none

/-- The types of which an object starts at an index. -/
def typesAt (s : Shape) (index : Int) : OrderedSet Ty :=
  .ofList (s.elementTypes.toList.filterMap (typeAt? index))

/-- Enters a pair into a table with one set of types for each index. -/
def enterType (table : Array (OrderedSet Ty)) (e : Int × Ty) : Array (OrderedSet Ty) :=
  if 0 ≤ e.1 then table.modify e.1.toNat (·.insert e.2) else table

/-- The types at each entry, found in one pass over all pairs. -/
def typeTable (s : Shape) : Array (OrderedSet Ty) :=
  s.elementTypes.toList.foldl enterType (Array.replicate s.fields.size ∅)

theorem getElem?_enterType (table : Array (OrderedSet Ty)) (e : Int × Ty) (i : Nat) :
    (enterType table e)[i]? = table[i]?.map fun s => s.insertAll (typeAt? i e).toList := by
  unfold enterType typeAt?
  by_cases h : e.1 = i
  · simp [h, Array.getElem?_modify, OrderedSet.insertAll]
  · by_cases hn : 0 ≤ e.1
    · have : ¬ e.1.toNat = i := by omega
      simp [h, hn, this, Array.getElem?_modify, OrderedSet.insertAll]
    · simp [h, hn, OrderedSet.insertAll]

theorem getElem?_foldl_enterType (es : List (Int × Ty)) (table : Array (OrderedSet Ty)) (i : Nat) :
    (es.foldl enterType table)[i]? =
      table[i]?.map fun s => s.insertAll (es.filterMap (typeAt? i)) := by
  induction es generalizing table with
  | nil => simp [OrderedSet.insertAll]
  | cons e es ih =>
    rw [List.foldl_cons, ih, getElem?_enterType, Option.map_map]
    congr 1
    funext s
    cases h : typeAt? i e <;> simp [h, OrderedSet.insertAll]

theorem getElem?_typeTable (s : Shape) (i : Nat) (h : i < s.fields.size) :
    s.typeTable[i]? = some (s.typesAt i) := by
  rw [typeTable, getElem?_foldl_enterType, Array.getElem?_replicate, if_pos h]
  rfl

end Shape

end KernelObjects
