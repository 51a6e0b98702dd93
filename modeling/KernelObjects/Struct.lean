import KernelObjects.Text.DecimalDigit
import KernelObjects.Ty

/-!
# Struct types

A struct has a name, or none if it is a literal, and a body, or none if it is opaque. A union is a
struct whose members share their place. The linker appends `.` and a number to the name of a
duplicate; the base name leaves that out.

Results:
* `get_define`, `get_setBody`, `name_setBody`: what an operation does to the view `get`.
-/
namespace KernelObjects

/-- The definition of a struct. -/
structure StructDef where
  name : String := ""                   -- empty: a literal struct
  body : Option (List Ty) := none       -- absent: an opaque struct
  packed : Bool := false
  unionMark : Option Bool := none       -- absent: the name decides
  deriving DecidableEq, Inhabited, Repr

namespace StructDef

/-- The declared fields; an opaque struct has none. -/
def elements (d : StructDef) : List Ty :=
  d.body.getD []

def isOpaque (d : StructDef) : Bool :=
  d.body.isNone

def isLiteral (d : StructDef) : Bool :=
  d.name.toList.isEmpty

/-- A struct is a union if it is marked as one, or, without a mark, named `union.` something. -/
def isUnion (d : StructDef) : Bool :=
  d.unionMark.getD ("union.".toList.isPrefixOf d.name.toList)

end StructDef

/-! ## Base names -/

/-- Drops `.` and at least one decimal digit from the end of a name. -/
def dropNumber (s : List Char) : List Char :=
  let isDigit := fun c => (Text.DecimalDigit.value? c).isSome
  match s.reverse.span isDigit with
  | (_ :: _, '.' :: rest) => rest.reverse
  | _ => s

/-- The name without the number of a duplicate. One final line feed is not looked at. -/
def baseNameChars (s : List Char) : List Char :=
  match s.reverse with
  | '\n' :: r => dropNumber r.reverse ++ ['\n']
  | _ => dropNumber s

/-- The name without the number of a duplicate. -/
def StructDef.baseName (d : StructDef) : String :=
  String.ofList (baseNameChars d.name.toList)

/-! ## All structs of a program -/

/-- The structs, each at the position that is its identity. -/
structure Structs where
  defs : Array StructDef := #[]
  deriving Inhabited

namespace Structs

def size (S : Structs) : Nat :=
  S.defs.size

/-- The definition of a struct. -/
def get (S : Structs) (st : StructId) : StructDef :=
  S.defs.getD st.idx {}

/-- Adds a struct. -/
def define (S : Structs) (d : StructDef) : StructId × Structs :=
  (⟨S.size⟩, ⟨S.defs.push d⟩)

/-- Gives a struct a body, also if it has one. -/
def setBody (S : Structs) (st : StructId) (elements : List Ty) (packed : Bool) : Structs :=
  ⟨S.defs.modify st.idx fun d => { d with body := some elements, packed }⟩

theorem lt_size_of_body {S : Structs} {st : StructId} (h : (S.get st).isOpaque = false) :
    st.idx < S.size := by
  apply Nat.lt_of_not_le
  intro hle
  simp only [get, Array.getD_eq_getD_getElem?, Array.getElem?_eq_none hle] at h
  cases h

theorem get_define (S : Structs) (d : StructDef) (st : StructId) :
    (S.define d).2.get st = if st.idx = S.size then d else S.get st := by
  simp only [define, get, size, Array.getD_eq_getD_getElem?, Array.getElem?_push]
  split <;> simp

theorem get_setBody (S : Structs) (st st' : StructId) (es : List Ty) (p : Bool)
    (h : st.idx < S.size) :
    (S.setBody st es p).get st' =
      if st' = st then { S.get st with body := some es, packed := p } else S.get st' := by
  simp only [setBody, get, size, Array.getD_eq_getD_getElem?, Array.getElem?_modify] at *
  by_cases he : st' = st
  · subst he; simp [h]
  · have : ¬ st.idx = st'.idx := fun h' => he (by cases st; cases st'; simp_all)
    simp [he, this]

theorem name_setBody (S : Structs) (st st' : StructId) (es : List Ty) (p : Bool) :
    ((S.setBody st es p).get st').name = (S.get st').name := by
  simp only [setBody, get, Array.getD_eq_getD_getElem?, Array.getElem?_modify]
  split
  · cases S.defs[st'.idx]? <;> rfl
  · rfl

/-- The text of a struct, given the texts of those that its fields speak of: its name, or the types
of its fields if it has none. -/
def textWith (S : Structs) (inner : StructId → Except Fault String) (st : StructId) :
    Except Fault String :=
  let d := S.get st
  if d.isLiteral then do
    let fields := String.intercalate ", " (← Ty.texts inner d.elements)
    return if d.packed then "<\x7b " ++ fields ++ " \x7d>" else "\x7b " ++ fields ++ " \x7d"
  else return "%" ++ d.name

/-- The text of a struct. The first argument bounds how deep literals are written out; it is reached
only by a literal that leads back to itself, through pointers or not, and there is no end to
that. -/
def textTo (S : Structs) : Nat → StructId → Except Fault String
  | 0, _ => .error .endless
  | n + 1, st => S.textWith (S.textTo n) st

/-- The text of a struct. -/
def structText (S : Structs) (st : StructId) : Except Fault String :=
  S.textTo (S.size + 1) st

/-- The text of a type. -/
def text (S : Structs) (t : Ty) : Except Fault String :=
  t.text S.structText

/-- The name that a fault gives a struct: its own, or its text if it has none. -/
def label (S : Structs) (st : StructId) : Except Fault String :=
  if (S.get st).isLiteral then S.structText st else .ok (S.get st).name

/-- One line about a struct: its name and its field count. -/
def summary (S : Structs) (st : StructId) : String :=
  let d := S.get st
  let name := if d.isLiteral then "<literal>" else d.name
  let state := if d.isOpaque then "opaque" else s!"{d.elements.length} fields"
  s!"StructType({name}, {state})"

/-- Adds the struct that a field holds by value, if it is new. -/
def addEmbedded (found : List StructId) (e : Ty) : List StructId :=
  match e.embedded? with
  | some inner => if inner ∈ found then found else found ++ [inner]
  | none => found

/-- The structs that a struct holds by value, each once, in the order of its fields. -/
def embedded (S : Structs) (st : StructId) : List StructId :=
  (S.get st).elements.foldl addEmbedded []

end Structs

end KernelObjects
