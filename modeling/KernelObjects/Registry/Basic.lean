import KernelObjects.Descriptor
import KernelObjects.Position
import KernelObjects.Program.Basic
import KernelObjects.Slots

/-!
# Registries

A registry keeps one descriptor for each struct and module name. Descriptors lie in an arena and are
addressed by their positions, which never change. Beside them the registry remembers which struct
first had a name or a base name, and which module first defined a struct.

Results:
* `update_size_le`: the size of the largest struct never decreases.
* `handle?_push`, `descriptor_push`: what a new descriptor does to the views `handle?` and
  `descriptor`.
-/
namespace KernelObjects

/-- The struct with the largest table so far; the first one of several. -/
structure Tracker where
  type : Option StructId := none
  size : Int := 0
  deriving DecidableEq, Inhabited, Repr

/-- Offers a struct to the tracker. -/
def Tracker.update (t : Tracker) (st : StructId) (size : Int) : Tracker :=
  if t.size < size then ⟨some st, size⟩ else t

theorem Tracker.update_size_le (t : Tracker) (st : StructId) (size : Int) :
    t.size ≤ (t.update st size).size := by
  unfold Tracker.update
  split
  · exact Int.le_of_lt ‹_›
  · exact Int.le_refl _

/-- The descriptors of an analysis and the names it has met. -/
structure Registry where
  arena : Array Descriptor := #[]
  index : Slots (Table String Nat) := ∅           -- by struct, then by module name
  names : Table String StructId := ∅              -- first struct of that name
  aliases : Table String StructId := ∅            -- first struct of that base name
  owners : Slots ModuleId := ∅                    -- by struct: first module that defines it
  deriving Inhabited

namespace Registry

def size (r : Registry) : Nat :=
  r.arena.size

/-- The descriptor at a position. -/
def descriptor (r : Registry) (handle : Nat) : Descriptor :=
  r.arena.getD handle default

/-- Changes the descriptor at a position. -/
def modify (r : Registry) (handle : Nat) (f : Descriptor → Descriptor) : Registry :=
  { r with arena := r.arena.modify handle f }

/-- The position of the descriptor of a struct under a module name. -/
def handle? (r : Registry) (st : StructId) (moduleName : String) : Option Nat :=
  (r.index.get? st.idx).bind (·.get? moduleName)

/-- Remembers the names of a struct that is met in a module; a literal has none. -/
def registerName (r : Registry) (S : Structs) (st : StructId) (home : ModuleId) (m : Module) :
    Registry :=
  let d := S.get st
  if d.isLiteral then r
  else
    { r with
      names := r.names.insertNew d.name st
      aliases := r.aliases.insertNew d.baseName st
      owners := if m.defines S st then r.owners.insertNew st.idx home else r.owners }

/-- Adds a descriptor at the end of the arena. -/
def push (r : Registry) (st : StructId) (moduleName : String) (d : Descriptor) : Registry :=
  let handles := (r.index.get? st.idx).getD ∅
  { r with
    index := r.index.insert st.idx (handles.insert moduleName r.arena.size)
    arena := r.arena.push d }

theorem handle?_push (r : Registry) (st st' : StructId) (m m' : String) (d : Descriptor) :
    (r.push st m d).handle? st' m' =
      if st' = st ∧ m' = m then some r.size else r.handle? st' m' := by
  simp only [push, handle?, Slots.get?_insert]
  by_cases h : st' = st
  · subst h
    by_cases hm : m' = m
    · simp [hm, size]
    · cases hs : r.index.get? st'.idx <;> simp [hm]
  · have hi : ¬ st'.idx = st.idx := fun he => h (by cases st; cases st'; simp_all)
    simp [h, hi]

theorem descriptor_push (r : Registry) (st : StructId) (m : String) (d : Descriptor) (h : Nat) :
    (r.push st m d).descriptor h = if h = r.size then d else r.descriptor h := by
  simp only [push, descriptor, size, Array.getD_eq_getD_getElem?, Array.getElem?_push]
  split <;> simp

theorem descriptor_modify (r : Registry) (h h' : Nat) (f : Descriptor → Descriptor)
    (hlt : h < r.size) :
    (r.modify h f).descriptor h' = if h' = h then f (r.descriptor h) else r.descriptor h' := by
  simp only [modify, descriptor, size, Array.getD_eq_getD_getElem?, Array.getElem?_modify] at *
  by_cases he : h' = h
  · subst he; simp [hlt]
  · simp [he, Ne.symm he]

theorem registerName_index (r : Registry) (S : Structs) (st : StructId) (home : ModuleId)
    (m : Module) : (r.registerName S st home m).index = r.index := by
  unfold registerName
  dsimp only
  split <;> rfl

theorem registerName_arena (r : Registry) (S : Structs) (st : StructId) (home : ModuleId)
    (m : Module) : (r.registerName S st home m).arena = r.arena := by
  unfold registerName
  dsimp only
  split <;> rfl

theorem handle?_registerName (r : Registry) (S : Structs) (st b : StructId) (home : ModuleId)
    (m : Module) (name : String) :
    (r.registerName S st home m).handle? b name = r.handle? b name := by
  simp only [handle?, registerName_index]

theorem descriptor_registerName (r : Registry) (S : Structs) (st : StructId) (home : ModuleId)
    (m : Module) (h : Nat) : (r.registerName S st home m).descriptor h = r.descriptor h := by
  simp only [descriptor, registerName_arena]

theorem size_registerName (r : Registry) (S : Structs) (st : StructId) (home : ModuleId)
    (m : Module) : (r.registerName S st home m).size = r.size := by
  simp only [size, registerName_arena]

/-- The struct of that name, else the first one of that base name. -/
def structNamed? (r : Registry) (name : String) : Option StructId :=
  (r.names.get? name).or (r.aliases.get? name)

/-- The given module if it defines the struct, else the first one met that does. -/
def definingModule? (r : Registry) (P : Program) (st : StructId) (m : Option ModuleId) :
    Option ModuleId :=
  match m with
  | some m => if (P.module m).defines P.structs st then some m else r.owners.get? st.idx
  | none => r.owners.get? st.idx

/-- The position of a descriptor by number; a negative one counts from the end. -/
def position (r : Registry) (i : Int) : Except Fault Nat :=
  signedIndex r.size i

end Registry

end KernelObjects
