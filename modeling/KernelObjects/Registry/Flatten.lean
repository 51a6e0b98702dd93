import KernelObjects.Log
import KernelObjects.Registry.Basic
import KernelObjects.Settings

/-!
# Flattening

The descriptor of a struct is built from the descriptors of the structs that it holds by value, so
those are built first. Each declared field is then visited in order:

* a number, a pointer or an array of those gives one entry;
* a struct or an array of structs has its table spliced in, and its descriptor notes the container
  and the offset, as do the descriptors of all that it holds in turn;
* a union is flattened as its first member of the largest size; its other members only note the
  container.

Pointers are not followed. What was noted before a failure stays.

Results:
* `handle?_build`: building adds one position to the registry and moves none.
-/
namespace KernelObjects

/-- What flattening reads and does not change. -/
structure FlattenContext where
  program : Program
  settings : Settings
  settingsId : SettingsId
  home : ModuleId
  layout : LayoutId

namespace FlattenContext

def structs (cx : FlattenContext) : Structs :=
  cx.program.structs

def module (cx : FlattenContext) : Module :=
  cx.program.module cx.home

end FlattenContext

/-- A question to a layout: a struct, and how many descriptors there were when it was asked. -/
structure Question where
  struct : StructId
  built : Nat
  deriving DecidableEq, Repr

/-- What flattening changes. -/
structure FlattenState where
  layouts : Layouts
  registry : Registry
  tracker : Tracker
  log : Log
  asked : List Question := []           -- the questions of this run, latest first

/-- An action of flattening; what it did before it failed stays. -/
abbrev Flatten (α : Type) := EStateM Fault FlattenState α

namespace Flatten

/-- Asks one of the layouts. -/
def askLayout {α : Type} (id : LayoutId) (query : Target → LayoutQuery α) : Flatten α :=
  onPart FlattenState.layouts (fun layouts s => { s with layouts }) (Layouts.onTarget id query)

/-- Changes the registry. -/
def onRegistry (f : Registry → Registry) : Flatten Unit :=
  modify fun s => { s with registry := f s.registry }

/-- Writes to the log. -/
def emit (level : Level) (message : String) : Flatten Unit :=
  modify fun s => { s with log := s.log.emit level .registry message }

variable (cx : FlattenContext)

/-- Asks a layout how a struct is laid out. -/
def layOut (id : LayoutId) (st : StructId) : Flatten StructLayout := do
  modify fun s => { s with asked := ⟨st, s.registry.size⟩ :: s.asked }
  askLayout id fun t => structLayout t cx.structs st

/-- Asks a layout for the size of a type. -/
def sizeOf (id : LayoutId) (type : Ty) : Flatten Int := do
  let target := (← get).layouts.targetOf id
  allocSizeWith target cx.structs (layOut cx id) type

/-- The position of a descriptor that has to be there. -/
def built (st : StructId) : Flatten Nat := do
  match (← get).registry.handle? st cx.module.name with
  | some handle => return handle
  | none => throw .missingDescriptor

/-! ## Containers -/

/-- Notes a container in what a field embeds, given how to note it in a descriptor. -/
def noteInner (note : Nat → Int → Flatten Unit) (placed : StructLayout) (offset : Int) :
    Ty × Nat → Flatten Unit
  | (elem, i) =>
    match elem.embedded? with
    | none => pure ()
    | some inner => do
      let handle ← built cx inner
      let start ← orRaise (placed.offsetAt i)
      note handle (offset + start)

/-- Notes a container in a descriptor and in those of all structs that it holds, at their offsets.
The depth of nesting is bounded; the bound is reached only by a struct that holds itself, and there
is no end to its containers. -/
def recordContainer (container : StructId) : Nat → Nat → Int → Flatten Unit
  | 0, _, _ => throw .endless
  | n + 1, handle, offset => do
    onRegistry fun r => r.modify handle fun d => d.addContainer container offset
    let d := (← get).registry.descriptor handle
    let placed ← layOut cx d.layout d.type
    (cx.structs.get d.type).elements.zipIdx.forM
      (noteInner cx (recordContainer container n) placed offset)

/-- Notes a container in the descriptor of a struct and in those of all structs that it holds. -/
def noteContainer (container : StructId) (handle : Nat) (offset : Int) : Flatten Unit :=
  recordContainer cx container (cx.structs.size + 1) handle offset

/-! ## Fields -/

/-- The entry of a field that is no struct. -/
def scalarEntry (elem : Ty) (offset size : Int) (inUnion : Bool) : FieldEntry :=
  { size := 1, offset, realSize := size,
    isArray := elem.isArray, isPointer := elem.isPointer, isUnion := inUnion,
    isFuncPtr := elem.isFunctionPointer }

/-- Whether a field is a pointer to credentials. -/
def pointsToCred (elem : Ty) : Bool :=
  elem.isPointer &&
    match elem.underlyingStruct? with
    | some st => (cx.structs.get st).baseName = cx.settings.credType
    | none => false

/-- An array of no fixed length. -/
def isOpenArray : Ty → Bool
  | .array _ n => n = 0
  | _ => false

/-- What a nested descriptor adds to the one around it. -/
def embed (d nested : Descriptor) (inner : StructId) (offset : Int)
    (isArray inUnion isLast : Bool) : Descriptor :=
  let definition := cx.structs.get inner
  let counters := nested.refcountOffsets.shift offset
  let isCounter := definition.baseName ∈ cx.settings.refcountTypes
  { d with
    shape := d.shape.splice nested.shape offset isArray (inUnion || definition.isUnion)
    refcountOffsets :=
      d.refcountOffsets.union (if isCounter then counters.insert offset else counters)
    credOffsets := d.credOffsets.union (nested.credOffsets.shift offset)
    flexible := d.flexible || (isLast && nested.flexible) }

/-- What the type of a field says before its entries are added. -/
def announce (elem : Ty) (isLast : Bool) (d : Descriptor) : Descriptor :=
  { d with
    shape := d.shape.addType d.shape.fields.size elem.stripArrays
    flexible := d.flexible || (isLast && isOpenArray elem) }

/-- What a field that is no struct adds to the descriptor around it. -/
def addScalar (elem : Ty) (offset size : Int) (inUnion : Bool) (d : Descriptor) : Descriptor :=
  { d with
    shape := d.shape.addField (scalarEntry elem offset size inUnion)
    credOffsets := if pointsToCred cx elem then d.credOffsets.insert offset else d.credOffsets }

/-- Adds one declared field of `owner` to its descriptor. -/
def flattenField (owner : StructId) (elem : Ty) (offset : Int) (isLast inUnion : Bool)
    (d : Descriptor) : Flatten Descriptor := do
  let d := announce elem isLast d
  match elem.embedded? with
  | some inner =>
    let handle ← built cx inner
    let nested := (← get).registry.descriptor handle
    noteContainer cx owner handle offset
    return embed cx d nested inner offset elem.isArray inUnion isLast
  | none =>
    let size ← sizeOf cx cx.layout elem
    return addScalar cx elem offset size inUnion d

/-- Adds the declared fields of a struct from position `i` on. -/
def flattenFields (owner : StructId) (placed : StructLayout) :
    List Ty → Nat → Descriptor → Flatten Descriptor
  | [], _, d => pure d
  | elem :: rest, i, d => do
    let d := { d with shape := d.shape.addOffset d.shape.fields.size }
    let offset ← orRaise (placed.offsetAt i)
    let d ← flattenField cx owner elem offset rest.isEmpty false d
    flattenFields owner placed rest (i + 1) d

/-! ## Unions -/

/-- The member of a union that stands for it: its position, type and size. -/
structure Widest where
  position : Nat
  type : Ty
  size : Int

/-- The wider of two members, the first one of equals. The size of a first member has to be at
least zero. -/
def wider (best : Option Widest) (w : Widest) : Option Widest :=
  if (best.map Widest.size).getD (-1) < w.size then some w else best

/-- Enters the members of a union from position `i` on, and finds the one that stands for it. -/
def scanMembers : List Ty → Nat → Option Widest → Descriptor → Flatten (Option Widest × Descriptor)
  | [], _, best, d => pure (best, d)
  | elem :: rest, i, best, d => do
    let d := { d with shape := (d.shape.addOffset 0).addType 0 elem.stripArrays }
    let size ← sizeOf cx cx.layout elem
    scanMembers rest (i + 1) (wider best ⟨i, elem, size⟩) d

/-- Whether a member is the one that stands for the union: at the same position, or the same
struct. -/
def standsFor (best : Option Widest) (i : Nat) (elem : Ty) : Bool :=
  match best with
  | none => false
  | some w => w.position = i || (!elem.isArray && w.type = elem)

/-- Notes the union as a container of its other members. -/
def noteMembers (owner : StructId) (best : Option Widest) (members : List Ty) : Flatten Unit :=
  members.zipIdx.forM fun (elem, i) =>
    match elem.embedded? with
    | none => pure ()
    | some inner =>
      if standsFor best i elem then pure ()
      else do noteContainer cx owner (← built cx inner) 0

/-- Adds the members of a union to its descriptor. -/
def flattenUnion (owner : StructId) (members : List Ty) (d : Descriptor) : Flatten Descriptor := do
  let (best, d) ← scanMembers cx members 0 none d
  noteMembers cx owner best members
  match best with
  | none => return d
  | some w => flattenField cx owner w.type 0 false true d

/-! ## Building -/

/-- The name that the descriptor of a struct gets. -/
def nameOf (st : StructId) : Except Fault String :=
  scopeName cx.structs st (some cx.module.name)

/-- A descriptor about which nothing is known but its name and that an object of its type starts at
its first entry. -/
def blank (st : StructId) (name : String) : Descriptor :=
  { type := st, home := cx.home, layout := cx.layout, settings := some cx.settingsId, name,
    shape := Shape.addType {} 0 (.struct st) }

/-- Settles a descriptor, asks for its allocation size and finishes it. -/
def complete (d : Descriptor) : Flatten Descriptor := do
  let d := d.settle
  if d.lacksAllocSize cx.structs then
    let size ← sizeOf cx d.layout (.struct d.type)
    return (d.setAllocSize size).finish
  else return d.finish

/-- Puts a finished descriptor into the registry. -/
def publish (st : StructId) (d : Descriptor) : Flatten Unit := do
  onRegistry fun r =>
    (r.push st cx.module.name d).registerName cx.structs st cx.home cx.module
  modify fun s => { s with tracker := s.tracker.update st d.expandedSize }
  emit .debug s!"flattened {d.name}: {d.declaredSize} fields, {d.expandedSize} expanded"

/-- Adds the fields of a struct, or the members of a union, to its descriptor. -/
def flattenBody (st : StructId) (placed : StructLayout) (d : Descriptor) : Flatten Descriptor :=
  let definition := cx.structs.get st
  if definition.isUnion then flattenUnion cx st definition.elements d
  else flattenFields cx st placed definition.elements 0 d

/-- Makes the descriptor of a struct all of whose embedded structs have theirs. Its name is written
before anything else is done. -/
def prepare (st : StructId) : Flatten Descriptor := do
  let name ← orRaise (nameOf cx st)
  let placed ← layOut cx cx.layout st
  complete cx (← flattenBody cx st placed (blank cx st name))

/-- Builds the descriptor of a struct all of whose embedded structs have theirs. -/
def build (st : StructId) : Flatten Unit := do
  publish cx st (← prepare cx st)

/-! ## What building leaves alone

Until the descriptor is put into the registry, only layouts are asked and containers noted. -/

/-- A property of states that no question and no container breaks. -/
structure Robust (p : FlattenState → Prop) : Prop where
  asked : ∀ {s layouts asked}, p s → p { s with layouts, asked }
  noted : ∀ {s handle container offset}, p s →
    p { s with registry := s.registry.modify handle (·.addContainer container offset) }

namespace Robust

variable {cx} {p : FlattenState → Prop} (hp : Robust p)
include hp

theorem layOut (id : LayoutId) (st : StructId) : Preserves p (layOut cx id st) :=
  .bind (.modify fun _ hs => hp.asked hs) fun _ => .onPart (fun _ _ hs => hp.asked hs) _

theorem sizeOf (id : LayoutId) (type : Ty) : Preserves p (sizeOf cx id type) := by
  refine .bind .get fun s => ?_
  dsimp only
  induction type using Ty.array_induction with
  | array e n ih => exact .bind ih fun _ => .pure _
  | other type h =>
    cases type with
    | array e n => cases h
    | struct st => exact .bind (hp.layOut id st) fun _ => .pure _
    | int bits => exact .orRaise _
    | ptr e n => exact .orRaise _
    | unknown => exact .throw _
    | void => exact .throw _
    | func r ps v => exact .throw _

omit hp in
theorem built (st : StructId) : Preserves p (built cx st) := by
  refine .bind .get fun s => ?_
  split
  · exact .pure _
  · exact .throw _

theorem recordContainer (container : StructId) (n handle : Nat) (offset : Int) :
    Preserves p (recordContainer cx container n handle offset) := by
  induction n generalizing handle offset with
  | zero => exact .throw _
  | succ n ih =>
    refine .bind (.modify fun s hs => hp.noted hs) fun _ => .bind .get fun s =>
      .bind (hp.layOut _ _) fun placed => .forM fun x => ?_
    unfold noteInner
    split
    split
    · exact .pure _
    · exact .bind (built _) fun _ => .bind (.orRaise _) fun _ => ih _ _

theorem flattenField (owner : StructId) (elem : Ty) (offset : Int) (isLast inUnion : Bool)
    (d : Descriptor) : Preserves p (flattenField cx owner elem offset isLast inUnion d) := by
  unfold Flatten.flattenField
  dsimp only
  split
  · exact .bind (built _) fun _ => .bind .get fun _ =>
      .bind (hp.recordContainer _ _ _ _) fun _ => .pure _
  · exact .bind (hp.sizeOf _ _) fun _ => .pure _

theorem flattenFields (owner : StructId) (placed : StructLayout) (es : List Ty) (i : Nat)
    (d : Descriptor) : Preserves p (flattenFields cx owner placed es i d) := by
  induction es generalizing i d with
  | nil => exact .pure _
  | cons e es ih =>
    exact .bind (.orRaise _) fun _ => .bind (hp.flattenField _ _ _ _ _ _) fun _ => ih _ _

theorem scanMembers (es : List Ty) (i : Nat) (best : Option Widest) (d : Descriptor) :
    Preserves p (scanMembers cx es i best d) := by
  induction es generalizing i best d with
  | nil => exact .pure _
  | cons e es ih => exact .bind (hp.sizeOf _ _) fun _ => ih _ _ _

theorem noteMembers (owner : StructId) (best : Option Widest) (members : List Ty) :
    Preserves p (noteMembers cx owner best members) := by
  refine .forM fun x => ?_
  split
  split
  · exact .pure _
  · split
    · exact .pure _
    · exact .bind (built _) fun _ => hp.recordContainer _ _ _ _

theorem flattenUnion (owner : StructId) (members : List Ty) (d : Descriptor) :
    Preserves p (flattenUnion cx owner members d) := by
  refine .bind (hp.scanMembers _ _ _ _) fun (best, d) =>
    .bind (hp.noteMembers _ _ _) fun _ => ?_
  cases best with
  | none => exact .pure _
  | some w => exact hp.flattenField _ _ _ _ _ _

theorem prepare (st : StructId) : Preserves p (prepare cx st) := by
  refine .bind (.orRaise _) fun name => .bind (hp.layOut _ _) fun placed => .bind ?_ fun d => ?_
  · unfold flattenBody
    dsimp only
    split
    · exact hp.flattenUnion _ _ _
    · exact hp.flattenFields _ _ _ _ _
  · unfold complete
    dsimp only
    split
    · exact .bind (hp.sizeOf _ _) fun _ => .pure _
    · exact .pure _

end Robust

/-- Everything but the contents of the descriptors, the layouts and the questions. -/
def outline (s : FlattenState) : Registry × Nat × Tracker × Log :=
  ({ s.registry with arena := #[] }, s.registry.size, s.tracker, s.log)

theorem robust_outline (o : Registry × Nat × Tracker × Log) :
    Robust fun s => outline s = o where
  asked hs := hs
  noted hs := by simpa [outline, Registry.modify, Registry.size] using hs

theorem keeps_prepare (st : StructId) : Keeps outline (prepare cx st) :=
  .of_preserves fun o => (robust_outline o).prepare st

theorem handle?_eq_of_outline_eq {s s' : FlattenState} (h : outline s' = outline s) (st : StructId)
    (m : String) : s'.registry.handle? st m = s.registry.handle? st m := by
  have hi : s'.registry.index = s.registry.index := congrArg (fun o => o.1.index) h
  simp only [Registry.handle?, hi]

/-- The state after a descriptor has been put into the registry. -/
def published (st : StructId) (d : Descriptor) (s : FlattenState) : FlattenState :=
  { s with
    registry := (s.registry.push st cx.module.name d).registerName cx.structs st cx.home cx.module
    tracker := s.tracker.update st d.expandedSize
    log := s.log.emit .debug .registry
      s!"flattened {d.name}: {d.declaredSize} fields, {d.expandedSize} expanded" }

theorem build_eq (st : StructId) (s : FlattenState) :
    build cx st s =
      match prepare cx st s with
      | .ok d s' => .ok () (published cx st d s')
      | .error e s' => .error e s' := by
  simp only [build, bind, EStateM.bind]
  cases prepare cx st s <;> rfl

theorem handle?_build {st : StructId} {s s' : FlattenState} (h : build cx st s = .ok () s')
    (st' : StructId) (m : String) :
    s'.registry.handle? st' m =
      if st' = st ∧ m = cx.module.name then some s.registry.size
      else s.registry.handle? st' m := by
  rw [build_eq] at h
  have hk := keeps_prepare cx st s
  simp only [after] at hk
  split at h
  · next d s₁ hd =>
    cases h
    rw [hd] at hk
    have hs : s₁.registry.size = s.registry.size := congrArg (fun o => o.2.1) hk
    simp only [published, Registry.handle?_registerName, Registry.handle?_push, hs,
      handle?_eq_of_outline_eq hk]
  · cases h

end Flatten

end KernelObjects
