import KernelObjects.Proofs.PlainLayout
import KernelObjects.Registry.Flatten

/-!
# Descriptors from descriptors

What the descriptor of a struct is made of, as a function of the target, of the bodies, and of the
descriptors of the structs that it embeds: no registry, no memo, no failure. Its table, offset map
and element types follow from those of the embedded structs alone (`Structs.expand`).

Results:
* `shape_assembled`: the shape of the assembled descriptor is the expansion of the struct.
* `expand_grows`: new bodies of opaque structs do not change an expansion.
-/
namespace KernelObjects

/-- The size of a type on a target; 0 if it has none. -/
def Structs.bytesOn (S : Structs) (t : Target) (type : Ty) : Int :=
  (S.sizeOn t type).toOption.getD 0

/-! ## Expansions -/

section

variable (S : Structs) (t : Target) (nested : StructId → Shape)

/-- The entries of one field. -/
def Shape.chunk (e : Ty) (offset : Int) (inUnion : Bool) : Array FieldEntry :=
  match e.embedded? with
  | some b => splicedFields (nested b).fields offset e.isArray (inUnion || (S.get b).isUnion)
  | none => #[Flatten.scalarEntry e offset (S.bytesOn t e) inUnion]

/-- The element types of one field, with its entries counted from `start` on. -/
def Shape.innerTypes (e : Ty) (start : Int) : Array (Int × Ty) :=
  match e.embedded? with
  | some b => (nested b).elementTypes.map fun (i, type) => (i + start, type)
  | none => #[]

/-- The shape with one more field. -/
def Shape.enter (e : Ty) (offset : Int) (inUnion : Bool) (s : Shape) : Shape :=
  { s with
    fields := s.fields ++ chunk S t nested e offset inUnion
    elementTypes :=
      s.elementTypes.push (s.fields.size, e.stripArrays) ++ innerTypes nested e s.fields.size }

/-- The shape with the fields of `st` from position `i` on. -/
def Shape.enterFields (st : StructId) : List Ty → Nat → Shape → Shape
  | [], _, s => s
  | e :: es, i, s =>
    enterFields st es (i + 1)
      ((s.addOffset s.fields.size).enter S t nested e (S.offsetOn t st i) false)

/-- The shape with the members of a union, none of which has entries yet. -/
def Shape.enterMembers : List Ty → Shape → Shape
  | [], s => s
  | e :: es, s => enterMembers es ((s.addOffset 0).addType 0 e.stripArrays)

/-- The member that stands for a union, among those from position `i` on and the best before. -/
def widestFrom : List Ty → Nat → Option Flatten.Widest → Option Flatten.Widest
  | [], _, best => best
  | e :: es, i, best => widestFrom es (i + 1) (Flatten.wider best ⟨i, e, S.bytesOn t e⟩)

/-- A table without entries gets the vacant one. -/
def Shape.settled (s : Shape) : Shape :=
  { s with fields := if s.fields.isEmpty then #[FieldEntry.vacant] else s.fields }

/-- The shape of a struct, given those of the structs that it embeds. -/
def Structs.expand (st : StructId) : Shape :=
  let start := Shape.addType {} 0 (.struct st)
  let es := (S.get st).elements
  if (S.get st).isUnion then
    match widestFrom S t es 0 none with
    | none => (start.enterMembers es).settled
    | some w => ((start.enterMembers es).enter S t nested w.type 0 true).settled
  else (start.enterFields S t nested st es 0).settled

end

/-! ## Descriptors -/

namespace Flatten

section

variable (cx : FlattenContext) (t : Target) (nested : StructId → Descriptor)

/-- The descriptor with one more field. -/
def withField (e : Ty) (offset : Int) (isLast inUnion : Bool) (d : Descriptor) : Descriptor :=
  match e.embedded? with
  | some b => embed cx (announce e isLast d) (nested b) b offset e.isArray inUnion isLast
  | none => addScalar cx e offset (cx.structs.bytesOn t e) inUnion (announce e isLast d)

/-- The descriptor with the fields of `st` from position `i` on. -/
def withFields (st : StructId) : List Ty → Nat → Descriptor → Descriptor
  | [], _, d => d
  | e :: es, i, d =>
    let d := { d with shape := d.shape.addOffset d.shape.fields.size }
    withFields st es (i + 1)
      (withField cx t nested e (cx.structs.offsetOn t st i) es.isEmpty false d)

/-- The descriptor with the members of a union, none of which has entries yet. -/
def withMembers (es : List Ty) (d : Descriptor) : Descriptor :=
  { d with shape := d.shape.enterMembers es }

/-- The descriptor with all fields of a struct or the members of a union. -/
def withBody (st : StructId) (d : Descriptor) : Descriptor :=
  let es := (cx.structs.get st).elements
  if (cx.structs.get st).isUnion then
    match widestFrom cx.structs t es 0 none with
    | none => withMembers es d
    | some w => withField cx t nested w.type 0 false true (withMembers es d)
  else withFields cx t nested st es 0 d

/-- The name that the descriptor of a struct gets; empty if it cannot be written. -/
def nameIn (st : StructId) : String :=
  (nameOf cx st).toOption.getD ""

/-- The descriptor of a struct, given those of the structs that it embeds. -/
def assembled (st : StructId) : Descriptor :=
  ((withBody cx t nested st (blank cx st (nameIn cx st))).settle.setAllocSize
    (cx.structs.bytesOn t (.struct st))).finish

end

variable {cx : FlattenContext} {t : Target} {nested : StructId → Descriptor}

theorem shape_withField (e : Ty) (offset : Int) (isLast inUnion : Bool) (d : Descriptor) :
    (withField cx t nested e offset isLast inUnion d).shape =
      d.shape.enter cx.structs t (fun b => (nested b).shape) e offset inUnion := by
  unfold withField Shape.enter Shape.chunk Shape.innerTypes
  cases e.embedded? <;>
    simp [embed, addScalar, announce, Shape.splice, Shape.addType, Shape.addField]

theorem shape_withFields (st : StructId) (es : List Ty) (i : Nat) (d : Descriptor) :
    (withFields cx t nested st es i d).shape =
      d.shape.enterFields cx.structs t (fun b => (nested b).shape) st es i := by
  induction es generalizing i d with
  | nil => rfl
  | cons e es ih => rw [withFields, ih, shape_withField, Shape.enterFields]

theorem shape_assembled (st : StructId) :
    (assembled cx t nested st).shape =
      cx.structs.expand t (fun b => (nested b).shape) st := by
  have hsettle : ∀ d : Descriptor, d.settle.shape = d.shape.settled := fun _ => rfl
  simp only [assembled, Descriptor.finish, Descriptor.setAllocSize, hsettle, withBody,
    Structs.expand]
  split
  · cases widestFrom cx.structs t (cx.structs.get st).elements 0 none with
    | none => rfl
    | some w => simp only [shape_withField]; rfl
  · rw [shape_withFields]; rfl

end Flatten

/-! ## Tables are never empty -/

theorem Shape.fields_settled_ne (s : Shape) : s.settled.fields ≠ #[] := by
  unfold settled
  dsimp only
  split
  · simp
  · next h => simpa using h

theorem Structs.fields_expand_ne (S : Structs) (t : Target) (nested : StructId → Shape)
    (st : StructId) : (S.expand t nested st).fields ≠ #[] := by
  unfold expand
  dsimp only
  split
  · split <;> exact Shape.fields_settled_ne _
  · exact Shape.fields_settled_ne _

/-! ## Growth -/

section

variable {S S' : Structs} {t : Target} {nested nested' : StructId → Shape}

theorem Structs.bytesOn_of_ok {e : Ty} {v : Int} (h : S.sizeOn t e = .ok v) :
    S.bytesOn t e = v := by
  simp [bytesOn, h, Except.toOption]

theorem Structs.bytesOn_grows {e : Ty} {v : Int} (h : S.Grows S') (hv : S.sizeOn t e = .ok v) :
    S'.bytesOn t e = S.bytesOn t e := by
  rw [bytesOn_of_ok hv, bytesOn_of_ok (sizeOn_grows h hv)]

theorem Shape.enter_congr {e : Ty} (hs : S'.bytesOn t e = S.bytesOn t e)
    (hn : ∀ b, e.embedded? = some b → nested' b = nested b ∧ S'.get b = S.get b) (offset : Int)
    (inUnion : Bool) (s : Shape) :
    s.enter S' t nested' e offset inUnion = s.enter S t nested e offset inUnion := by
  unfold enter chunk innerTypes
  cases hb : e.embedded? with
  | none => simp only [hs]
  | some b =>
    obtain ⟨h1, h2⟩ := hn b hb
    simp only [h1, h2]

theorem Shape.enterFields_congr {st : StructId} (ho : S'.offsetOn t st = S.offsetOn t st)
    {es : List Ty} (hs : ∀ e ∈ es, S'.bytesOn t e = S.bytesOn t e)
    (hn : ∀ e ∈ es, ∀ b, e.embedded? = some b → nested' b = nested b ∧ S'.get b = S.get b)
    (i : Nat) (s : Shape) :
    s.enterFields S' t nested' st es i = s.enterFields S t nested st es i := by
  induction es generalizing i s with
  | nil => rfl
  | cons e es ih =>
    rw [enterFields, enterFields, ho,
      enter_congr (hs e (List.mem_cons_self ..)) (hn e (List.mem_cons_self ..)),
      ih (fun e' he' => hs e' (List.mem_cons_of_mem _ he'))
        fun e' he' => hn e' (List.mem_cons_of_mem _ he')]

theorem widestFrom_congr {es : List Ty} (hs : ∀ e ∈ es, S'.bytesOn t e = S.bytesOn t e) (i : Nat)
    (best : Option Flatten.Widest) : widestFrom S' t es i best = widestFrom S t es i best := by
  induction es generalizing i best with
  | nil => rfl
  | cons e es ih =>
    rw [widestFrom, widestFrom, hs e (List.mem_cons_self ..),
      ih fun e' he' => hs e' (List.mem_cons_of_mem _ he')]

/-- The member that stands for a union is one of its members. -/
theorem getElem?_of_widestFrom {es : List Ty} {i : Nat} {best : Option Flatten.Widest}
    {w : Flatten.Widest} (h : widestFrom S t es i best = some w) :
    best = some w ∨ ∃ j, es[j]? = some w.type ∧ w.position = i + j := by
  induction es generalizing i best with
  | nil => exact .inl h
  | cons e es ih =>
    rcases ih h with hw | ⟨j, hj, hp⟩
    · unfold Flatten.wider at hw
      split at hw
      · cases hw; exact .inr ⟨0, rfl, rfl⟩
      · exact .inl hw
    · exact .inr ⟨j + 1, hj, by omega⟩

/-- What the shape of a struct depends on. -/
theorem Structs.expand_congr {st : StructId} (hg : S'.get st = S.get st)
    (hs : ∀ e ∈ (S.get st).elements, S'.bytesOn t e = S.bytesOn t e)
    (ho : S'.offsetOn t st = S.offsetOn t st)
    (hn : ∀ b, S.Embeds st b → nested' b = nested b ∧ S'.get b = S.get b) :
    S'.expand t nested' st = S.expand t nested st := by
  have hn' : ∀ e ∈ (S.get st).elements, ∀ b, e.embedded? = some b →
      nested' b = nested b ∧ S'.get b = S.get b := fun e he b hb => hn b ⟨e, he, hb⟩
  simp only [expand, hg, widestFrom_congr hs, Shape.enterFields_congr ho hs hn']
  split
  · cases hw : widestFrom S t (S.get st).elements 0 none with
    | none => rfl
    | some w =>
      obtain ⟨j, hj, -⟩ := (getElem?_of_widestFrom hw).resolve_left (by simp)
      have hmem := List.mem_of_getElem? hj
      simp only [Shape.enter_congr (hs _ hmem) (hn' _ hmem)]
  · rfl

theorem Structs.expand_grows {st : StructId} {l : StructLayout} (h : S.Grows S')
    (hl : S.layoutOn t st = .ok l) : S'.expand t nested st = S.expand t nested st := by
  have hw := wellFormed_of_layoutOn hl
  apply expand_congr (h.get_eq st hw.has_body)
  · intro e he
    obtain ⟨v, hv⟩ := sizeOn_of_layoutOn hl he
    exact bytesOn_grows h hv
  · funext i
    simp only [offsetOn, hl, layoutOn_grows h hl]
  · exact fun b hb => ⟨rfl, h.get_eq b (hw.embeds hb).has_body⟩

end

end KernelObjects
