import KernelObjects.Proofs.Additions

/-!
# What a descriptor finds

A descriptor finds its table, its element types and what follows from them: credentials, function
pointers and arrays of no fixed length. It also finds reference counters; of these more can be noted
afterwards, so they are kept apart here. All of it depends on the bodies and the sizes on one target
of a few structs, on two of the settings, and on what the descriptors of the embedded structs find.

Results:
* `Agrees.assembled`: descriptors that are assembled from agreeing parts agree.
* `Reads.evolves`: new bodies of opaque structs do not matter.
-/
namespace KernelObjects

/-- What a descriptor finds, reference counters apart. -/
structure Findings where
  shape : Shape
  flexible : Bool
  credOffsets : OffsetSet
  isCred : Bool
  credAnalyzed : Bool
  funcPtrOffsets : OffsetSet
  hasFuncPtr : Bool
  isFuncTable : Bool

namespace Descriptor

def findings (d : Descriptor) : Findings where
  shape := d.shape
  flexible := d.flexible
  credOffsets := d.credOffsets
  isCred := d.isCred
  credAnalyzed := d.credAnalyzed
  funcPtrOffsets := d.funcPtrOffsets
  hasFuncPtr := d.hasFuncPtr
  isFuncTable := d.isFuncTable

/-- The offsets of reference counters, and whether there are any. -/
def counters (d : Descriptor) : OffsetSet × Bool :=
  (d.refcountOffsets, d.hasRefcount)

/-- Two descriptors find the same, and under the condition `P` the same reference counters too. -/
structure Agrees (P : Prop) (d d' : Descriptor) : Prop where
  findings : d'.findings = d.findings
  counters : P → d'.counters = d.counters

namespace Agrees

variable {P Q : Prop} {d d' d'' : Descriptor}

theorem refl (P : Prop) (d : Descriptor) : Agrees P d d :=
  ⟨rfl, fun _ => rfl⟩

theorem symm (h : Agrees P d d') : Agrees P d' d :=
  ⟨h.findings.symm, fun hP => (h.counters hP).symm⟩

theorem trans (h : Agrees P d d') (h' : Agrees P d' d'') : Agrees P d d'' :=
  ⟨h'.findings.trans h.findings, fun hP => (h'.counters hP).trans (h.counters hP)⟩

theorem mono (h : Agrees P d d') (hPQ : Q → P) : Agrees Q d d' :=
  ⟨h.findings, fun hQ => h.counters (hPQ hQ)⟩

theorem reshape (h : Agrees P d d') (f : Shape → Shape) :
    Agrees P { d with shape := f d.shape } { d' with shape := f d'.shape } := by
  obtain ⟨hf, hc⟩ := h
  simp only [Descriptor.findings, Findings.mk.injEq] at hf
  obtain ⟨hshape, hrest⟩ := hf
  refine ⟨?_, hc⟩
  simp only [Descriptor.findings, hshape, hrest]

end Agrees

end Descriptor

/-- Structs are added and opaque ones are given bodies, and the names of the structs that fields
mention stay. -/
structure Structs.Evolves (S S' : Structs) : Prop extends S.Grows S' where
  names : ∀ a, ∀ e ∈ (S.get a).elements, ∀ b, e.underlyingStruct? = some b →
    (S'.get b).name = (S.get b).name

theorem Structs.Evolves.refl (S : Structs) : S.Evolves S :=
  ⟨⟨Nat.le_refl _, fun _ _ => rfl⟩, fun _ _ _ _ _ => rfl⟩

namespace Flatten

/-! ## What is read -/

/-- Two contexts show the same of all that is read about a struct. -/
structure Reads (cx cx' : FlattenContext) (t : Target) (st : StructId) : Prop where
  body : cx'.structs.get st = cx.structs.get st
  inner : ∀ b, cx.structs.Embeds st b → cx'.structs.get b = cx.structs.get b
  sizes : ∀ e ∈ (cx.structs.get st).elements, cx'.structs.bytesOn t e = cx.structs.bytesOn t e
  offsets : cx'.structs.offsetOn t st = cx.structs.offsetOn t st
  creds : ∀ e ∈ (cx.structs.get st).elements, pointsToCred cx' e = pointsToCred cx e
  counters : cx'.settings.refcountTypes = cx.settings.refcountTypes

end Flatten

namespace Descriptor.Agrees

open Flatten

variable {cx cx' : FlattenContext} {t : Target} {st : StructId} {P : Prop}
  {nested nested' : StructId → Descriptor} {d d' : Descriptor}

/-! ## Fields -/

theorem announce (h : Agrees P d d') (e : Ty) (isLast : Bool) :
    Agrees P (Flatten.announce e isLast d) (Flatten.announce e isLast d') := by
  obtain ⟨hf, hc⟩ := h
  simp only [Descriptor.findings, Findings.mk.injEq] at hf
  obtain ⟨hshape, hflexible, hrest⟩ := hf
  refine ⟨?_, hc⟩
  simp only [Descriptor.findings, Flatten.announce, hshape, hflexible, hrest]

theorem withField {e : Ty} (hs : cx'.structs.bytesOn t e = cx.structs.bytesOn t e)
    (hp : pointsToCred cx' e = pointsToCred cx e)
    (hr : cx'.settings.refcountTypes = cx.settings.refcountTypes)
    (hn : ∀ b, e.embedded? = some b →
      cx'.structs.get b = cx.structs.get b ∧ Agrees P (nested b) (nested' b))
    (o : Int) (isLast inUnion : Bool) (h : Agrees P d d') :
    Agrees P (Flatten.withField cx t nested e o isLast inUnion d)
      (Flatten.withField cx' t nested' e o isLast inUnion d') := by
  have hd := h.announce e isLast
  unfold Flatten.withField
  generalize Flatten.announce e isLast d = d at hd
  generalize Flatten.announce e isLast d' = d' at hd
  obtain ⟨hf, hc⟩ := hd
  simp only [Descriptor.findings, Findings.mk.injEq] at hf
  obtain ⟨hshape, hflexible, hcreds, hrest⟩ := hf
  cases hb : e.embedded? with
  | none =>
    refine ⟨?_, hc⟩
    simp only [Descriptor.findings, addScalar, hshape, hflexible, hcreds, hrest, hs, hp]
  | some b =>
    obtain ⟨hg, hnf, hnc⟩ := hn b hb
    simp only [Descriptor.findings, Findings.mk.injEq] at hnf
    obtain ⟨hnshape, hnflexible, hncreds, -⟩ := hnf
    refine ⟨?_, fun hP => ?_⟩
    · simp only [Descriptor.findings, embed, hshape, hflexible, hcreds, hrest, hg, hnshape,
        hnflexible, hncreds]
    · have hc := hc hP
      have hnc := hnc hP
      simp only [Descriptor.counters, Prod.mk.injEq] at hc hnc
      simp only [Descriptor.counters, embed, hc.1, hc.2, hnc.1, hg, hr]

theorem withFields {es : List Ty}
    (hs : ∀ e ∈ es, cx'.structs.bytesOn t e = cx.structs.bytesOn t e)
    (hp : ∀ e ∈ es, pointsToCred cx' e = pointsToCred cx e)
    (hr : cx'.settings.refcountTypes = cx.settings.refcountTypes)
    (ho : cx'.structs.offsetOn t st = cx.structs.offsetOn t st)
    (hn : ∀ e ∈ es, ∀ b, e.embedded? = some b →
      cx'.structs.get b = cx.structs.get b ∧ Agrees P (nested b) (nested' b))
    (i : Nat) (h : Agrees P d d') :
    Agrees P (Flatten.withFields cx t nested st es i d)
      (Flatten.withFields cx' t nested' st es i d') := by
  induction es generalizing i d d' with
  | nil => exact h
  | cons e es ih =>
    obtain ⟨hse, hses⟩ := List.forall_mem_cons.1 hs
    obtain ⟨hpe, hpes⟩ := List.forall_mem_cons.1 hp
    obtain ⟨hne, hnes⟩ := List.forall_mem_cons.1 hn
    rw [Flatten.withFields, Flatten.withFields, ho]
    exact ih hses hpes hnes (i + 1) (withField hse hpe hr hne _ _ _
      (h.reshape fun s => s.addOffset s.fields.size))

/-! ## Structs -/

theorem withBody (hr : Reads cx cx' t st)
    (hn : ∀ b, cx.structs.Embeds st b → Agrees P (nested b) (nested' b)) (h : Agrees P d d') :
    Agrees P (Flatten.withBody cx t nested st d) (Flatten.withBody cx' t nested' st d') := by
  have hn' : ∀ e ∈ (cx.structs.get st).elements, ∀ b, e.embedded? = some b →
      cx'.structs.get b = cx.structs.get b ∧ Agrees P (nested b) (nested' b) :=
    fun e he b hb => ⟨hr.inner b ⟨e, he, hb⟩, hn b ⟨e, he, hb⟩⟩
  have hmembers : ∀ es, Agrees P (withMembers es d) (withMembers es d') := fun es =>
    h.reshape (·.enterMembers es)
  unfold Flatten.withBody
  simp only [hr.body, widestFrom_congr hr.sizes]
  split
  · cases hw : widestFrom cx.structs t (cx.structs.get st).elements 0 none with
    | none => exact hmembers _
    | some w =>
      obtain ⟨j, hj, -⟩ := (getElem?_of_widestFrom hw).resolve_left (by simp)
      have hmem := List.mem_of_getElem? hj
      exact withField (hr.sizes _ hmem) (hr.creds _ hmem) hr.counters (hn' _ hmem) _ _ _
        (hmembers _)
  · exact withFields hr.sizes hr.creds hr.counters hr.offsets hn' 0 h

theorem settle (h : Agrees P d d') : Agrees P d.settle d'.settle := by
  obtain ⟨hf, hc⟩ := h
  simp only [Descriptor.findings, Findings.mk.injEq] at hf
  obtain ⟨hshape, hflexible, hcreds, -, -, hpointers, -⟩ := hf
  refine ⟨?_, fun hP => ?_⟩
  · simp only [Descriptor.findings, Descriptor.settle, hshape, hflexible, hcreds, hpointers]
  · have hc := hc hP
    simp only [Descriptor.counters, Prod.mk.injEq] at hc
    simp only [Descriptor.counters, Descriptor.settle, hc.1]

/-- What a descriptor finds depends on what is read about its struct and on what the descriptors of
the embedded structs find. -/
theorem assembled (hr : Reads cx cx' t st)
    (hn : ∀ b, cx.structs.Embeds st b → Agrees P (nested b) (nested' b)) :
    Agrees P (Flatten.assembled cx t nested st) (Flatten.assembled cx' t nested' st) := by
  have hblank : Agrees P (blank cx st (nameIn cx st)) (blank cx' st (nameIn cx' st)) :=
    ⟨rfl, fun _ => rfl⟩
  obtain ⟨hf, hc⟩ := (withBody hr hn hblank).settle
  exact ⟨hf, hc⟩

end Descriptor.Agrees

namespace Flatten

variable {cx cx' : FlattenContext} {t : Target} {st : StructId}

/-! ## Contexts that show the same -/

theorem pointsToCred_congr {e : Ty} (hc : cx'.settings.credType = cx.settings.credType)
    (hn : ∀ b, e.underlyingStruct? = some b →
      (cx'.structs.get b).name = (cx.structs.get b).name) :
    pointsToCred cx' e = pointsToCred cx e := by
  unfold pointsToCred
  cases hb : e.underlyingStruct? with
  | none => rfl
  | some b =>
    have hbase : (cx'.structs.get b).baseName = (cx.structs.get b).baseName := by
      rw [StructDef.baseName, StructDef.baseName, hn b hb]
    dsimp only
    rw [hbase, hc]

theorem Reads.of_structs (hS : cx'.structs = cx.structs)
    (hc : cx'.settings.credType = cx.settings.credType)
    (hr : cx'.settings.refcountTypes = cx.settings.refcountTypes) (t : Target) (st : StructId) :
    Reads cx cx' t st where
  body := by rw [hS]
  inner _ _ := by rw [hS]
  sizes _ _ := by rw [hS]
  offsets := by rw [hS]
  creds _ _ := pointsToCred_congr hc fun _ _ => by rw [hS]
  counters := hr

theorem Reads.evolves (hS : cx.structs.Evolves cx'.structs)
    (hc : cx'.settings.credType = cx.settings.credType)
    (hr : cx'.settings.refcountTypes = cx.settings.refcountTypes) {l : StructLayout}
    (hl : cx.structs.layoutOn t st = .ok l) : Reads cx cx' t st where
  body := hS.get_eq st (Structs.wellFormed_of_layoutOn hl).has_body
  inner b hb := hS.get_eq b ((Structs.wellFormed_of_layoutOn hl).embeds hb).has_body
  sizes e he := by
    obtain ⟨v, hv⟩ := Structs.sizeOn_of_layoutOn hl he
    exact Structs.bytesOn_grows hS.toGrows hv
  offsets := by
    funext i
    simp only [Structs.offsetOn, hl, Structs.layoutOn_grows hS.toGrows hl]
  creds e he := pointsToCred_congr hc (hS.names st e he)
  counters := hr

end Flatten

end KernelObjects
