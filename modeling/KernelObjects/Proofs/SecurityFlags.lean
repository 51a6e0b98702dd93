import KernelObjects.Proofs.Derived
import KernelObjects.Proofs.ElementTypes
import KernelObjects.Proofs.Lasting

/-!
# What the flags of a descriptor mean

A descriptor says where its struct has reference counters, pointers to credentials and pointers to
functions, and whether it ends in an array of no fixed length. It finds that out from its fields and
from the descriptors of the structs in them. Told by routes, it says what is met on the way to the
leaves of the struct.

Results:
* `markedAt_iff`: what is met on the way to a leaf is a field, or is met in the struct in a field.
* `Gathers.mem_iff_markedAt`: a set of offsets that is gathered field by field tells what is met.
* `flexible_assembled`, `mem_funcPtrOffsets_assembled`: the other flags of an assembled descriptor.
* `securityFlags_exact`: all flags, for the descriptors of a session after any run.
-/
namespace KernelObjects

/-! ## Marks on the way to a leaf -/

namespace Structs

section

variable (S : Structs) (t : Target)

/-- On the way to a leaf of a struct, a field with a property is met, and it lies at an offset. -/
def MarkedAt (own : Ty → Prop) (a : StructId) (k : Int) : Prop :=
  ∃ leaf ∈ S.leaves t a, ∃ route p, route ++ [p] <+: leaf ∧ own p.type ∧
    S.offsetAlong t (route ++ [p]) = k

end

variable {S : Structs} {t : Target} {own : Ty → Prop} {a b : StructId} {p : Step} {k : Int}

theorem mem_leaves_of_step (hf : S.Founded a) (hp : p ∈ S.steps t a) {leaf : List Step}
    (hleaf : leaf ∈ routesBy (S.leaves t) p) : leaf ∈ S.leaves t a := by
  rw [leaves_eq hf, if_neg (by simpa using elements_ne_nil_of_mem_steps hp)]
  exact List.mem_flatMap.2 ⟨p, hp, hleaf⟩

/-- A mark is one of the fields, or lies in the struct in a field. -/
theorem markedAt_iff (hf : S.Founded a) (hz : S.NoNegativeBelow t a) :
    S.MarkedAt t own a k ↔ ∃ p ∈ S.steps t a,
      (own p.type ∧ k = S.offsetOn t p.owner p.index) ∨
        ∃ b, p.type.embedded? = some b ∧
          S.MarkedAt t own b (k - S.offsetOn t p.owner p.index) := by
  constructor
  · rintro ⟨leaf, hleaf, route, p, hroute, hp, rfl⟩
    cases route with
    | nil =>
      obtain ⟨hstep, -⟩ := mem_routesBy_of_route hf hleaf hroute
      exact ⟨p, hstep, .inl ⟨hp, by simp⟩⟩
    | cons q route =>
      rw [List.cons_append] at hroute
      obtain ⟨hstep, b, rest, hb, hrest, rfl, hinner⟩ :=
        exists_inner_leaf hf hleaf hroute (by simp)
      have hinside : S.offsetAlong t (route ++ [p]) =
          S.offsetAlong t (q :: (route ++ [p])) - S.offsetOn t q.owner q.index := by
        rw [offsetAlong_cons]
        omega
      exact ⟨q, hstep, .inr ⟨b, hb, rest, hrest, route, p, hinner, hp, hinside⟩⟩
  · rintro ⟨q, hq, ⟨hown, rfl⟩ | ⟨b, hb, rest, hrest, route, p, hroute, hp, hk⟩⟩
    · obtain ⟨leaf, hleaf⟩ := List.exists_mem_of_ne_nil _ (routesBy_step_ne_nil hf hz hq)
      obtain ⟨more, rfl⟩ := List.head?_eq_some_iff.1 (head?_of_mem_routesBy hleaf)
      exact ⟨_, mem_leaves_of_step hf hq hleaf, [], q, by simp, hown, by simp⟩
    · have hleaf : q :: rest ∈ routesBy (S.leaves t) q := by
        simpa [routesBy_embedded hb] using hrest
      refine ⟨q :: rest, mem_leaves_of_step hf hq hleaf, q :: route, p, ?_, hp, ?_⟩
      · exact List.cons_prefix_cons.2 ⟨rfl, hroute⟩
      · rw [List.cons_append, offsetAlong_cons, hk]
        omega

/-- A route to a leaf ends where it meets a field that holds no struct. -/
theorem eq_of_meets_scalar (hf : S.Founded a) {leaf route : List Step}
    (hleaf : leaf ∈ S.leaves t a) (hroute : route ++ [p] <+: leaf)
    (hn : p.type.embedded? = none) : leaf = route ++ [p] := by
  induction route generalizing a leaf with
  | nil =>
    obtain ⟨-, hmem⟩ := mem_routesBy_of_route hf hleaf hroute
    simpa [routesBy_scalar hn] using hmem
  | cons q route ih =>
    rw [List.cons_append] at hroute ⊢
    obtain ⟨hstep, b, rest, hb, hrest, rfl, hinner⟩ := exists_inner_leaf hf hleaf hroute (by simp)
    rw [ih (hf.embeds (embeds_of_mem_steps hstep hb)) hrest hinner]

/-- Marks on fields that hold no struct are marks on leaves. -/
theorem markedAt_iff_of_scalar (hf : S.Founded a) (hn : ∀ e, own e → e.embedded? = none) :
    S.MarkedAt t own a k ↔ ∃ leaf ∈ S.leaves t a, ∃ p, leaf.getLast? = some p ∧ own p.type ∧
      S.offsetAlong t leaf = k := by
  constructor
  · rintro ⟨leaf, hleaf, route, p, hroute, hp, hk⟩
    obtain rfl := eq_of_meets_scalar hf hleaf hroute (hn _ hp)
    exact ⟨_, hleaf, p, by simp, hp, hk⟩
  · rintro ⟨leaf, hleaf, p, hlast, hp, hk⟩
    obtain ⟨route, rfl⟩ := List.getLast?_eq_some_iff.1 hlast
    exact ⟨_, hleaf, route, p, List.prefix_refl _, hp, hk⟩

end Structs

/-! ## Sets that are gathered -/

namespace Flatten

/-- A set of offsets of a descriptor is gathered field by field: a field with a property adds its
own offset, and a field with a struct in it adds what the descriptor of that struct has. -/
structure Gathers (cx : FlattenContext) (own : Ty → Prop) (offsets : Descriptor → OffsetSet) :
    Prop where
  field : ∀ {t nested d k} (e : Ty) (o : Int) (isLast inUnion : Bool),
    k ∈ offsets (withField cx t nested e o isLast inUnion d) ↔
      k ∈ offsets d ∨ (own e ∧ k = o) ∨
        ∃ b, e.embedded? = some b ∧ k - o ∈ offsets (nested b)
  reshape : ∀ (d : Descriptor) (shape : Shape), offsets { d with shape } = offsets d
  blank : ∀ st name, offsets (blank cx st name) = ∅
  complete : ∀ (d : Descriptor) (size : Int),
    offsets (d.settle.setAllocSize size).finish = offsets d

theorem gathers_counters (cx : FlattenContext) :
    Gathers cx (fun e => ∃ b, e.embedded? = some b ∧
      (cx.structs.get b).baseName ∈ cx.settings.refcountTypes) Descriptor.refcountOffsets where
  field e o isLast inUnion := by
    unfold withField
    cases e.embedded? with
    | none => simp [addScalar, announce]
    | some b =>
      by_cases hcounter : (cx.structs.get b).baseName ∈ cx.settings.refcountTypes <;>
        simp [embed, announce, hcounter]
  reshape _ _ := rfl
  blank _ _ := rfl
  complete _ _ := rfl

theorem embedded?_of_pointsToCred {cx : FlattenContext} {e : Ty} (h : pointsToCred cx e = true) :
    e.embedded? = none := by
  cases e <;> simp_all [pointsToCred, Ty.isPointer, Ty.embedded?, Ty.stripArrays]

theorem gathers_creds (cx : FlattenContext) :
    Gathers cx (fun e => pointsToCred cx e = true) Descriptor.credOffsets where
  field {t nested d k} e o isLast inUnion := by
    unfold withField
    cases hb : e.embedded? with
    | none =>
      by_cases hcred : pointsToCred cx e = true <;> simp [addScalar, announce, hcred, or_comm]
    | some b =>
      have hcred : ¬ pointsToCred cx e = true := fun h => by
        simp [embedded?_of_pointsToCred h] at hb
      simp [embed, announce, hcred]
  reshape _ _ := rfl
  blank _ _ := rfl
  complete _ _ := rfl

namespace Gathers

variable {cx : FlattenContext} {t : Target} {nested : StructId → Descriptor} {own : Ty → Prop}
  {offsets : Descriptor → OffsetSet} {st : StructId} {k : Int}

theorem mem_withFields (h : Gathers cx own offsets) (es : List Ty) (i : Nat) (d : Descriptor) :
    k ∈ offsets (withFields cx t nested st es i d) ↔ k ∈ offsets d ∨ ∃ q ∈ es.zipIdx i,
      (own q.1 ∧ k = cx.structs.offsetOn t st q.2) ∨
        ∃ b, q.1.embedded? = some b ∧ k - cx.structs.offsetOn t st q.2 ∈ offsets (nested b) := by
  induction es generalizing i d with
  | nil => simp [withFields]
  | cons e es ih =>
    rw [withFields, ih, h.field, h.reshape, List.zipIdx_cons, List.exists_mem_cons_iff, or_assoc]

/-- The fields that are visited add what the descriptor has. -/
theorem mem_assembled (h : Gathers cx own offsets) {l : StructLayout}
    (hl : cx.structs.layoutOn t st = .ok l)
    (hz : ∀ e ∈ (cx.structs.get st).elements, 0 ≤ cx.structs.bytesOn t e) :
    k ∈ offsets (assembled cx t nested st) ↔ ∃ p ∈ cx.structs.steps t st,
      (own p.type ∧ k = cx.structs.offsetOn t p.owner p.index) ∨
        ∃ b, p.type.embedded? = some b ∧
          k - cx.structs.offsetOn t p.owner p.index ∈ offsets (nested b) := by
  rw [assembled, h.complete, withBody]
  cases hu : (cx.structs.get st).isUnion with
  | false =>
    rw [if_neg (by simp), h.mem_withFields, h.blank, Structs.steps_of_struct hu]
    simp
  | true =>
    rw [if_pos rfl]
    by_cases hne : (cx.structs.get st).elements = []
    · have hnone : ∀ p, p ∉ cx.structs.steps t st := fun p hp =>
        Structs.elements_ne_nil_of_mem_steps hp hne
      simp [hne, widestFrom, withMembers, h.reshape, h.blank, hnone]
    · obtain ⟨w, hw, hsteps⟩ := Structs.steps_of_union hu hz hne
      rw [hw, hsteps]
      dsimp only
      rw [h.field, withMembers, h.reshape, h.blank]
      simp [Structs.offsetOn_union hl hu]

/-- What is gathered in a descriptor is what is met on the way to the leaves of its struct. -/
theorem mem_iff_markedAt (h : Gathers cx own offsets) {L : Layouts} {r : Registry} {m : String}
    {i : Nat} (hr : r.Consistent cx.structs L) (hflat : r.FlattenedOn cx.structs L m t st)
    (hst : r.handle? st m = some i) (hz : cx.structs.NoNegativeBelow t st)
    (hmade : ∀ {c j}, cx.structs.Reaches st c → r.handle? c m = some j →
      offsets (r.descriptor j) = offsets (assembled cx t (r.under m) c)) :
    k ∈ offsets (r.descriptor i) ↔ cx.structs.MarkedAt t own st k := by
  have hf := (hr.wellFormed hst).founded
  induction hf generalizing i k with
  | intro st hacc ih =>
    have hf : cx.structs.Founded st := .intro st hacc
    obtain ⟨l, hl⟩ := hr.lays hst
    rw [hflat.target hst] at hl
    rw [hmade .refl hst, h.mem_assembled hl (hz st .refl), Structs.markedAt_iff hf hz]
    refine exists_congr fun p => and_congr_right fun hp => or_congr_right ?_
    refine exists_congr fun b => and_congr_right fun hb => ?_
    have hembeds := Structs.embeds_of_mem_steps hp hb
    obtain ⟨j, hj, -⟩ := hr.inner hst hembeds
    rw [Registry.under_of_handle hj]
    exact ih b hembeds (hflat.embeds hembeds) hj (hz.embeds hembeds)
      fun hc hk => hmade (.head hembeds hc) hk

end Gathers

/-! ## Arrays of no fixed length -/

section

variable {cx : FlattenContext} {t : Target} {nested : StructId → Descriptor}

variable (nested) in
/-- Whether a field is an array of no fixed length, or a struct that ends in one. -/
def endsOpen (e : Ty) : Bool :=
  isOpenArray e || e.embedded?.any fun b => (nested b).flexible

theorem flexible_withField (e : Ty) (o : Int) (isLast inUnion : Bool) (d : Descriptor) :
    (withField cx t nested e o isLast inUnion d).flexible =
      (d.flexible || isLast && endsOpen nested e) := by
  unfold withField endsOpen
  cases e.embedded? <;> simp [embed, addScalar, announce, Bool.and_or_distrib_left, Bool.or_assoc]

theorem flexible_withFields (st : StructId) (es : List Ty) (i : Nat) (d : Descriptor) :
    (withFields cx t nested st es i d).flexible =
      (d.flexible || es.getLast?.any (endsOpen nested)) := by
  induction es generalizing i d with
  | nil => simp [withFields]
  | cons e es ih =>
    rw [withFields, ih, flexible_withField]
    cases es with
    | nil => simp
    | cons e' es => simp [List.getLast?_cons_cons]

/-- A struct ends in an array of no fixed length if its last field does; a union never does. -/
theorem flexible_assembled (st : StructId) :
    (assembled cx t nested st).flexible = (!(cx.structs.get st).isUnion &&
      (cx.structs.get st).elements.getLast?.any (endsOpen nested)) := by
  have hcomplete : ∀ (d : Descriptor) (size : Int),
      (d.settle.setAllocSize size).finish.flexible = d.flexible := fun _ _ => rfl
  rw [assembled, hcomplete, withBody]
  cases (cx.structs.get st).isUnion with
  | false =>
    rw [if_neg (by simp), flexible_withFields]
    simp [blank]
  | true =>
    rw [if_pos rfl]
    cases widestFrom cx.structs t (cx.structs.get st).elements 0 none with
    | none => simp [withMembers, blank]
    | some w => simp [flexible_withField, withMembers, blank]

/-! ## Pointers to functions -/

theorem funcPtrOffsets_withField (e : Ty) (o : Int) (isLast inUnion : Bool) (d : Descriptor) :
    (withField cx t nested e o isLast inUnion d).funcPtrOffsets = d.funcPtrOffsets := by
  unfold withField
  cases e.embedded? <;> rfl

theorem funcPtrOffsets_withFields (st : StructId) (es : List Ty) (i : Nat) (d : Descriptor) :
    (withFields cx t nested st es i d).funcPtrOffsets = d.funcPtrOffsets := by
  induction es generalizing i d with
  | nil => rfl
  | cons e es ih => rw [withFields, ih, funcPtrOffsets_withField]

theorem funcPtrOffsets_withBody (st : StructId) (d : Descriptor) :
    (withBody cx t nested st d).funcPtrOffsets = d.funcPtrOffsets := by
  unfold withBody
  dsimp only
  split
  · split
    · rfl
    · rw [funcPtrOffsets_withField]
      rfl
  · exact funcPtrOffsets_withFields _ _ _ _

/-- The entries of pointers to functions tell their offsets. -/
theorem mem_funcPtrOffsets_assembled (st : StructId) {k : Int} :
    k ∈ (assembled cx t nested st).funcPtrOffsets ↔
      ∃ x ∈ (assembled cx t nested st).shape.fields.toList,
        x.isFuncPtr = true ∧ x.offset = k := by
  have hnone : (withBody cx t nested st (blank cx st (nameIn cx st))).funcPtrOffsets = ∅ :=
    funcPtrOffsets_withBody st (blank cx st (nameIn cx st))
  simp only [assembled, Descriptor.finish, Descriptor.setAllocSize, Descriptor.settle, hnone]
  simp [and_assoc]

end

end Flatten

/-! ## Descriptors -/

theorem Structs.isFuncPtr_entryOf {S : Structs} {t : Target} {leaf : List Step} :
    (S.entryOf t leaf).isFuncPtr = true ↔
      ∃ p, leaf.getLast? = some p ∧ p.type.isFunctionPointer = true :=
  Option.any_eq_true _ _

namespace Registry.Derived

variable {L : Layouts} {r : Registry} {cx : FlattenContext} {marked sized : Nat → Prop}
  {m : String} {t : Target} {st : StructId} {i : Nat} {k : Int}
  (hd : r.Derived L cx marked sized) (hflat : r.FlattenedOn cx.structs L m t st)
  (hst : r.handle? st m = some i)
include hd hflat hst

/-- A descriptor finds what it is assembled to find on the target that its struct is flattened
on. -/
theorem agrees_on :
    Descriptor.Agrees (r.Unmarked cx.structs marked m st)
      (Flatten.assembled cx t (r.under m) st) (r.descriptor i) := by
  have hagrees := hd.agrees hst
  rwa [hflat.target hst] at hagrees

/-- A struct ends in an array of no fixed length if its last field is one, or is a struct that does
so. -/
theorem flexible_iff (hr : r.Consistent cx.structs L) :
    (r.descriptor i).flexible = true ↔ (cx.structs.get st).isUnion = false ∧
      ∃ e, (cx.structs.get st).elements.getLast? = some e ∧
        ((∃ x, e = .array x 0) ∨ ∃ c j, e.embedded? = some c ∧ r.handle? c m = some j ∧
          (r.descriptor j).flexible = true) := by
  have hflag := congrArg Findings.flexible (hd.agrees_on hflat hst).findings
  simp only [Descriptor.findings] at hflag
  rw [hflag, Flatten.flexible_assembled, Bool.and_eq_true, Bool.not_eq_true', Option.any_eq_true]
  refine and_congr_right fun _ => exists_congr fun e => and_congr_right fun he => ?_
  have hopen : Flatten.isOpenArray e = true ↔ ∃ x, e = .array x 0 := by
    cases e <;> simp [Flatten.isOpenArray]
  rw [Flatten.endsOpen, Bool.or_eq_true, hopen, Option.any_eq_true]
  refine or_congr_right (exists_congr fun c => ?_)
  constructor
  · rintro ⟨hc, hflexible⟩
    obtain ⟨j, hj, -⟩ := hr.inner hst ⟨e, List.mem_of_getLast? he, hc⟩
    rw [under_of_handle hj] at hflexible
    exact ⟨j, hc, hj, hflexible⟩
  · rintro ⟨j, hc, hj, hflexible⟩
    exact ⟨hc, by rwa [under_of_handle hj]⟩

variable (hr : r.Consistent cx.structs L) (hz : cx.structs.NoNegativeBelow t st)
include hr hz

theorem mem_refcountOffsets_iff (hu : r.Unmarked cx.structs marked m st) :
    k ∈ (r.descriptor i).refcountOffsets ↔ cx.structs.MarkedAt t (fun e =>
      ∃ c, e.embedded? = some c ∧
        (cx.structs.get c).baseName ∈ cx.settings.refcountTypes) st k := by
  refine (Flatten.gathers_counters cx).mem_iff_markedAt hr hflat hst hz fun hc hj => ?_
  have hagrees := hd.agrees_on (fun x hx => hflat x (hc.trans hx)) hj
  exact congrArg Prod.fst (hagrees.counters fun x hx => hu x (hc.trans hx))

theorem mem_credOffsets_iff :
    k ∈ (r.descriptor i).credOffsets ↔
      cx.structs.MarkedAt t (fun e => Flatten.pointsToCred cx e = true) st k := by
  refine (Flatten.gathers_creds cx).mem_iff_markedAt hr hflat hst hz fun hc hj => ?_
  have hagrees := hd.agrees_on (fun x hx => hflat x (hc.trans hx)) hj
  exact congrArg Findings.credOffsets hagrees.findings

theorem mem_funcPtrOffsets_iff :
    k ∈ (r.descriptor i).funcPtrOffsets ↔ ∃ leaf ∈ cx.structs.leaves t st, ∃ p,
      leaf.getLast? = some p ∧ p.type.isFunctionPointer = true ∧
        cx.structs.offsetAlong t leaf = k := by
  have hfindings := (hd.agrees_on hflat hst).findings
  have hoffsets := congrArg Findings.funcPtrOffsets hfindings
  have hshape := congrArg Findings.shape hfindings
  simp only [Descriptor.findings] at hoffsets hshape
  rw [hoffsets, Flatten.mem_funcPtrOffsets_assembled, ← hshape, hr.fields_eq_below hflat hst hz,
    Structs.leafTable]
  constructor
  · rintro ⟨x, hx, hpointer, hk⟩
    obtain ⟨leaf, hleaf, rfl⟩ := List.mem_map.1 hx
    obtain ⟨p, hlast, hp⟩ := Structs.isFuncPtr_entryOf.1 hpointer
    exact ⟨leaf, hleaf, p, hlast, hp, hk⟩
  · rintro ⟨leaf, hleaf, p, hlast, hp, hk⟩
    exact ⟨_, List.mem_map_of_mem hleaf, Structs.isFuncPtr_entryOf.2 ⟨p, hlast, hp⟩, hk⟩

end Registry.Derived

/-- A settled descriptor is a table of functions if its struct has fields and all its leaves are
pointers to functions. -/
theorem Descriptor.Segmented.isFuncTable_iff {d : Descriptor} {S : Structs} {t : Target}
    {a : StructId} (hd : d.Segmented S t a) (hs : d.Settled) (hf : S.Founded a)
    (hz : S.NoNegativeBelow t a) :
    d.isFuncTable = true ↔ (S.get a).elements ≠ [] ∧ ∀ leaf ∈ S.leaves t a, ∃ p,
      leaf.getLast? = some p ∧ p.type.isFunctionPointer = true := by
  have hne : d.shape.fields.isEmpty = false := by
    rw [← Array.isEmpty_toList, hd.fields, Structs.leafTable]
    simpa using Structs.leaves_ne_nil hf hz
  obtain ⟨x, hx, hsize⟩ := Structs.exists_head_leafTable hf hz
  have htable : d.isFuncTable = (decide (x.size ≠ 0) &&
      ((S.leafTable t a).filter FieldEntry.isFuncPtr).length == (S.leafTable t a).length) := by
    have hfirst : d.shape.fields[0]? = some x := by
      rw [← Array.getElem?_toList, hd.fields, ← List.head?_eq_getElem?, hx]
    rw [← congrArg isFuncTable hs.settle, ← hd.fields]
    simp [settle, hne, hfirst]
  rw [htable, Bool.and_eq_true, decide_eq_true_eq, ne_eq, hsize, beq_iff_eq,
    List.length_filter_eq_length_iff]
  simp only [Structs.leafTable, List.forall_mem_map, Structs.isFuncPtr_entryOf]

/-! ## Sessions -/

/-- All descriptors of a session are settled. -/
theorem Runs.lasts {policy : AnalysisId → String → Target → Prop} {ops : List Operation}
    {s : Session} (h : Runs policy ops s) : ({} : Session).Lasts s := by
  induction h with
  | init => exact lasts_perform [] []
  | step _ op _ ih => exact ih.operation op

theorem Flatten.pointsToCred_iff {cx : FlattenContext} {e : Ty} :
    pointsToCred cx e = true ↔ e.isPointer = true ∧ ∃ c, e.underlyingStruct? = some c ∧
      (cx.structs.get c).baseName = cx.settings.credType := by
  unfold pointsToCred
  cases e.underlyingStruct? <;> simp

/-- After any run, of a struct that is flattened on a target and has no negative size in it, if no
reference counter was marked in what it holds: its reference counters are the structs on the way to
its leaves that the settings name, its credentials the leaves that are pointers to the struct that
the settings name, its function pointers the leaves that are. The flags say whether there are any.
It is a table of functions if it has fields and no other leaves, and it is flexible if it is no
union and its last field is an array of no fixed length or holds a flexible struct. -/
theorem securityFlags_exact {policy : AnalysisId → String → Target → Prop} {ops : List Operation}
    {s : Session} (h : Runs policy ops s) {a : AnalysisId} {m : String} {t : Target} {st : StructId}
    (hflat : (s.analysis a).registry.FlattenedOn s.program.structs s.layouts m t st) {i : Nat}
    (hst : (s.analysis a).registry.handle? st m = some i)
    (hz : s.program.structs.NoNegativeBelow t st)
    (hmarks : (s.analysis a).registry.Unmarked s.program.structs (Marked ops a) m st) :
    let S := s.program.structs
    let config := s.settingsOf (some (s.analysis a).settings)
    let r := (s.analysis a).registry
    let d := r.descriptor i
    (∀ k, k ∈ d.refcountOffsets ↔ ∃ leaf ∈ S.leaves t st, ∃ route p c, route ++ [p] <+: leaf ∧
      p.type.embedded? = some c ∧ (S.get c).baseName ∈ config.refcountTypes ∧
      S.offsetAlong t (route ++ [p]) = k) ∧
    (∀ k, k ∈ d.credOffsets ↔ ∃ leaf ∈ S.leaves t st, ∃ p c, leaf.getLast? = some p ∧
      p.type.isPointer = true ∧ p.type.underlyingStruct? = some c ∧
      (S.get c).baseName = config.credType ∧ S.offsetAlong t leaf = k) ∧
    (∀ k, k ∈ d.funcPtrOffsets ↔ ∃ leaf ∈ S.leaves t st, ∃ p, leaf.getLast? = some p ∧
      p.type.isFunctionPointer = true ∧ S.offsetAlong t leaf = k) ∧
    (d.hasRefcount = true ↔ ∃ k, k ∈ d.refcountOffsets) ∧
    (d.isCred = true ↔ ∃ k, k ∈ d.credOffsets) ∧
    (d.hasFuncPtr = true ↔ ∃ k, k ∈ d.funcPtrOffsets) ∧
    (d.isFuncTable = true ↔ (S.get st).elements ≠ [] ∧ ∀ leaf ∈ S.leaves t st, ∃ p,
      leaf.getLast? = some p ∧ p.type.isFunctionPointer = true) ∧
    (d.flexible = true ↔ (S.get st).isUnion = false ∧
      ∃ e, (S.get st).elements.getLast? = some e ∧
        ((∃ x, e = .array x 0) ∨ ∃ c j, e.embedded? = some c ∧ r.handle? c m = some j ∧
          (r.descriptor j).flexible = true)) := by
  intro S config r d
  have hr : r.Consistent (s.reader a).structs s.layouts := h.sound.registries a
  have hf := (hr.wellFormed hst).founded
  have hd := h.derived a
  have hsettled : d.Settled := (h.lasts a).settled i (hr.lt hst)
  refine ⟨fun k => ?_, fun k => ?_, fun k => hd.mem_funcPtrOffsets_iff hflat hst hr hz,
    hsettled.inStep .refcount, hsettled.inStep .cred, hsettled.inStep .funcPtr,
    (hr.segmented hflat hst hz).isFuncTable_iff hsettled hf hz, hd.flexible_iff hflat hst hr⟩
  · rw [hd.mem_refcountOffsets_iff hflat hst hr hz hmarks, Structs.MarkedAt]
    refine exists_congr fun leaf => and_congr_right fun _ => exists_congr fun route =>
      exists_congr fun p => ?_
    constructor
    · rintro ⟨hroute, ⟨c, hc, hname⟩, hk⟩
      exact ⟨c, hroute, hc, hname, hk⟩
    · rintro ⟨c, hroute, hc, hname, hk⟩
      exact ⟨hroute, ⟨c, hc, hname⟩, hk⟩
  · rw [hd.mem_credOffsets_iff hflat hst hr hz,
      Structs.markedAt_iff_of_scalar hf fun e => Flatten.embedded?_of_pointsToCred]
    refine exists_congr fun leaf => and_congr_right fun _ => exists_congr fun p => ?_
    rw [Flatten.pointsToCred_iff]
    constructor
    · rintro ⟨hlast, ⟨hp, c, hc, hname⟩, hk⟩
      exact ⟨c, hlast, hp, hc, hname, hk⟩
    · rintro ⟨c, hlast, hp, hc, hname, hk⟩
      exact ⟨hlast, ⟨hp, c, hc, hname⟩, hk⟩

/-! ## A file -/

/-- A file with a counter, whose name has the number of a duplicate, a pointer to credentials, a
pointer to a function, and a text of no fixed length. -/
def fileProgram : Program :=
  let counter : StructDef := { name := "struct.kref.7", body := some [.int 32] }
  let cred : StructDef := { name := "struct.cred" }
  let file : StructDef :=
    { name := "struct.file"
      body := some [.struct ⟨0⟩, .pointerTo (.struct ⟨1⟩), .pointerTo (.func .void [] false),
        .array (.int 8) 0] }
  { structs := ⟨#[counter, cred, file]⟩
    modules := #[{ name := "m", layout := ⟨0⟩, sourceFile := "m" }] }

/-- A client gets ready for requests about the file. -/
def fileSetup : List Operation :=
  [.event (.addAnalysis none none), .event (.addLayout {}), .event (.edit fileProgram)]

/-- It asks for the file. -/
def fileOps : List Operation :=
  .event (.locate ⟨0⟩ ⟨2⟩ ⟨0⟩ none) :: fileSetup

theorem runs_fileSetup : Runs (fun _ _ t => t = {}) fileSetup (replay fileSetup) :=
  .step (.step (.edit _ fileProgram) (.event (.addLayout {})) trivial)
    (.event (.addAnalysis none none)) ⟨nofun, nofun⟩

theorem runs_fileOps : Runs (fun _ _ t => t = {}) fileOps (replay fileOps) :=
  runs_fileSetup.step (.event (.locate ⟨0⟩ ⟨2⟩ ⟨0⟩ none)) ⟨by decide, by decide⟩

theorem reader_fileOps : (replay fileOps).reader ⟨0⟩ = (replay fileSetup).reader ⟨0⟩ := by
  have hexec : replay fileOps =
      after (Work.handleOf ⟨0⟩ ⟨2⟩ ⟨0⟩ none) (replay fileSetup) := rfl
  rw [hexec, Work.handleOf, Session.after_flatten, Session.reader_takeOver]

theorem handle?_fileOps :
    ∃ n, ((replay fileOps).analysis ⟨0⟩).registry.handle? ⟨2⟩ "m" = some n := by
  have hlays : fileProgram.structs.Lays {} ⟨2⟩ := ⟨_, rfl⟩
  have hnamed : ∀ x, fileProgram.structs.Nameable x := Structs.nameable_of_forall_named (by decide)
  obtain ⟨n, he, hn⟩ := runs_fileSetup.sound.handleOf_met ⟨0⟩ ⟨2⟩ ⟨0⟩ none (by decide) (by decide)
    hlays.wellFormed fun x _ => .inr (hnamed x)
  have hasked : replay fileOps = _ := after_ok he
  rw [hasked, Session.analysis_takeOver, if_pos (by decide)]
  exact ⟨n, hn⟩

/-- The counter counts although it is a duplicate, and the text makes the file flexible. -/
theorem securityFlags_exact_file :
    ∃ i d, ((replay fileOps).analysis ⟨0⟩).registry.handle? ⟨2⟩ "m" = some i ∧
      ((replay fileOps).analysis ⟨0⟩).registry.descriptor i = d ∧
      0 ∈ d.refcountOffsets ∧ 8 ∈ d.credOffsets ∧ 16 ∈ d.funcPtrOffsets ∧
      d.hasRefcount = true ∧ d.isCred = true ∧ d.hasFuncPtr = true ∧
      ¬ d.isFuncTable = true ∧ d.flexible = true := by
  obtain ⟨i, hi⟩ := handle?_fileOps
  have hrun := runs_fileOps
  have hflat := (hrun.sound.registries ⟨0⟩).flattenedOn hrun.sound.targets hi
  have hprogram : (replay fileOps).program = fileProgram :=
    congrArg FlattenContext.program reader_fileOps
  have hconfig : (replay fileOps).settingsOf (some ((replay fileOps).analysis ⟨0⟩).settings) = {} :=
    congrArg FlattenContext.settings reader_fileOps
  have hz : fileProgram.structs.NoNegative {} := by decide
  have hunmarked : ∀ k, ¬ Marked fileOps ⟨0⟩ k := by
    rintro k ⟨offset, hmem⟩
    simp [fileOps, fileSetup] at hmem
  have hexact := securityFlags_exact hrun hflat hi
    (by rw [hprogram]; exact fun x _ e he => hz.bytesOn he) fun _ _ k _ => hunmarked k
  rw [hprogram, hconfig] at hexact
  obtain ⟨hcounters, hcreds, hpointers, hcounter, hcred, hpointer, htable, hflexible⟩ := hexact
  have hleaves : fileProgram.structs.leaves {} ⟨2⟩ =
      [[⟨⟨2⟩, 0, .struct ⟨0⟩⟩, ⟨⟨0⟩, 0, .int 32⟩], [⟨⟨2⟩, 1, .pointerTo (.struct ⟨1⟩)⟩],
        [⟨⟨2⟩, 2, .pointerTo (.func .void [] false)⟩], [⟨⟨2⟩, 3, .array (.int 8) 0⟩]] := by
    decide +kernel
  rw [hleaves] at hcounters hcreds hpointers htable
  have h0 := (hcounters 0).2 ⟨_, List.mem_cons_self .., [], ⟨⟨2⟩, 0, .struct ⟨0⟩⟩, ⟨0⟩, by simp,
    rfl, by decide, by decide⟩
  have h8 := (hcreds 8).2 ⟨[⟨⟨2⟩, 1, .pointerTo (.struct ⟨1⟩)⟩], by simp, _, ⟨1⟩, rfl, rfl, rfl,
    by decide, by decide⟩
  have h16 := (hpointers 16).2 ⟨[⟨⟨2⟩, 2, .pointerTo (.func .void [] false)⟩], by simp, _, rfl, rfl,
    by decide⟩
  refine ⟨i, _, hi, rfl, h0, h8, h16, hcounter.2 ⟨0, h0⟩, hcred.2 ⟨8, h8⟩, hpointer.2 ⟨16, h16⟩,
    fun h => ?_, hflexible.2 ⟨rfl, .array (.int 8) 0, rfl, .inl ⟨.int 8, rfl⟩⟩⟩
  have hall := (htable.1 h).2 _ (List.mem_cons_self ..)
  simp [Ty.isFunctionPointer] at hall

end KernelObjects
