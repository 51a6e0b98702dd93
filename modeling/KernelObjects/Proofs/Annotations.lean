import Mathlib.Data.List.Sort
import KernelObjects.Descriptor

/-!
# Annotations

A descriptor that is finished has its table, and everything that follows from the table, for ever.
What other analyses learn about the struct is added to it: offsets to sets, instructions to the ends
of lists, sites to the ledger, containers. Six of the sets of offsets have a flag beside them.

Results:
* `Annotates.becomes`: an annotation adds, and takes nothing back.
* `Annotates.settled`: an annotation keeps every flag in step with its set.
* `settle_settle`: what follows from a table is settled once.
-/
namespace KernelObjects

/-- The findings that have a flag and a set of offsets. -/
inductive Mark where
  | funcPtr
  | leakable
  | controllable
  | boundary
  | refcount
  | cred
  deriving DecidableEq, Repr

/-- The lists of instructions of a descriptor. -/
inductive Roll where
  | allocSite
  | allocInst
  | leak
  | copyout
  | copyin
  | credFree
  deriving DecidableEq, Repr

theorem OrderedSet.prefix_insert {α : Type} [DecidableEq α] (s : OrderedSet α) (a : α) :
    s.items <+: (s.insert a).items := by
  rw [items_insert]
  split
  · exact List.prefix_refl _
  · exact List.prefix_append _ _

theorem OrderedSet.prefix_insertAll {α : Type} [DecidableEq α] (s : OrderedSet α) (as : List α) :
    s.items <+: (s.insertAll as).items := by
  induction as generalizing s with
  | nil => exact List.prefix_refl _
  | cons a as ih => exact (s.prefix_insert a).trans (ih (s.insert a))

namespace OffsetSet

/-- Sets with the same members are equal, since the members are in order. -/
theorem ext_mem {s t : OffsetSet} (h : ∀ o, o ∈ s ↔ o ∈ t) : s = t :=
  OffsetSet.ext (s.ascending.eq_of_mem_iff t.ascending fun o => h o)

theorem isEmpty_eq_false_iff {s : OffsetSet} : s.isEmpty = false ↔ ∃ o, o ∈ s := by
  rw [isEmpty, Bool.eq_false_iff, ne_eq, List.isEmpty_iff]
  exact ⟨List.exists_mem_of_ne_nil _, fun ⟨o, ho⟩ => List.ne_nil_of_mem ho⟩

theorem isEmpty_insert (s : OffsetSet) (o : Int) : (s.insert o).isEmpty = false :=
  isEmpty_eq_false_iff.2 ⟨o, mem_insert.2 (.inl rfl)⟩

end OffsetSet

/-- The ledger refuses a second site, so none is replaced. -/
theorem Ledger.get?_of_add {l l' : Ledger} {offset o : Int} {v u : ValueId} {site x : SiteId}
    (h : l.add offset v site = some l') (hx : l.get? o u = some x) : l'.get? o u = some x := by
  rw [get?_add h]
  split
  · next he =>
    rw [he.1, he.2] at hx
    have hnone := (add_eq_none_iff l offset v site).2 (Option.isSome_of_eq_some hx)
    rw [h] at hnone
    cases hnone
  · exact hx

namespace Descriptor

/-- The flag of a finding. -/
def marked (d : Descriptor) : Mark → Bool
  | .funcPtr => d.hasFuncPtr
  | .leakable => d.leakable
  | .controllable => d.controllable
  | .boundary => d.hasBoundary
  | .refcount => d.hasRefcount
  | .cred => d.isCred

/-- The offsets of a finding. -/
def offsets (d : Descriptor) : Mark → OffsetSet
  | .funcPtr => d.funcPtrOffsets
  | .leakable => d.leakableOffsets
  | .controllable => d.controllableOffsets
  | .boundary => d.boundaryOffsets
  | .refcount => d.refcountOffsets
  | .cred => d.credOffsets

/-- A list of instructions. -/
def insts (d : Descriptor) : Roll → OrderedSet ValueId
  | .allocSite => d.allocSites
  | .allocInst => d.allocInsts
  | .leak => d.leakInsts
  | .copyout => d.copyoutInsts
  | .copyin => d.copyinInsts
  | .credFree => d.credFreeSites

/-- What a descriptor can become: its table and its origin stay, everything else is added to. -/
structure Becomes (d d' : Descriptor) : Prop where
  type : d'.type = d.type
  home : d'.home = d.home
  layout : d'.layout = d.layout
  shape : d'.shape = d.shape
  containers : ∀ p ∈ d.containers, p ∈ d'.containers
  offsets : ∀ k, ∀ o ∈ d.offsets k, o ∈ d'.offsets k
  credFreeOffsets : ∀ o ∈ d.credFreeOffsets, o ∈ d'.credFreeOffsets
  insts : ∀ k, (d.insts k).items <+: (d'.insts k).items
  marked : ∀ k, d.marked k = true → d'.marked k = true
  flexible : d.flexible = true → d'.flexible = true
  isFuncTable : d.isFuncTable = true → d'.isFuncTable = true
  credAnalyzed : d.credAnalyzed = true → d'.credAnalyzed = true
  finished : d.finished = true → d'.finished = true
  sites : ∀ offset v site, d.ledger.get? offset v = some site →
    d'.ledger.get? offset v = some site

theorem Becomes.refl (d : Descriptor) : d.Becomes d :=
  ⟨rfl, rfl, rfl, rfl, fun _ => id, fun _ _ => id, fun _ => id, fun _ => List.prefix_refl _,
    fun _ => id, id, id, id, id, fun _ _ _ => id⟩

theorem Becomes.trans {d d' d'' : Descriptor} (h : d.Becomes d') (h' : d'.Becomes d'') :
    d.Becomes d'' where
  type := h'.type.trans h.type
  home := h'.home.trans h.home
  layout := h'.layout.trans h.layout
  shape := h'.shape.trans h.shape
  containers p hp := h'.containers p (h.containers p hp)
  offsets k o ho := h'.offsets k o (h.offsets k o ho)
  credFreeOffsets o ho := h'.credFreeOffsets o (h.credFreeOffsets o ho)
  insts k := (h.insts k).trans (h'.insts k)
  marked k hk := h'.marked k (h.marked k hk)
  flexible hf := h'.flexible (h.flexible hf)
  isFuncTable hf := h'.isFuncTable (h.isFuncTable hf)
  credAnalyzed hf := h'.credAnalyzed (h.credAnalyzed hf)
  finished hf := h'.finished (h.finished hf)
  sites offset v site hs := h'.sites offset v site (h.sites offset v site hs)

/-- A finished descriptor whose flags are in step with its sets; to settle it again changes
nothing. -/
structure Settled (d : Descriptor) : Prop where
  finished : d.finished = true
  settle : d.settle = d
  inStep : ∀ k, d.marked k = true ↔ ∃ o, o ∈ d.offsets k

/-! ## One annotation -/

/-- The annotations of a descriptor; leak sites are entered with or without their length field. -/
inductive Annotates : Descriptor → Descriptor → Prop where
  | note (d : Descriptor) (n : Note) : Annotates d (d.note n)
  | container (d : Descriptor) (container : StructId) (offset : Int) :
      Annotates d (d.addContainer container offset)
  | leak {d : Descriptor} {offset : Int} {v : ValueId} {site : SiteId} {ledger : Ledger}
      (h : d.ledger.add offset v site = some ledger) (lenByLeakable : OrderedSet Int) :
      Annotates d { d with ledger, lenByLeakable }
  | checks (d : Descriptor) (allocChecks otherChecks : CheckMap) :
      Annotates d { d with allocChecks, otherChecks }

variable {d d' : Descriptor}

theorem offsets_note (d : Descriptor) (n : Note) (k : Mark) :
    ∀ o ∈ d.offsets k, o ∈ (d.note n).offsets k := by
  intro o ho
  cases n <;> cases k <;> first | exact ho | exact OffsetSet.mem_insert.2 (.inr ho)

theorem prefix_insts_note (d : Descriptor) (n : Note) (k : Roll) :
    (d.insts k).items <+: ((d.note n).insts k).items := by
  cases n <;> cases k <;>
    first
    | exact List.prefix_refl _
    | exact OrderedSet.prefix_insert _ _
    | exact OrderedSet.prefix_insertAll _ _

theorem marked_note {k : Mark} (h : d.marked k = true) (n : Note) :
    (d.note n).marked k = true := by
  cases n <;> cases k <;> first | exact h | rfl

theorem becomes_note (d : Descriptor) (n : Note) : d.Becomes (d.note n) := by
  have hadded : ∀ o ∈ d.credFreeOffsets, o ∈ (d.note n).credFreeOffsets := by
    intro o ho
    cases n <;> first | exact ho | exact OffsetSet.mem_insert.2 (.inr ho)
  have hoffsets := d.offsets_note n
  have hinsts := d.prefix_insts_note n
  have hmarked := fun k (h : d.marked k = true) => marked_note h n
  cases n <;>
    exact { Becomes.refl d with
      offsets := hoffsets, credFreeOffsets := hadded, insts := hinsts, marked := hmarked }

theorem Annotates.becomes (h : Annotates d d') : d.Becomes d' := by
  cases h with
  | note n => exact d.becomes_note n
  | container c o =>
    exact { Becomes.refl d with containers := fun p hp => List.mem_cons_of_mem _ hp }
  | leak h lenByLeakable =>
    exact { Becomes.refl d with sites := fun _ _ _ hx => Ledger.get?_of_add h hx }
  | checks allocChecks otherChecks => exact { Becomes.refl d with }

theorem settle_note (d : Descriptor) (n : Note) : (d.note n).settle = d.settle.note n := by
  cases n with
  | refcount offset => simp [note, settle, OffsetSet.isEmpty_insert]
  | _ => rfl

theorem Settled.note (h : d.Settled) (n : Note) : (d.note n).Settled where
  finished := (d.becomes_note n).finished h.finished
  settle := by rw [settle_note, h.settle]
  inStep k := by
    have hk := h.inStep k
    cases n <;> cases k <;>
      first
      | exact hk
      | exact ⟨fun _ => ⟨_, OffsetSet.mem_insert.2 (.inl rfl)⟩, fun _ => rfl⟩

theorem Annotates.settled (ha : Annotates d d') (h : d.Settled) : d'.Settled := by
  cases ha with
  | note n => exact h.note n
  | container c o =>
    have hs : (d.addContainer c o).settle = d.settle.addContainer c o := rfl
    exact ⟨h.finished, by rw [hs, h.settle], h.inStep⟩
  | @leak _ _ _ ledger _ lenByLeakable =>
    have hs : settle { d with ledger, lenByLeakable } = { d.settle with ledger, lenByLeakable } :=
      rfl
    exact ⟨h.finished, by rw [hs, h.settle], h.inStep⟩
  | checks allocChecks otherChecks =>
    have hs : settle { d with allocChecks, otherChecks } =
        { d.settle with allocChecks, otherChecks } := rfl
    exact ⟨h.finished, by rw [hs, h.settle], h.inStep⟩

/-! ## The end of a construction -/

theorem fields_settle_ne (d : Descriptor) : d.settle.shape.fields ≠ #[] := by
  simp only [settle]
  split
  · simp
  · next hne => simpa using hne

theorem settle_settle (d : Descriptor) : d.settle.settle = d.settle := by
  have hoffsets : ∀ s t : OffsetSet, (s.union t).union t = s.union t := fun s t =>
    OffsetSet.ext_mem fun o => by simp only [OffsetSet.mem_union, or_assoc, or_self]
  have hempty : d.settle.shape.fields.isEmpty = false := by simpa using d.fields_settle_ne
  rw [settle, hempty]
  simp only [settle, Bool.false_eq_true, if_false, hoffsets]

end Descriptor

end KernelObjects
