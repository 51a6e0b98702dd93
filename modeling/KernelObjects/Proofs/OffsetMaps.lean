import KernelObjects.Proofs.FieldPlacement
import KernelObjects.Proofs.Spans
import Mathlib.Data.Nat.Find

/-!
# The offset map

The leaves of a struct are those of its fields, one field after the other, so each field has a
segment of the expanded table to itself. The offset map says where the segment starts, and the first
entry of the segment says how long it is and at which byte the field lies. A union has one segment,
that of the member that stands for it, and all its members start there.

Results:
* `getElem?_leaves`: the segment of a field holds the leaves of the field.
* `size_entryOf_first`, `offsetAlong_first`: what the first leaf of a segment says.
* `getElem?_offsetMap_expand`: the offset map says where the segments start.
* `exists_unique_segment`: every leaf lies in one segment.
* `offsetMap_partitions`: all of it, for the descriptors of a session after any run.
-/
namespace KernelObjects

namespace Structs

section

variable (S : Structs) (t : Target)

/-- The number of leaves of the fields that are visited before the one at a position. -/
def leavesBefore (a : StructId) (j : Nat) : Nat :=
  (((S.steps t a).take j).flatMap (routesBy (S.leaves t))).length

/-- The bytes from the start of a struct to the field that a route leads to. -/
def offsetAlong (route : List Step) : Int :=
  (route.map fun p => S.offsetOn t p.owner p.index).sum

end

variable {S : Structs} {t : Target} {a b : StructId} {p : Step} {j k : Nat}

@[simp]
theorem offsetAlong_nil : S.offsetAlong t [] = 0 := rfl

@[simp]
theorem offsetAlong_cons (p : Step) (route : List Step) :
    S.offsetAlong t (p :: route) = S.offsetOn t p.owner p.index + S.offsetAlong t route := by
  simp [offsetAlong]

/-! ## The fields that are visited -/

theorem steps_of_struct (hu : (S.get a).isUnion = false) :
    S.steps t a = (S.get a).elements.zipIdx.map fun q => ⟨a, q.2, q.1⟩ := by
  simp [steps, hu]

theorem getElem?_steps_of_struct (hu : (S.get a).isUnion = false) {e : Ty}
    (hj : (S.get a).elements[j]? = some e) : (S.steps t a)[j]? = some ⟨a, j, e⟩ := by
  simp [steps_of_struct hu, List.getElem?_zipIdx, hj]

theorem length_steps_of_struct (hu : (S.get a).isUnion = false) :
    (S.steps t a).length = (S.get a).elements.length := by
  simp [steps_of_struct hu]

theorem steps_of_union (hu : (S.get a).isUnion = true)
    (hz : ∀ e ∈ (S.get a).elements, 0 ≤ S.bytesOn t e) (hne : (S.get a).elements ≠ []) :
    ∃ w, widestFrom S t (S.get a).elements 0 none = some w ∧
      S.steps t a = [⟨a, w.position, w.type⟩] := by
  obtain ⟨w, hw, hfirst⟩ := exists_widestFrom hz hne
  exact ⟨w, hw, by simp [steps, hu, hfirst.widestMember_eq]⟩

theorem elements_ne_nil_of_mem_steps (hp : p ∈ S.steps t a) : (S.get a).elements ≠ [] := by
  intro he
  have hget := (getElem?_of_mem_steps hp).2
  simp [he] at hget

/-- A struct with fields has a first one that is visited. -/
theorem exists_first_step (hz : ∀ e ∈ (S.get a).elements, 0 ≤ S.bytesOn t e)
    (hne : (S.get a).elements ≠ []) : ∃ p, (S.steps t a)[0]? = some p := by
  cases hu : (S.get a).isUnion with
  | false =>
    obtain ⟨e, es, hes⟩ := List.exists_cons_of_ne_nil hne
    exact ⟨⟨a, 0, e⟩, getElem?_steps_of_struct hu (by simp [hes])⟩
  | true =>
    obtain ⟨w, -, hsteps⟩ := steps_of_union hu hz hne
    exact ⟨⟨a, w.position, w.type⟩, by simp [hsteps]⟩

/-- It starts where the struct does. -/
theorem offsetOn_first_step (ht : t.Aligned) (hw : S.WellFormed a)
    (hp : (S.steps t a)[0]? = some p) : S.offsetOn t p.owner p.index = 0 := by
  obtain ⟨l, hl⟩ := exists_layoutOn ht hw
  have howner := (getElem?_of_mem_steps (List.mem_of_getElem? hp)).1
  cases hu : (S.get a).isUnion with
  | false =>
    rw [steps_of_struct hu, List.getElem?_map, List.getElem?_zipIdx] at hp
    obtain ⟨q, hq, rfl⟩ := Option.map_eq_some_iff.1 hp
    obtain ⟨e, -, rfl⟩ := Option.map_eq_some_iff.1 hq
    exact offsetOn_zero ht hl
  | true =>
    rw [howner]
    exact offsetOn_union hl hu _

/-! ## Segments -/

theorem routesBy_embedded {leaves : StructId → List (List Step)} (hb : p.type.embedded? = some b) :
    routesBy leaves p = (leaves b).map (p :: ·) := by
  simp [routesBy, hb]

theorem routesBy_scalar {leaves : StructId → List (List Step)} (hn : p.type.embedded? = none) :
    routesBy leaves p = [[p]] := by
  simp [routesBy, hn]

theorem routesBy_ne_nil (hb : ∀ b, p.type.embedded? = some b → S.leaves t b ≠ []) :
    routesBy (S.leaves t) p ≠ [] := by
  cases h : p.type.embedded? with
  | none => simp [routesBy_scalar h]
  | some b => simpa [routesBy_embedded h] using hb b h

/-- Every struct has a leaf. -/
theorem leaves_ne_nil (hf : S.Founded a) (hz : S.NoNegativeBelow t a) : S.leaves t a ≠ [] := by
  induction hf with
  | intro a hacc ih =>
    rw [leaves_eq (.intro a hacc)]
    split
    · simp
    · next hne =>
      have hne : (S.get a).elements ≠ [] := by simpa using hne
      obtain ⟨p, hp⟩ := exists_first_step (hz a .refl) hne
      have hp := List.mem_of_getElem? hp
      have hroutes : routesBy (S.leaves t) p ≠ [] := routesBy_ne_nil fun b hb =>
        ih b (embeds_of_mem_steps hp hb) (hz.embeds (embeds_of_mem_steps hp hb))
      intro he
      exact hroutes (List.flatMap_eq_nil_iff.1 he p hp)

theorem routesBy_step_ne_nil (hf : S.Founded a) (hz : S.NoNegativeBelow t a)
    (hp : p ∈ S.steps t a) : routesBy (S.leaves t) p ≠ [] :=
  routesBy_ne_nil fun _ hb => leaves_ne_nil (hf.embeds (embeds_of_mem_steps hp hb))
    (hz.embeds (embeds_of_mem_steps hp hb))

@[simp]
theorem leavesBefore_zero : S.leavesBefore t a 0 = 0 := rfl

theorem leavesBefore_succ (hp : (S.steps t a)[j]? = some p) :
    S.leavesBefore t a (j + 1) = S.leavesBefore t a j + (routesBy (S.leaves t) p).length := by
  simp [leavesBefore, List.take_add_one, hp]

theorem leavesBefore_mono : Monotone (S.leavesBefore t a) := by
  apply monotone_nat_of_le_succ
  intro j
  cases hp : (S.steps t a)[j]? with
  | none => simp [leavesBefore, List.take_add_one, hp]
  | some p =>
    have hnext := leavesBefore_succ hp
    omega

/-- All fields together have all leaves. -/
theorem leavesBefore_length (hf : S.Founded a) (hne : (S.get a).elements ≠ []) :
    S.leavesBefore t a (S.steps t a).length = (S.leaves t a).length := by
  rw [leavesBefore, List.take_length, leaves_eq hf, if_neg (by simpa using hne)]

/-- The leaves before those of a field, those of the field, and those after. -/
theorem leaves_split (hf : S.Founded a) (hp : (S.steps t a)[j]? = some p) :
    S.leaves t a = ((S.steps t a).take j).flatMap (routesBy (S.leaves t)) ++
      (routesBy (S.leaves t) p ++
        ((S.steps t a).drop (j + 1)).flatMap (routesBy (S.leaves t))) := by
  have hne := elements_ne_nil_of_mem_steps (List.mem_of_getElem? hp)
  obtain ⟨hlt, rfl⟩ := List.getElem?_eq_some_iff.1 hp
  rw [← List.flatMap_cons, ← List.flatMap_append, ← List.drop_eq_getElem_cons hlt,
    List.take_append_drop, leaves_eq hf, if_neg (by simpa using hne)]

/-- The segment of a field holds the leaves of the field. -/
theorem getElem?_leaves (hf : S.Founded a) (hp : (S.steps t a)[j]? = some p)
    (hk : k < (routesBy (S.leaves t) p).length) :
    (S.leaves t a)[S.leavesBefore t a j + k]? = (routesBy (S.leaves t) p)[k]? := by
  unfold leavesBefore
  rw [leaves_split hf hp, List.getElem?_append_right (by omega), Nat.add_sub_cancel_left,
    List.getElem?_append_left hk]

/-- Every leaf lies in one segment. -/
theorem exists_unique_segment (hf : S.Founded a) (hne : (S.get a).elements ≠ [])
    (hk : k < (S.leaves t a).length) :
    ∃! j, S.leavesBefore t a j ≤ k ∧ k < S.leavesBefore t a (j + 1) := by
  have hmono := leavesBefore_mono (S := S) (t := t) (a := a)
  -- the first segment that ends behind the leaf
  have hends : ∃ j, k < S.leavesBefore t a (j + 1) := by
    refine ⟨(S.steps t a).length, Nat.lt_of_lt_of_le hk ?_⟩
    rw [← leavesBefore_length hf hne]
    exact hmono (Nat.le_succ _)
  refine ⟨Nat.find hends, ⟨?_, Nat.find_spec hends⟩, ?_⟩
  · cases hfirst : Nat.find hends with
    | zero => simp
    | succ j =>
      have hbefore := Nat.find_min hends (m := j) (by omega)
      omega
  · rintro j ⟨hstart, hend⟩
    have hle := Nat.find_min' hends hend
    have hspec := Nat.find_spec hends
    by_contra hother
    have hstep := hmono (show Nat.find hends + 1 ≤ j by omega)
    omega

/-! ## The first leaf of a segment -/

/-- The first leaf of a field says how many leaves the field has. -/
theorem size_entryOf_first {r : List Step} (hr : (routesBy (S.leaves t) p).head? = some r) :
    (S.entryOf t r).size = (routesBy (S.leaves t) p).length := by
  cases hb : p.type.embedded? with
  | none =>
    rw [routesBy_scalar hb] at hr ⊢
    obtain rfl : [p] = r := by simpa using hr
    simp [entryOf_scalar hb, Flatten.scalarEntry]
  | some b =>
    rw [routesBy_embedded hb] at hr ⊢
    obtain ⟨rest, hrest, rfl⟩ : ∃ rest, (S.leaves t b).head? = some rest ∧ p :: rest = r := by
      simpa using hr
    have hfirst : S.leadsToFirst t (p :: rest) = true := (leadsToFirst_cons hb).2 hrest
    rw [entryOf_cons hb (by simp [hfirst])]
    simp [hfirst]

/-- The segment of a field starts with the first leaf of the field. -/
theorem exists_first_leaf (hf : S.Founded a) (hz : S.NoNegativeBelow t a)
    (hp : (S.steps t a)[j]? = some p) :
    ∃ r, (routesBy (S.leaves t) p).head? = some r ∧
      (S.leaves t a)[S.leavesBefore t a j]? = some r := by
  have hroutes := routesBy_step_ne_nil hf hz (List.mem_of_getElem? hp)
  obtain ⟨r, rs, hr⟩ := List.exists_cons_of_ne_nil hroutes
  have hhead : (routesBy (S.leaves t) p).head? = some r := by simp [hr]
  have hleaf := getElem?_leaves (k := 0) hf hp (List.length_pos_of_ne_nil hroutes)
  rw [Nat.add_zero, ← List.head?_eq_getElem?, hhead] at hleaf
  exact ⟨r, hhead, hleaf⟩

/-- The first entry of a struct counts nothing exactly if the struct has no fields. -/
theorem exists_head_leafTable (hf : S.Founded a) (hz : S.NoNegativeBelow t a) :
    ∃ x, (S.leafTable t a).head? = some x ∧ (x.size = 0 ↔ (S.get a).elements = []) := by
  by_cases hne : (S.get a).elements = []
  · have hleaves : S.leaves t a = [[]] := by simp [leaves_eq hf, hne]
    exact ⟨.vacant, by simp [leafTable, hleaves, entryOf_nil], by simp [hne, FieldEntry.vacant]⟩
  · obtain ⟨p, hp⟩ := exists_first_step (hz a .refl) hne
    obtain ⟨r, hhead, hleaf⟩ := exists_first_leaf hf hz hp
    rw [leavesBefore_zero, ← List.head?_eq_getElem?] at hleaf
    have hsize := size_entryOf_first hhead
    have hpos := List.length_pos_of_ne_nil
      (routesBy_step_ne_nil hf hz (List.mem_of_getElem? hp))
    refine ⟨S.entryOf t r, by simp [leafTable, hleaf], ?_⟩
    simp only [hne, iff_false]
    omega

/-- The first leaf of a field lies where the field does, if that of the struct in it lies at its
start. -/
theorem offsetAlong_of_head {r : List Step}
    (hb : ∀ b rest, p.type.embedded? = some b → (S.leaves t b).head? = some rest →
      S.offsetAlong t rest = 0)
    (hr : (routesBy (S.leaves t) p).head? = some r) :
    S.offsetAlong t r = S.offsetOn t p.owner p.index := by
  cases hc : p.type.embedded? with
  | none =>
    rw [routesBy_scalar hc] at hr
    obtain rfl : [p] = r := by simpa using hr
    simp
  | some b =>
    rw [routesBy_embedded hc] at hr
    obtain ⟨rest, hrest, rfl⟩ : ∃ rest, (S.leaves t b).head? = some rest ∧ p :: rest = r := by
      simpa using hr
    simp [hb b rest hc hrest]

/-- The first leaf of a struct lies where the struct does. -/
theorem offsetAlong_head (ht : t.Aligned) (hw : S.WellFormed a) (hz : S.NoNegativeBelow t a)
    {r : List Step} (hr : (S.leaves t a).head? = some r) : S.offsetAlong t r = 0 := by
  induction hw generalizing r with
  | @mk a body scalars inner ih =>
    have hw : S.WellFormed a := .mk body scalars inner
    by_cases hne : (S.get a).elements = []
    · rw [leaves_eq hw.founded] at hr
      obtain rfl : [] = r := by simpa [hne] using hr
      rfl
    obtain ⟨p, hp⟩ := exists_first_step (hz a .refl) hne
    obtain ⟨r', hhead, hleaf⟩ := exists_first_leaf hw.founded hz hp
    rw [leavesBefore_zero, ← List.head?_eq_getElem?, hr] at hleaf
    obtain rfl := Option.some.inj hleaf
    rw [offsetAlong_of_head (fun b rest hb hrest => ?_) hhead, offsetOn_first_step ht hw hp]
    have hembeds := embeds_of_mem_steps (List.mem_of_getElem? hp) hb
    exact ih b hembeds (hz.embeds hembeds) hrest

/-- The first leaf of a field lies where the field does. -/
theorem offsetAlong_first (ht : t.Aligned) (hw : S.WellFormed a) (hz : S.NoNegativeBelow t a)
    (hp : p ∈ S.steps t a) {r : List Step} (hr : (routesBy (S.leaves t) p).head? = some r) :
    S.offsetAlong t r = S.offsetOn t p.owner p.index := by
  refine offsetAlong_of_head (fun b rest hb hrest => ?_) hr
  have hembeds := embeds_of_mem_steps hp hb
  exact offsetAlong_head ht (hw.embeds hembeds) (hz.embeds hembeds) hrest

/-- What the table says where the segment of a field starts. -/
theorem exists_first_entry (ht : t.Aligned) (hw : S.WellFormed a) (hz : S.NoNegativeBelow t a)
    (hp : (S.steps t a)[j]? = some p) :
    ∃ x, (S.leafTable t a)[S.leavesBefore t a j]? = some x ∧
      x.size = (routesBy (S.leaves t) p).length ∧ x.offset = S.offsetOn t a p.index := by
  have hmem := List.mem_of_getElem? hp
  obtain ⟨r, hhead, hleaf⟩ := exists_first_leaf hw.founded hz hp
  refine ⟨S.entryOf t r, by simp [leafTable, hleaf], size_entryOf_first hhead, ?_⟩
  have hoffset := offsetAlong_first ht hw hz hmem hhead
  rw [(getElem?_of_mem_steps hmem).1] at hoffset
  exact hoffset

end Structs

/-! ## The offset map of an expansion -/

section

variable (S : Structs) (t : Target) (nested : StructId → Shape)

/-- The number of entries of the first fields of `st` from position `i` on. -/
def Shape.entriesBefore (st : StructId) : List Ty → Nat → Nat → Nat
  | e :: es, i, j + 1 =>
    (chunk S t nested e (S.offsetOn t st i) false).size + entriesBefore st es (i + 1) j
  | _, _, _ => 0

end

section

variable {S : Structs} {t : Target} {nested : StructId → Shape} {a : StructId} {j : Nat}

theorem Shape.size_offsetMap_enterFields (st : StructId) (es : List Ty) (i : Nat) (s : Shape) :
    (s.enterFields S t nested st es i).offsetMap.size = s.offsetMap.size + es.length := by
  induction es generalizing i s with
  | nil => simp [enterFields]
  | cons e es ih =>
    rw [enterFields, ih]
    simp [enter, addOffset]
    omega

variable (nested) in
theorem Shape.getElem?_offsetMap_enterFields (st : StructId) {es : List Ty} (i : Nat) (s : Shape)
    (hj : j < es.length) :
    (s.enterFields S t nested st es i).offsetMap[s.offsetMap.size + j]? =
      some (s.fields.size + entriesBefore S t nested st es i j : Nat) := by
  induction es generalizing i s j with
  | nil => simp at hj
  | cons e es ih =>
    cases j with
    | zero =>
      refine (Extends.enterFields st es _ _).offsetMap ?_
      simp [enter, addOffset, entriesBefore]
    | succ j =>
      have hnext := ih (i + 1)
        ((s.addOffset s.fields.size).enter S t nested e (S.offsetOn t st i) false) (j := j)
        (by simpa using hj)
      simp only [enter, addOffset, Array.size_push, Array.size_append] at hnext
      rw [Nat.add_assoc, Nat.add_comm 1 j] at hnext
      simpa [enterFields, enter, addOffset, entriesBefore, Nat.add_assoc] using hnext

theorem Shape.entriesBefore_eq {st : StructId} {es : List Ty} {i : Nat}
    (h : ∀ q ∈ es.zipIdx i, (chunk S t nested q.1 (S.offsetOn t st q.2) false).size =
      (Structs.routesBy (S.leaves t) ⟨st, q.2, q.1⟩).length) (j : Nat) :
    entriesBefore S t nested st es i j =
      ((((es.zipIdx i).map fun q => (⟨st, q.2, q.1⟩ : Step)).take j).flatMap
        (Structs.routesBy (S.leaves t))).length := by
  induction es generalizing i j with
  | nil => simp [entriesBefore]
  | cons e es ih =>
    cases j with
    | zero => simp [entriesBefore]
    | succ j =>
      rw [List.zipIdx_cons] at h ⊢
      obtain ⟨hfirst, hrest⟩ := List.forall_mem_cons.1 h
      simp [entriesBefore, hfirst, ih hrest]

namespace Structs

/-- The segments of a struct are as long as the pieces of its table. -/
theorem entriesBefore_eq_leavesBefore (hf : S.Founded a) (hu : (S.get a).isUnion = false)
    (hn : ∀ b, S.Embeds a b → Tabled S t nested b) (j : Nat) :
    Shape.entriesBefore S t nested a (S.get a).elements 0 j = S.leavesBefore t a j := by
  rw [leavesBefore, steps_of_struct hu]
  apply Shape.entriesBefore_eq
  intro q hq
  have hmem : (⟨a, q.2, q.1⟩ : Step) ∈ S.steps t a := by
    rw [steps_of_struct hu]
    exact List.mem_map_of_mem hq
  have hchunk := congrArg List.length (chunk_step hf hn hmem)
  rw [hu] at hchunk
  simpa using hchunk

theorem size_offsetMap_enterMembers (es : List Ty) (s : Shape) :
    (s.enterMembers es).offsetMap.size = s.offsetMap.size + es.length := by
  induction es generalizing s with
  | nil => simp [Shape.enterMembers]
  | cons e es ih =>
    rw [Shape.enterMembers, ih]
    simp [Shape.addOffset, Shape.addType]
    omega

/-- The offset map has a place for each field. -/
theorem size_offsetMap_expand (t : Target) (nested : StructId → Shape) (a : StructId) :
    (S.expand t nested a).offsetMap.size = (S.get a).elements.length := by
  unfold expand
  dsimp only
  cases (S.get a).isUnion with
  | false => simp [Shape.settled, Shape.size_offsetMap_enterFields, Shape.addType]
  | true =>
    cases widestFrom S t (S.get a).elements 0 none <;>
      simp [Shape.settled, Shape.enter, size_offsetMap_enterMembers, Shape.addType]

/-- A field starts where its segment does, and a member where the union does. -/
theorem getElem?_offsetMap_expand (hf : S.Founded a)
    (hn : ∀ b, S.Embeds a b → Tabled S t nested b) (hj : j < (S.get a).elements.length) :
    (S.expand t nested a).offsetMap[j]? =
      some (if (S.get a).isUnion then 0 else S.leavesBefore t a j : Nat) := by
  cases hu : (S.get a).isUnion with
  | false =>
    have hmap := Shape.getElem?_offsetMap_enterFields (S := S) (t := t) nested a 0
      (Shape.addType {} 0 (.struct a)) hj
    rw [entriesBefore_eq_leavesBefore hf hu hn] at hmap
    rw [expand_struct hu]
    simpa [Shape.settled, Shape.addType] using hmap
  | true => exact (expand_member nested hu (List.getElem?_eq_getElem hj)).1

end Structs

end

/-! ## Descriptors -/

theorem Descriptor.entry_eq_ok_iff {d : Descriptor} {j : Int} {x : FieldEntry} :
    d.entry j = .ok x ↔ 0 ≤ j ∧ d.shape.fields.toList[j.toNat]? = some x := by
  refine ⟨getElem?_of_entry, fun ⟨hj, hx⟩ => ?_⟩
  rw [Array.getElem?_toList] at hx
  simp [entry, hj, hx]

theorem Descriptor.expandedIndex_eq_ok_iff {d : Descriptor} {j v : Int} :
    d.expandedIndex j = .ok v ↔ 0 ≤ j ∧ d.shape.offsetMap[j.toNat]? = some v := by
  unfold expandedIndex
  by_cases hj : 0 ≤ j
  · cases d.shape.offsetMap[j.toNat]? <;> simp [hj]
  · simp [hj]

section

variable {S : Structs} {L : Layouts} {r : Registry} {m : String} {t : Target} {b : StructId}
  {h : Nat}

/-- The tables of the structs in a struct that is flattened on a target list their leaves. -/
theorem Registry.Consistent.tabled (hr : r.Consistent S L) (hflat : r.FlattenedOn S L m t b)
    (hb : r.handle? b m = some h) (hz : S.NoNegativeBelow t b) {c : StructId}
    (hc : S.Embeds b c) : Structs.Tabled S t (r.shapeIn m) c := by
  obtain ⟨h', hh', -⟩ := hr.inner hb hc
  rw [Structs.Tabled, shapeIn_of_handle hh']
  refine ⟨hr.fields_eq_below (hflat.embeds hc) hh' (hz.embeds hc), ?_⟩
  rw [hr.shape hh']
  exact S.fields_expand_ne _ _ _

theorem Registry.Consistent.shape_eq_expand (hr : r.Consistent S L)
    (hflat : r.FlattenedOn S L m t b) (hb : r.handle? b m = some h) :
    (r.descriptor h).shape = S.expand t (r.shapeIn m) b := by
  rw [hr.shape hb, hflat.target hb]

end

namespace Descriptor

/-- An index of the table belongs to a declared field: it is among the entries that the first entry
of the field counts. -/
def Covers (d : Descriptor) (field index : Int) : Prop :=
  ∃ start x, d.expandedIndex field = .ok start ∧ d.entry start = .ok x ∧
    start ≤ index ∧ index < start + x.size

/-- The table of a descriptor lists the leaves of a struct, and its offset map says where the
segments of the fields start. -/
structure Segmented (d : Descriptor) (S : Structs) (t : Target) (a : StructId) : Prop where
  fields : d.shape.fields.toList = S.leafTable t a
  size : d.shape.offsetMap.size = (S.get a).elements.length
  starts : ∀ {j : Nat}, j < (S.get a).elements.length →
    d.shape.offsetMap[j]? =
      some (if (S.get a).isUnion then 0 else S.leavesBefore t a j : Nat)

namespace Segmented

variable {d : Descriptor} {S : Structs} {t : Target} {a : StructId} (hd : d.Segmented S t a)
include hd

theorem expandedSize_eq : d.expandedSize = (S.leaves t a).length := by
  rw [expandedSize, ← Array.length_toList, hd.fields, Structs.leafTable, List.length_map]

theorem expandedIndex_eq {j : Nat} (hj : j < (S.get a).elements.length) :
    d.expandedIndex j = .ok (if (S.get a).isUnion then 0 else S.leavesBefore t a j : Nat) :=
  expandedIndex_eq_ok_iff.2 ⟨by omega, hd.starts hj⟩

/-- A declared field has a place in the offset map, and nothing else has. -/
theorem exists_of_expandedIndex {j v : Int} (h : d.expandedIndex j = .ok v) :
    ∃ n : Nat, j = n ∧ n < (S.get a).elements.length := by
  obtain ⟨hj, hv⟩ := expandedIndex_eq_ok_iff.1 h
  have hlt := (Array.getElem?_eq_some_iff.1 hv).1
  have hsize := hd.size
  exact ⟨j.toNat, by omega, by omega⟩

theorem isEmpty_eq (hf : S.Founded a) (hz : S.NoNegativeBelow t a) :
    d.isEmpty = .ok (decide ((S.get a).elements.length = 0)) := by
  obtain ⟨x, hx, hsize⟩ := Structs.exists_head_leafTable hf hz
  have hfirst : d.shape.fields[0]? = some x := by
    rw [← Array.getElem?_toList, hd.fields, ← List.head?_eq_getElem?, hx]
  simp [isEmpty, hfirst, hsize]

variable (ht : t.Aligned) (hw : S.WellFormed a) (hz : S.NoNegativeBelow t a)
include ht hw hz

/-- The entry at the start of a segment. -/
theorem entry_first {p : Step} {j : Nat} (hp : (S.steps t a)[j]? = some p) :
    ∃ x, d.entry (S.leavesBefore t a j) = .ok x ∧
      x.size = (Structs.routesBy (S.leaves t) p).length ∧ x.offset = S.offsetOn t a p.index := by
  obtain ⟨x, hx, hsize, hoffset⟩ := Structs.exists_first_entry ht hw hz hp
  refine ⟨x, entry_eq_ok_iff.2 ⟨by omega, ?_⟩, hsize, hoffset⟩
  rw [hd.fields]
  exact hx

/-- The first entry of a field is at the offset of the field. -/
theorem entry_offset {l : StructLayout} (hl : S.layoutOn t a = .ok l) {j : Nat}
    (hj : j < (S.get a).elements.length) :
    ∃ start x, d.expandedIndex j = .ok start ∧ d.entry start = .ok x ∧
      l.offsetAt j = .ok x.offset := by
  have hstart := hd.expandedIndex_eq hj
  rw [Structs.offsetAt_eq hl hj]
  cases hu : (S.get a).isUnion with
  | false =>
    rw [hu] at hstart
    obtain ⟨x, hx, -, hoffset⟩ := hd.entry_first ht hw hz
      (Structs.getElem?_steps_of_struct hu (List.getElem?_eq_getElem hj))
    exact ⟨_, x, hstart, hx, by rw [hoffset]⟩
  | true =>
    rw [hu] at hstart
    obtain ⟨p, hp⟩ := Structs.exists_first_step (hz a .refl) (List.ne_nil_of_length_pos (by omega))
    obtain ⟨x, hx, -, hoffset⟩ := hd.entry_first ht hw hz hp
    refine ⟨_, x, hstart, hx, ?_⟩
    rw [hoffset, Structs.offsetOn_union hl hu, Structs.offsetOn_union hl hu]

section

variable (hu : (S.get a).isUnion = false)
include hu

/-- A field ends where the next one starts. -/
theorem entry_size {j : Nat} (hj : j < (S.get a).elements.length) :
    ∃ x, d.expandedIndex j = .ok (S.leavesBefore t a j : Int) ∧
      d.entry (S.leavesBefore t a j) = .ok x ∧
      S.leavesBefore t a j + x.size = S.leavesBefore t a (j + 1) := by
  have hp := Structs.getElem?_steps_of_struct (t := t) hu (List.getElem?_eq_getElem hj)
  obtain ⟨x, hx, hsize, -⟩ := hd.entry_first ht hw hz hp
  refine ⟨x, by simpa [hu] using hd.expandedIndex_eq hj, hx, ?_⟩
  rw [hsize, Structs.leavesBefore_succ hp]
  omega

theorem expandedIndex_next {j start : Int} {x : FieldEntry} (hstart : d.expandedIndex j = .ok start)
    (hx : d.entry start = .ok x) :
    if j + 1 < (S.get a).elements.length then d.expandedIndex (j + 1) = .ok (start + x.size)
    else start + x.size = d.expandedSize := by
  obtain ⟨n, rfl, hn⟩ := hd.exists_of_expandedIndex hstart
  obtain ⟨y, hindex, hy, hsum⟩ := hd.entry_size ht hw hz hu hn
  obtain rfl : _ = start := Except.ok.inj (hindex.symm.trans hstart)
  obtain rfl : y = x := Except.ok.inj (hy.symm.trans hx)
  rw [hsum]
  split
  · have hnext := hd.expandedIndex_eq (j := n + 1) (by omega)
    simpa [hu] using hnext
  · have hlast : n + 1 = (S.steps t a).length := by
      rw [Structs.length_steps_of_struct hu]
      omega
    rw [hlast, Structs.leavesBefore_length hw.founded (List.ne_nil_of_length_pos (by omega)),
      hd.expandedSize_eq]

theorem covers_iff {j e : Int} :
    d.Covers j e ↔ ∃ n k : Nat, j = n ∧ e = k ∧ n < (S.get a).elements.length ∧
      S.leavesBefore t a n ≤ k ∧ k < S.leavesBefore t a (n + 1) := by
  constructor
  · rintro ⟨start, x, hstart, hx, hle, hlt⟩
    obtain ⟨n, rfl, hn⟩ := hd.exists_of_expandedIndex hstart
    obtain ⟨y, hindex, hy, hsum⟩ := hd.entry_size ht hw hz hu hn
    obtain rfl : _ = start := Except.ok.inj (hindex.symm.trans hstart)
    obtain rfl : y = x := Except.ok.inj (hy.symm.trans hx)
    exact ⟨n, e.toNat, rfl, by omega, hn, by omega, by omega⟩
  · rintro ⟨n, k, rfl, rfl, hn, hle, hlt⟩
    obtain ⟨x, hindex, hx, hsum⟩ := hd.entry_size ht hw hz hu hn
    exact ⟨_, x, hindex, hx, by omega, by omega⟩

/-- Every index of the table belongs to exactly one field. -/
theorem existsUnique_covers (hne : (S.get a).elements ≠ []) {e : Int} (he : 0 ≤ e)
    (hlt : e < d.expandedSize) : ∃! j, d.Covers j e := by
  rw [hd.expandedSize_eq] at hlt
  obtain ⟨n, ⟨hstart, hend⟩, hunique⟩ :=
    Structs.exists_unique_segment (k := e.toNat) (t := t) hw.founded hne (by omega)
  have hn : n < (S.get a).elements.length := by
    -- behind the last field no segment has a leaf
    rw [← Structs.length_steps_of_struct (t := t) hu]
    by_contra hge
    have hall := Structs.leavesBefore_mono (S := S) (t := t) (a := a) (Nat.le_of_not_lt hge)
    rw [Structs.leavesBefore_length hw.founded hne] at hall
    omega
  refine ⟨n, (hd.covers_iff ht hw hz hu).2 ⟨n, e.toNat, rfl, by omega, hn, hstart, hend⟩, ?_⟩
  intro j hj
  obtain ⟨n', k, rfl, rfl, -, hstart', hend'⟩ := (hd.covers_iff ht hw hz hu).1 hj
  rw [hunique n' ⟨by simpa using hstart', by simpa using hend'⟩]

end

/-- The first entry of a union counts all entries. -/
theorem entry_union (hu : (S.get a).isUnion = true) (hne : (S.get a).elements ≠ []) :
    ∃ x, d.entry 0 = .ok x ∧ x.size = d.expandedSize := by
  obtain ⟨w, -, hsteps⟩ := Structs.steps_of_union hu (hz a .refl) hne
  have hp : (S.steps t a)[0]? = some ⟨a, w.position, w.type⟩ := by simp [hsteps]
  obtain ⟨x, hx, hsize, -⟩ := hd.entry_first ht hw hz hp
  refine ⟨x, hx, ?_⟩
  -- the only segment has all leaves
  have hall := Structs.leavesBefore_length (t := t) hw.founded hne
  have hone := Structs.leavesBefore_succ hp
  simp only [hsteps, List.length_singleton, Structs.leavesBefore_zero, Nat.zero_add] at hall hone
  rw [hsize, hd.expandedSize_eq]
  omega

end Segmented

end Descriptor

theorem Registry.Consistent.segmented {S : Structs} {L : Layouts} {r : Registry} {m : String}
    {t : Target} {b : StructId} {h : Nat} (hr : r.Consistent S L)
    (hflat : r.FlattenedOn S L m t b) (hb : r.handle? b m = some h)
    (hz : S.NoNegativeBelow t b) : (r.descriptor h).Segmented S t b where
  fields := hr.fields_eq_below hflat hb hz
  size := by rw [hr.shape hb, Structs.size_offsetMap_expand]
  starts hj := by
    rw [hr.shape_eq_expand hflat hb]
    exact Structs.getElem?_offsetMap_expand (hr.wellFormed hb).founded
      (fun c hc => hr.tabled hflat hb hz hc) hj

/-! ## Sessions -/

/-- After any run, of a struct that is flattened on a target with positive alignments and has no
negative size in it: the fields of a struct divide the table among them, each one starting where the
one before ends, and the members of a union share all of it. The first entry of a field is at the
offset that the layout gives to the field. -/
theorem offsetMap_partitions {policy : AnalysisId → String → Target → Prop} {ops : List Operation}
    {s : Session} (h : Runs policy ops s) {a : AnalysisId} {m : String} {t : Target}
    (ht : t.Aligned) {st : StructId}
    (hflat : (s.analysis a).registry.FlattenedOn s.program.structs s.layouts m t st) {i : Nat}
    (hst : (s.analysis a).registry.handle? st m = some i)
    (hz : s.program.structs.NoNegativeBelow t st) :
    let definition := s.program.structs.get st
    let n := definition.elements.length
    let d := (s.analysis a).registry.descriptor i
    d.declaredSize = n ∧ d.isEmpty = .ok (decide (n = 0)) ∧
    (∃ l, s.Tells d.layout (.layout st) l ∧ ∀ j : Nat, j < n → ∃ start x,
      d.expandedIndex j = .ok start ∧ d.entry start = .ok x ∧ l.offsetAt j = .ok x.offset) ∧
    (definition.isUnion = false → 0 < n →
      d.expandedIndex 0 = .ok 0 ∧
      (∀ (j start : Int) x, d.expandedIndex j = .ok start → d.entry start = .ok x →
        if j + 1 < n then d.expandedIndex (j + 1) = .ok (start + x.size)
        else start + x.size = d.expandedSize) ∧
      ∀ e : Int, 0 ≤ e → e < d.expandedSize → ∃! j, d.Covers j e) ∧
    (definition.isUnion = true → 0 < n →
      (∀ j : Nat, j < n → d.expandedIndex j = .ok 0) ∧
      ∃ x, d.entry 0 = .ok x ∧ x.size = d.expandedSize) := by
  intro definition n d
  have hr := h.sound.registries a
  have hw := hr.wellFormed hst
  obtain ⟨l, hl⟩ := Structs.exists_layoutOn ht hw
  have hd : d.Segmented s.program.structs t st := hr.segmented hflat hst hz
  have htarget : s.layouts.targetOf d.layout = t := hflat.target hst
  refine ⟨hd.size, hd.isEmpty_eq hw.founded hz, ⟨l, ?_, fun j hj => hd.entry_offset ht hw hz hl hj⟩,
    fun hu hn => ⟨?_, fun j start x hstart hx => ?_, fun e he hlt => ?_⟩, fun hu hn => ⟨?_, ?_⟩⟩
  · rw [h.tells_iff (.layout st) fun _ => hw.sizedStruct.founded, htarget]
    exact hl
  · simpa [hu, definition] using hd.expandedIndex_eq hn
  · exact hd.expandedIndex_next ht hw hz hu hstart hx
  · exact hd.existsUnique_covers ht hw hz hu (List.ne_nil_of_length_pos hn) he hlt
  · intro j hj
    simpa [hu, definition] using hd.expandedIndex_eq hj
  · exact hd.entry_union ht hw hz hu (List.ne_nil_of_length_pos hn)

theorem noNegativeBelow_askedSession (st : StructId) :
    askedSession.program.structs.NoNegativeBelow {} st := by
  have hz : smallProgram.structs.NoNegative {} := by decide
  rw [program_askedSession]
  exact fun x _ e he => hz.bytesOn he

/-- The node has an entry of its own, two for the array of pairs and two for the union. -/
theorem offsetMap_partitions_node :
    ∃ i d, (askedSession.analysis ⟨0⟩).registry.handle? ⟨2⟩ "m" = some i ∧
      (askedSession.analysis ⟨0⟩).registry.descriptor i = d ∧
      d.declaredSize = 3 ∧ d.isEmpty = .ok false ∧ d.expandedIndex 0 = .ok 0 ∧
      ∀ e : Int, 0 ≤ e → e < d.expandedSize → ∃! j, d.Covers j e := by
  obtain ⟨i, hi⟩ := handle?_askedSession
  have hrun := runs_askedSession
  have hflat := (hrun.sound.registries ⟨0⟩).flattenedOn hrun.sound.targets hi
  have hparts := offsetMap_partitions hrun (by decide) hflat hi (noNegativeBelow_askedSession ⟨2⟩)
  rw [program_askedSession] at hparts
  obtain ⟨hsize, hempty, -, hstruct, -⟩ := hparts
  obtain ⟨hfirst, -, hcovers⟩ := hstruct rfl (by decide)
  exact ⟨i, _, hi, rfl, hsize, hempty, hfirst, hcovers⟩

end KernelObjects
