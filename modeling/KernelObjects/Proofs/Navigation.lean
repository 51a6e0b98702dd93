import KernelObjects.Proofs.Tables

/-!
# Navigating by indices

A list of indices leads from a struct into what it holds. Adding up where each indexed field starts
leads to an entry of the expanded table, adding up the offsets of the fields leads to a place in
memory, and following the types leads to a type. The three agree.

Results:
* `StartsAt`, `expand_field`, `expand_widest`: where a field is found in the shape of its struct.
* `navigation_agrees`: the entry that indices lead to is at the right offset, and an object of the
  right type starts there.
-/
namespace KernelObjects

/-! ## Shapes that grow -/

/-- All that a shape has, another one has at the same places. -/
structure Shape.Extends (s s' : Shape) : Prop where
  fields : ∀ {i : Nat} {x}, s.fields[i]? = some x → s'.fields[i]? = some x
  offsetMap : ∀ {i : Nat} {v}, s.offsetMap[i]? = some v → s'.offsetMap[i]? = some v
  elementTypes : ∀ {p}, p ∈ s.elementTypes → p ∈ s'.elementTypes

namespace Shape.Extends

variable {s s' s'' : Shape} {S : Structs} {t : Target} {nested : StructId → Shape}

theorem refl (s : Shape) : s.Extends s :=
  ⟨id, id, id⟩

theorem trans (h : s.Extends s') (h' : s'.Extends s'') : s.Extends s'' :=
  ⟨fun hi => h'.fields (h.fields hi), fun hi => h'.offsetMap (h.offsetMap hi),
    fun hp => h'.elementTypes (h.elementTypes hp)⟩

theorem addOffset (s : Shape) (i : Int) : s.Extends (s.addOffset i) := by
  refine ⟨id, fun {j v} hj => ?_, id⟩
  have hlt := (Array.getElem?_eq_some_iff.1 hj).1
  rw [Shape.addOffset, Array.getElem?_push, if_neg (Nat.ne_of_lt hlt)]
  exact hj

theorem addType (s : Shape) (i : Int) (ty : Ty) : s.Extends (s.addType i ty) :=
  ⟨id, id, fun hp => Array.mem_push.2 (.inl hp)⟩

theorem enter (s : Shape) (e : Ty) (o : Int) (u : Bool) : s.Extends (s.enter S t nested e o u) := by
  refine ⟨fun {i x} hi => ?_, id, fun hp => ?_⟩
  · have hlt := (Array.getElem?_eq_some_iff.1 hi).1
    rw [Shape.enter, Array.getElem?_append_left hlt]
    exact hi
  · exact Array.mem_append.2 (.inl (Array.mem_push.2 (.inl hp)))

theorem enterFields (st : StructId) (es : List Ty) (i : Nat) (s : Shape) :
    s.Extends (s.enterFields S t nested st es i) := by
  induction es generalizing i s with
  | nil => exact refl s
  | cons e es ih => exact ((addOffset s _).trans (enter _ _ _ _)).trans (ih _ _)

theorem enterMembers (es : List Ty) (s : Shape) : s.Extends (s.enterMembers es) := by
  induction es generalizing s with
  | nil => exact refl s
  | cons e es ih => exact ((addOffset s _).trans (addType _ _ _)).trans (ih _)

theorem settled (s : Shape) : s.Extends s.settled := by
  refine ⟨fun {i x} hi => ?_, id, id⟩
  have hne : s.fields ≠ #[] := by
    rintro he
    simp [he] at hi
  rw [Structs.settled_fields hne]
  exact hi

end Shape.Extends

/-! ## Where a field starts -/

/-- A field at an offset starts at an entry: its type is known there, and its own entry, or the
table of the struct in it, lies there. -/
structure StartsAt (nested : StructId → Shape) (s : Shape) (e : Ty) (o : Int) (start : Nat) :
    Prop where
  type : ((start : Int), e.stripArrays) ∈ s.elementTypes
  scalar : e.embedded? = none → ∃ x, s.fields[start]? = some x ∧ x.offset = o
  fields : ∀ {c}, e.embedded? = some c → ∀ {i : Nat} {x}, (nested c).fields[i]? = some x →
    ∃ x', s.fields[start + i]? = some x' ∧ x'.offset = o + x.offset
  types : ∀ {c}, e.embedded? = some c → ∀ {q : Int} {ty}, (q, ty) ∈ (nested c).elementTypes →
    (start + q, ty) ∈ s.elementTypes

section

variable {S : Structs} {t : Target} {nested : StructId → Shape} {s s' : Shape} {e : Ty} {o : Int}
  {start : Nat}

theorem StartsAt.extends (h : StartsAt nested s e o start) (hs : s.Extends s') :
    StartsAt nested s' e o start where
  type := hs.elementTypes h.type
  scalar hn := by
    obtain ⟨x, hx, ho⟩ := h.scalar hn
    exact ⟨x, hs.fields hx, ho⟩
  fields hc _ _ hi := by
    obtain ⟨x', hx', ho⟩ := h.fields hc hi
    exact ⟨x', hs.fields hx', ho⟩
  types hc _ _ hp := hs.elementTypes (h.types hc hp)

theorem getElem?_splicedFields {fields : Array FieldEntry} {i : Nat} {x : FieldEntry}
    (hi : fields[i]? = some x) (base : Int) (isArray inUnion : Bool) :
    ∃ x', (splicedFields fields base isArray inUnion)[i]? = some x' ∧
      x'.offset = base + x.offset := by
  simp only [splicedFields, Array.getElem?_modify, Array.getElem?_map, hi, Option.map_some]
  split
  · exact ⟨_, rfl, Int.add_comm ..⟩
  · exact ⟨_, rfl, Int.add_comm ..⟩

variable (nested) in
theorem startsAt_enter (s : Shape) (e : Ty) (o : Int) (u : Bool) :
    StartsAt nested (s.enter S t nested e o u) e o s.fields.size where
  type := Array.mem_append.2 (.inl (Array.mem_push.2 (.inr rfl)))
  scalar hn := by
    refine ⟨Flatten.scalarEntry e o (S.bytesOn t e) u, ?_, rfl⟩
    simp [Shape.enter, Shape.chunk, hn]
  fields {c} hc i x hi := by
    obtain ⟨x', hx', ho⟩ := getElem?_splicedFields hi o e.isArray (u || (S.get c).isUnion)
    refine ⟨x', ?_, ho⟩
    simp only [Shape.enter, Shape.chunk, hc]
    rw [Array.getElem?_append_right (Nat.le_add_right ..), Nat.add_sub_cancel_left]
    exact hx'
  types {c} hc q ty hp := by
    refine Array.mem_append.2 (.inr ?_)
    simp only [Shape.innerTypes, hc]
    exact Array.mem_map.2 ⟨(q, ty), hp, by rw [Int.add_comm]⟩

variable (nested) in
/-- Each field of a struct starts where the offset map says, the first one at the next entry. -/
theorem startsAt_enterFields (st : StructId) {es : List Ty} (i : Nat) (s : Shape) {j : Nat}
    (hj : es[j]? = some e) :
    ∃ start : Nat, (s.enterFields S t nested st es i).offsetMap[s.offsetMap.size + j]? =
        some (start : Int) ∧
      StartsAt nested (s.enterFields S t nested st es i) e (S.offsetOn t st (i + j)) start ∧
      (j = 0 → start = s.fields.size) := by
  induction es generalizing i s j with
  | nil => cases hj
  | cons e' es ih =>
    cases j with
    | zero =>
      cases hj
      refine ⟨s.fields.size, ?_, ?_, fun _ => rfl⟩
      · refine (Shape.Extends.enterFields st es _ _).offsetMap ?_
        simp [Shape.enter, Shape.addOffset]
      · exact (startsAt_enter nested (s.addOffset s.fields.size) e _ false).extends
          (.enterFields st es _ _)
    | succ j =>
      obtain ⟨start, hmap, hstart, -⟩ := ih (i + 1)
        ((s.addOffset s.fields.size).enter S t nested e' (S.offsetOn t st i) false) hj
      refine ⟨start, ?_, ?_, fun h => absurd h (Nat.succ_ne_zero j)⟩
      · have hsize : ((s.addOffset s.fields.size).enter S t nested e' (S.offsetOn t st i)
            false).offsetMap.size = s.offsetMap.size + 1 := by simp [Shape.enter, Shape.addOffset]
        rw [hsize, Nat.add_assoc, Nat.add_comm 1 j] at hmap
        exact hmap
      · rw [Nat.add_assoc, Nat.add_comm 1 j] at hstart
        exact hstart

/-- Every member of a union starts at the first entry. -/
theorem members_enterMembers {es : List Ty} (s : Shape) {j : Nat} (hj : es[j]? = some e) :
    (s.enterMembers es).offsetMap[s.offsetMap.size + j]? = some 0 ∧
      (0, e.stripArrays) ∈ (s.enterMembers es).elementTypes := by
  induction es generalizing s j with
  | nil => cases hj
  | cons e' es ih =>
    have hext := Shape.Extends.enterMembers es ((s.addOffset 0).addType 0 e'.stripArrays)
    cases j with
    | zero =>
      cases hj
      refine ⟨hext.offsetMap ?_, hext.elementTypes ?_⟩
      · simp [Shape.addOffset, Shape.addType]
      · simp [Shape.addOffset, Shape.addType]
    | succ j =>
      have h := ih ((s.addOffset 0).addType 0 e'.stripArrays) hj
      have hsize : ((s.addOffset 0).addType 0 e'.stripArrays).offsetMap.size =
          s.offsetMap.size + 1 := by simp [Shape.addOffset, Shape.addType]
      rw [hsize, Nat.add_assoc, Nat.add_comm 1 j] at h
      exact h

/-! ## Where a field starts in its struct -/

variable {a : StructId}

theorem expand_struct (hu : (S.get a).isUnion = false) :
    S.expand t nested a =
      ((Shape.addType {} 0 (.struct a)).enterFields S t nested a (S.get a).elements 0).settled := by
  simp [Structs.expand, hu]

theorem expand_union (hu : (S.get a).isUnion = true) {w : Flatten.Widest}
    (hw : widestFrom S t (S.get a).elements 0 none = some w) :
    S.expand t nested a =
      (((Shape.addType {} 0 (.struct a)).enterMembers (S.get a).elements).enter S t nested w.type 0
        true).settled := by
  simp [Structs.expand, hu, hw]

variable (nested) in
theorem extends_expand_union (hu : (S.get a).isUnion = true) :
    ((Shape.addType {} 0 (.struct a)).enterMembers (S.get a).elements).Extends
      (S.expand t nested a) := by
  cases hw : widestFrom S t (S.get a).elements 0 none with
  | some w => rw [expand_union hu hw]; exact (Shape.Extends.enter _ _ _ _).trans (.settled _)
  | none =>
    have he : S.expand t nested a =
        ((Shape.addType {} 0 (.struct a)).enterMembers (S.get a).elements).settled := by
      simp [Structs.expand, hu, hw]
    rw [he]
    exact .settled _

variable (nested) in
/-- An object of the struct itself starts at its first entry. -/
theorem self_mem_expand (a : StructId) : (0, .struct a) ∈ (S.expand t nested a).elementTypes := by
  have hself : ((0 : Int), Ty.struct a) ∈ (Shape.addType {} 0 (.struct a)).elementTypes := by
    simp [Shape.addType]
  cases hu : (S.get a).isUnion with
  | true =>
    have hext := (Shape.Extends.enterMembers _ _).trans (extends_expand_union (t := t) nested hu)
    exact hext.elementTypes hself
  | false =>
    rw [expand_struct hu]
    exact ((Shape.Extends.enterFields _ _ _ _).trans (.settled _)).elementTypes hself

variable (nested) in
theorem expand_field (hu : (S.get a).isUnion = false) {j : Nat}
    (hj : (S.get a).elements[j]? = some e) :
    ∃ start : Nat, (S.expand t nested a).offsetMap[j]? = some (start : Int) ∧
      StartsAt nested (S.expand t nested a) e (S.offsetOn t a j) start ∧ (j = 0 → start = 0) := by
  obtain ⟨start, hmap, hstart, hzero⟩ := startsAt_enterFields (S := S) (t := t) nested a 0
    (Shape.addType {} 0 (.struct a)) hj
  rw [expand_struct hu]
  refine ⟨start, (Shape.Extends.settled _).offsetMap ?_, ?_, hzero⟩
  · simpa [Shape.addType] using hmap
  · rw [Nat.zero_add] at hstart
    exact hstart.extends (.settled _)

variable (nested) in
theorem expand_member (hu : (S.get a).isUnion = true) {j : Nat}
    (hj : (S.get a).elements[j]? = some e) :
    (S.expand t nested a).offsetMap[j]? = some 0 ∧
      (0, e.stripArrays) ∈ (S.expand t nested a).elementTypes := by
  obtain ⟨hmap, htype⟩ := members_enterMembers (Shape.addType {} 0 (.struct a)) hj
  have hext := extends_expand_union (t := t) nested hu
  refine ⟨hext.offsetMap ?_, hext.elementTypes htype⟩
  simpa [Shape.addType] using hmap

theorem expand_widest (hu : (S.get a).isUnion = true)
    (hz : ∀ e ∈ (S.get a).elements, 0 ≤ S.bytesOn t e) {j : Nat}
    (hw : S.widestMember t (S.get a).elements = some (e, j)) :
    StartsAt nested (S.expand t nested a) e 0 0 := by
  have hne : (S.get a).elements ≠ [] := by
    intro hnil
    rw [hnil] at hw
    cases hw
  obtain ⟨w, hfrom, hfirst⟩ := Structs.exists_widestFrom hz hne
  rw [hfirst.widestMember_eq] at hw
  cases hw
  rw [expand_union hu hfrom]
  have hempty :
      ((Shape.addType {} 0 (.struct a)).enterMembers (S.get a).elements).fields.size = 0 := by
    rw [Structs.enterMembers_fields]
    rfl
  have hstart := startsAt_enter (S := S) (t := t) nested
    ((Shape.addType {} 0 (.struct a)).enterMembers (S.get a).elements) w.type 0 true
  rw [hempty] at hstart
  exact hstart.extends (.settled _)

/-- A field, or the member that stands for a union, starts where the offset map says. -/
theorem exists_startsAt (nested : StructId → Shape) {l : StructLayout}
    (hl : S.layoutOn t a = .ok l) (hz : ∀ e ∈ (S.get a).elements, 0 ≤ S.bytesOn t e) {j : Nat}
    (hj : (S.get a).elements[j]? = some e)
    (hw : (S.get a).isUnion = true →
      (S.widestMember t (S.get a).elements).map Prod.snd = some j) :
    ∃ start : Nat, (S.expand t nested a).offsetMap[j]? = some (start : Int) ∧
      StartsAt nested (S.expand t nested a) e (S.offsetOn t a j) start := by
  cases hu : (S.get a).isUnion with
  | false =>
    obtain ⟨start, hmap, hstart, -⟩ := expand_field (t := t) nested hu hj
    exact ⟨start, hmap, hstart⟩
  | true =>
    obtain ⟨⟨e', j'⟩, hmember, rfl⟩ := Option.map_eq_some_iff.1 (hw hu)
    have he' := List.mem_zipIdx_iff_getElem?.1 (Structs.mem_zipIdx_of_widestMember hmember)
    obtain rfl : e' = e := Option.some.inj (he'.symm.trans hj)
    rw [Structs.offsetOn_union hl hu]
    exact ⟨0, (expand_member nested hu hj).1, expand_widest hu hz hmember⟩

/-! ## The first entry -/

/-- The first entry of a shape is at offset 0. -/
def Shape.StartsAtZero (s : Shape) : Prop :=
  ∃ x, s.fields[0]? = some x ∧ x.offset = 0

theorem StartsAt.zero (h : StartsAt nested s e 0 0)
    (hn : ∀ c, e.embedded? = some c → (nested c).StartsAtZero) : s.StartsAtZero := by
  cases hc : e.embedded? with
  | none => exact h.scalar hc
  | some c =>
    obtain ⟨x, hx, ho⟩ := hn c hc
    obtain ⟨x', hx', ho'⟩ := h.fields hc hx
    exact ⟨x', hx', by rw [ho', ho]; rfl⟩

theorem startsAtZero_of_empty (he : s.fields = #[]) : s.settled.StartsAtZero :=
  ⟨.vacant, by rw [Structs.settled_fields_of_empty he]; rfl, rfl⟩

theorem expand_startsAtZero (ht : t.Aligned) {l : StructLayout} (hl : S.layoutOn t a = .ok l)
    (hz : ∀ e ∈ (S.get a).elements, 0 ≤ S.bytesOn t e)
    (hn : ∀ c, S.Embeds a c → (nested c).StartsAtZero) : (S.expand t nested a).StartsAtZero := by
  cases hes : (S.get a).elements with
  | nil =>
    have he : S.expand t nested a = (Shape.addType {} 0 (.struct a)).settled := by
      simp [Structs.expand, hes, widestFrom, Shape.enterFields, Shape.enterMembers]
    rw [he]
    exact startsAtZero_of_empty rfl
  | cons e es =>
    cases hu : (S.get a).isUnion with
    | false =>
      have hj : (S.get a).elements[0]? = some e := by rw [hes]; rfl
      obtain ⟨start, -, hstart, hzero⟩ := expand_field (t := t) nested hu hj
      rw [hzero rfl, Structs.offsetOn_zero ht hl] at hstart
      exact hstart.zero fun c hc => hn c (Structs.embeds_of_getElem? hj hc)
    | true =>
      obtain ⟨w, -, hfirst⟩ := Structs.exists_widestFrom hz (by simp [hes])
      refine (expand_widest hu hz hfirst.widestMember_eq).zero fun c hc => hn c ?_
      exact Structs.embeds_of_getElem? hfirst.field hc

end

/-! ## Indices -/

/-- An index into a struct: the struct, the field, and whether it is the last index. -/
structure Hop where
  struct : StructId
  field : Nat
  isLast : Bool
  deriving DecidableEq

/-- The indices into structs on the way that indices lead from a type; the others are into
arrays. -/
def hops (S : Structs) : Ty → List (Option Int) → List Hop
  | .struct s, some n :: rest =>
    ⟨s, n.toNat, rest.isEmpty⟩ ::
      match (S.get s).elements[n.toNat]? with
      | some ty => hops S ty rest
      | none => []
  | .array e _, _ :: rest => hops S e rest
  | _, _ => []

/-- Where the indexed fields start, added up. -/
def Registry.entryIndex (r : Registry) (m : String) : List Hop → Except Fault Int
  | [] => .ok 0
  | p :: ps =>
    match r.handle? p.struct m with
    | none => .error .missingDescriptor
    | some h => do return (← (r.descriptor h).expandedIndex p.field) + (← r.entryIndex m ps)

/-- The offsets of the indexed fields, added up. -/
def Structs.byteIndex (S : Structs) (t : Target) (ps : List Hop) : Int :=
  (ps.map fun p => S.offsetOn t p.struct p.field).sum

/-- An index into a union goes to the member that stands for it, unless it is the last one. -/
def Structs.Follows (S : Structs) (t : Target) (p : Hop) : Prop :=
  (S.get p.struct).isUnion = true → p.isLast = false →
    (S.widestMember t (S.get p.struct).elements).map Prod.snd = some p.field

variable {S : Structs} {L : Layouts} {r : Registry} {m : String} {t : Target}

theorem indexedType_nil (ty : Ty) : Program.indexedType S ty [] = ty := by
  cases ty <;> rfl

theorem hops_nil (ty : Ty) : hops S ty [] = [] := by
  cases ty <;> rfl

theorem indexedType_array (e : Ty) (n : Int) (i : Option Int) (is : List (Option Int)) :
    Program.indexedType S (.array e n) (i :: is) = Program.indexedType S e is := by
  simp only [Program.indexedType]

theorem hops_array (e : Ty) (n : Int) (i : Option Int) (is : List (Option Int)) :
    hops S (.array e n) (i :: is) = hops S e is := by
  simp only [hops]

/-- Within a type that holds no struct, indices lead through arrays only. -/
theorem hops_of_scalar {ty : Ty} (hn : ty.embedded? = none) (is : List (Option Int))
    (hty : Program.indexedType S ty is ≠ .unknown) :
    hops S ty is = [] ∧ (Program.indexedType S ty is).stripArrays = ty.stripArrays := by
  induction is generalizing ty with
  | nil => cases ty <;> exact ⟨rfl, rfl⟩
  | cons i is ih =>
    cases ty with
    | array e n =>
      rw [indexedType_array] at hty ⊢
      rw [hops_array]
      exact ih hn hty
    | struct s => cases hn
    | _ => simp [Program.indexedType] at hty

/-- An index into a struct is that of one of its fields. -/
theorem hops_struct {b : StructId} {i : Option Int} {is : List (Option Int)}
    (hty : Program.indexedType S (.struct b) (i :: is) ≠ .unknown) :
    ∃ (j : Nat) (ty : Ty), (S.get b).elements[j]? = some ty ∧
      hops S (.struct b) (i :: is) = ⟨b, j, is.isEmpty⟩ :: hops S ty is ∧
      Program.indexedType S (.struct b) (i :: is) = Program.indexedType S ty is := by
  cases i with
  | none => simp [Program.indexedType] at hty
  | some n =>
    simp only [Program.indexedType] at hty ⊢
    by_cases hn : 0 ≤ n
    · rw [if_pos hn] at hty ⊢
      cases he : (S.get b).elements[n.toNat]? with
      | none => simp [he] at hty
      | some ty => exact ⟨n.toNat, ty, he, by simp [hops, he], rfl⟩
    · rw [if_neg hn] at hty
      exact absurd rfl hty

theorem expandedIndex_eq {d : Descriptor} {j : Nat} {v : Int} (h : d.shape.offsetMap[j]? = some v) :
    d.expandedIndex j = .ok v := by
  simp [Descriptor.expandedIndex, h]

theorem Registry.entryIndex_cons {p : Hop} {ps : List Hop} {h : Nat} {v e : Int}
    (hh : r.handle? p.struct m = some h)
    (hv : (r.descriptor h).shape.offsetMap[p.field]? = some v) (he : r.entryIndex m ps = .ok e) :
    r.entryIndex m (p :: ps) = .ok (v + e) := by
  simp only [entryIndex, hh, expandedIndex_eq hv, he]
  rfl

theorem Registry.entryIndex_singleton {p : Hop} {h : Nat} {v : Int}
    (hh : r.handle? p.struct m = some h)
    (hv : (r.descriptor h).shape.offsetMap[p.field]? = some v) : r.entryIndex m [p] = .ok v := by
  rw [entryIndex_cons hh hv rfl, Int.add_zero]

/-- At an entry of a shape, an object of a type starts at an offset. -/
def Shape.Shows (s : Shape) (e : Nat) (o : Int) (ty : Ty) : Prop :=
  (∃ x, s.fields[e]? = some x ∧ x.offset = o) ∧ ((e : Int), ty.stripArrays) ∈ s.elementTypes

theorem Registry.Consistent.startsAtZero (hr : r.Consistent S L)
    (ht : ∀ {b h}, r.handle? b m = some h → r.targetAt L h = t) (hal : t.Aligned)
    (hz : S.NoNegative t) {b : StructId} {h : Nat} (hb : r.handle? b m = some h) :
    (r.descriptor h).shape.StartsAtZero := by
  refine hr.shape_induction (P := fun _ s => s.StartsAtZero) ht (fun b nested l hl hn => ?_) hb
  exact expand_startsAtZero hal hl (fun e he => hz.bytesOn he) hn

/-- What a field shows, the struct around it shows from where the field starts. -/
theorem StartsAt.shows {nested : StructId → Shape} {s : Shape} {el ty : Ty} {o o' : Int}
    {start e : Nat} (h : StartsAt nested s el o start) {c : StructId} (hc : el.embedded? = some c)
    (hs : (nested c).Shows e o' ty) : s.Shows (start + e) (o + o') ty := by
  obtain ⟨⟨x, hx, rfl⟩, htype⟩ := hs
  refine ⟨h.fields hc hx, ?_⟩
  rw [Int.natCast_add]
  exact h.types hc htype

namespace Registry.Consistent

section

variable (hr : r.Consistent S L) (ht : ∀ {b h}, r.handle? b m = some h → r.targetAt L h = t)
  (hal : t.Aligned) (hz : S.NoNegative t) {b : StructId} {h : Nat} (hb : r.handle? b m = some h)
include hr ht hal hz hb

/-- An object of a struct, or of an array of it, starts at the first entry of its table. -/
theorem shows_self {ty : Ty} (hty : ty.embedded? = some b) :
    (r.descriptor h).shape.Shows 0 0 ty := by
  have hstrip : ty.stripArrays = .struct b := by
    unfold Ty.embedded? at hty
    split at hty
    · next s hs => cases hty; exact hs
    · cases hty
  have hself := self_mem_expand (S := S) (t := r.targetAt L h) (r.shapeIn m) b
  rw [← hr.shape hb] at hself
  exact ⟨hr.startsAtZero ht hal hz hb, by rw [hstrip]; exact hself⟩

/-- All members of a union start at the first entry of its table. -/
theorem shows_member (hu : (S.get b).isUnion = true) {j : Nat} {el : Ty}
    (hj : (S.get b).elements[j]? = some el) :
    (r.descriptor h).shape.offsetMap[j]? = some 0 ∧ (r.descriptor h).shape.Shows 0 0 el := by
  obtain ⟨hmap, hmem⟩ := expand_member (t := r.targetAt L h) (r.shapeIn m) hu hj
  rw [← hr.shape hb] at hmap hmem
  exact ⟨hmap, hr.startsAtZero ht hal hz hb, hmem⟩

/-- From a type that holds a struct, indices lead to an entry of the table of that struct. -/
theorem navigate (ty : Ty) (hty : ty.embedded? = some b) (is : List (Option Int))
    (hne : Program.indexedType S ty is ≠ .unknown) (hf : ∀ p ∈ hops S ty is, S.Follows t p) :
    ∃ e : Nat, r.entryIndex m (hops S ty is) = .ok (e : Int) ∧
      (r.descriptor h).shape.Shows e (S.byteIndex t (hops S ty is))
        (Program.indexedType S ty is) := by
  induction is generalizing ty b h with
  | nil =>
    rw [hops_nil, indexedType_nil]
    exact ⟨0, rfl, hr.shows_self ht hal hz hb hty⟩
  | cons i is ih =>
    cases ty with
    | array e n =>
      rw [indexedType_array] at hne ⊢
      rw [hops_array] at hf ⊢
      exact ih hb e hty hne hf
    | struct b' =>
      obtain rfl : b' = b := by cases hty; rfl
      obtain ⟨j, el, hel, hhops, htype⟩ := hops_struct hne
      rw [htype] at hne ⊢
      rw [hhops] at hf ⊢
      obtain ⟨l, hl⟩ := hr.lays hb
      have hshape := hr.shape hb
      rw [ht hb] at hl hshape
      have hbytes : ∀ ps, S.byteIndex t (⟨b', j, is.isEmpty⟩ :: ps) =
          S.offsetOn t b' j + S.byteIndex t ps := fun ps => List.sum_cons
      by_cases hlast : (S.get b').isUnion = true ∧ is = []
      · -- the last index may go to any member: all of them start at the first entry
        obtain ⟨hu, rfl⟩ := hlast
        obtain ⟨hmap, hshows⟩ := hr.shows_member ht hal hz hb hu hel
        rw [hbytes, hops_nil, indexedType_nil, Structs.offsetOn_union hl hu]
        exact ⟨0, entryIndex_singleton hb hmap, hshows⟩
      · obtain ⟨start, hmap, hstart⟩ := exists_startsAt (r.shapeIn m) hl
          (fun e he => hz.bytesOn he) hel fun hu => hf _ (List.mem_cons_self ..) hu (by
            cases is with
            | nil => exact absurd ⟨hu, rfl⟩ hlast
            | cons _ _ => rfl)
        rw [← hshape] at hmap hstart
        cases hc : el.embedded? with
        | none =>
          obtain ⟨hhops, hstrip⟩ := hops_of_scalar hc is hne
          rw [hbytes, hhops]
          refine ⟨start, entryIndex_singleton hb hmap, ?_, by rw [hstrip]; exact hstart.type⟩
          obtain ⟨x, hx, ho⟩ := hstart.scalar hc
          exact ⟨x, hx, by rw [ho]; exact (Int.add_zero _).symm⟩
        | some c =>
          obtain ⟨h', hh', -⟩ := hr.inner hb (Structs.embeds_of_getElem? hel hc)
          obtain ⟨e, he, hshows⟩ := ih hh' el hc hne fun p hp => hf p (List.mem_cons_of_mem _ hp)
          rw [← shapeIn_of_handle hh'] at hshows
          rw [hbytes]
          refine ⟨start + e, ?_, hstart.shows hc hshows⟩
          rw [Int.natCast_add]
          exact entryIndex_cons hb hmap he
    | _ => cases hty

end

end Registry.Consistent

theorem Shape.mem_typesAt {s : Shape} {i : Int} {ty : Ty} (h : (i, ty) ∈ s.elementTypes) :
    ty ∈ s.typesAt i := by
  refine OrderedSet.mem_insertAll.2 (.inr (List.mem_filterMap.2 ⟨(i, ty), by simpa using h, ?_⟩))
  simp [typeAt?]

/-- Indices that lead from a flattened struct to a type lead to an entry of its table: an object of
that type, arrays stripped, starts there, and it is at the offset that the fields add up to. -/
theorem navigation_agrees (σ : AnalysisId → String → Target) {s : Session}
    (h : Reachable (fun a m t => t = σ a m) s) (a : AnalysisId) {st : StructId} {m : String}
    {i : Nat} (hst : (s.analysis a).registry.handle? st m = some i) (hal : (σ a m).Aligned)
    (hz : s.program.structs.NoNegative (σ a m)) (is : List (Option Int))
    (hty : Program.indexedType s.program.structs (.struct st) is ≠ .unknown)
    (hf : ∀ p ∈ hops s.program.structs (.struct st) is, s.program.structs.Follows (σ a m) p) :
    let S := s.program.structs
    let r := (s.analysis a).registry
    let d := r.descriptor i
    ∃ e, r.entryIndex m (hops S (.struct st) is) = .ok e ∧ 0 ≤ e ∧ e < d.expandedSize ∧
      (Program.indexedType S (.struct st) is).stripArrays ∈ d.shape.typesAt e ∧
      (d.entry e).map FieldEntry.offset =
        .ok (S.byteIndex (σ a m) (hops S (.struct st) is)) := by
  intro S r d
  have hr : r.Consistent S s.layouts := h.sound.registries a
  obtain ⟨e, he, ⟨x, hx, ho⟩, htype⟩ :=
    hr.navigate h.sound.targets hal hz hst (.struct st) rfl is hty hf
  have hlt : e < d.expandedSize := (Array.getElem?_eq_some_iff.1 hx).1
  refine ⟨e, he, by omega, by omega, Shape.mem_typesAt htype, ?_⟩
  have hentry : d.entry e = .ok x := by
    simp only [Descriptor.entry, Int.natCast_nonneg, if_true, Int.toNat_natCast]
    rw [hx]
  rw [hentry, ← ho]
  rfl

/-- Into the array of structs, its first element, the second field of that. -/
theorem navigation_agrees_small :
    ∃ i e, (askedSession.analysis ⟨0⟩).registry.handle? ⟨2⟩ "m" = some i ∧
      .pointerTo (.int 8) ∈ ((askedSession.analysis ⟨0⟩).registry.descriptor i).shape.typesAt e ∧
      (((askedSession.analysis ⟨0⟩).registry.descriptor i).entry e).map FieldEntry.offset =
        .ok 16 := by
  obtain ⟨i, hi⟩ := handle?_askedSession
  have hstructs : askedSession.program.structs = smallProgram.structs := by
    rw [program_askedSession]
  have hagrees := navigation_agrees (fun _ _ => {}) reachable_askedSession ⟨0⟩ hi (by decide)
    (by rw [hstructs]; decide) [some 1, some 0, some 1] (by rw [hstructs]; decide)
    (by rw [hstructs]; unfold Structs.Follows; decide)
  rw [hstructs] at hagrees
  obtain ⟨e, -, -, -, htype, hoffset⟩ := hagrees
  exact ⟨i, e, hi, htype, hoffset.trans (by decide)⟩

end KernelObjects
