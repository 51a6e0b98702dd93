import KernelObjects.Proofs.Assembly
import Mathlib.Algebra.Ring.Int.Defs

/-!
# The leaves of a struct

What a flattened table means, told by paths. A leaf of a struct is reached by visiting its fields in
order, going on into every struct that is met by value; in a union only the first member of the
largest size is visited, and a struct without fields is a leaf itself. A leaf is given by the route
to it, and what its entry says follows from the route.

Results:
* `leaves_eq`: the leaves of a struct are those of its fields, one after the other.
* `exists_widestFrom`: the member that stands for a union is the first one of the largest size.
* `expand_eq_leaves`: a table spliced from tables of leaves is the table of the leaves.
-/
namespace KernelObjects

/-- One step of a route: the field at a position of a struct, and its declared type. -/
structure Step where
  owner : StructId
  index : Nat
  type : Ty
  deriving DecidableEq

namespace Structs

section

variable (S : Structs) (t : Target)

/-- The first member of the largest size, with its position. -/
def widestMember (es : List Ty) : Option (Ty × Nat) :=
  es.zipIdx.find? fun p => es.all fun e => S.bytesOn t e ≤ S.bytesOn t p.1

/-- The fields that are visited. -/
def steps (st : StructId) : List Step :=
  let d := S.get st
  let visited := if d.isUnion then (S.widestMember t d.elements).toList else d.elements.zipIdx
  visited.map fun p => ⟨st, p.2, p.1⟩

/-- The routes that begin with a step, given the leaves of each struct. -/
def routesBy (leaves : StructId → List (List Step)) (p : Step) : List (List Step) :=
  match p.type.embedded? with
  | some b => (leaves b).map (p :: ·)
  | none => [[p]]

/-- The routes to the leaves of a struct. The first argument bounds how deep structs are nested. -/
def leavesTo : Nat → StructId → List (List Step)
  | 0, _ => []
  | n + 1, st =>
    if (S.get st).elements.isEmpty then [[]] else (S.steps t st).flatMap (routesBy (leavesTo n))

/-- The routes to the leaves of a struct, in the order in which they are visited. -/
def leaves (st : StructId) : List (List Step) :=
  S.leavesTo t (S.size + 1) st

/-! ## Entries -/

/-- Whether a route from a field on leads to the first leaf of that field. -/
def leadsToFirst : List Step → Bool
  | [] => false
  | p :: rest => (routesBy (S.leaves t) p).head? = some (p :: rest)

/-- For a route to the first leaf of a struct that is a field, the number of its leaves. -/
def leafCount? : List Step → Option Int
  | [] => none
  | p :: rest =>
    match p.type.embedded? with
    | some b => if S.leadsToFirst t (p :: rest) then some (S.leaves t b).length else none
    | none => none

/-- For a route from a field that is an array on, whether it leads to its first leaf. -/
def startsArray : List Step → Bool
  | [] => false
  | p :: rest => p.type.isArray && S.leadsToFirst t (p :: rest)

/-- Whether a field is a member of a union or is one. -/
def touchesUnion (p : Step) : Bool :=
  (S.get p.owner).isUnion || p.type.embedded?.any fun b => (S.get b).isUnion

/-- The size of a leaf: that of its declared type, and 0 for a struct without fields. -/
def leafSize (p : Step) : Int :=
  if p.type.embedded?.isSome then 0 else S.bytesOn t p.type

/-- What a table says about the leaf at the end of a route. -/
def entryOf (route : List Step) : FieldEntry where
  size := (route.tails.findSome? (S.leafCount? t)).getD (if route.isEmpty then 0 else 1)
  offset := (route.map fun p => S.offsetOn t p.owner p.index).sum
  realSize := (route.getLast?.map (S.leafSize t)).getD 0
  isArray := route.tails.any (S.startsArray t)
  isPointer := route.getLast?.any fun p => p.type.isPointer
  isUnion := route.any S.touchesUnion
  isFuncPtr := route.getLast?.any fun p => p.type.isFunctionPointer

end

/-! ## The leaves of the fields -/

variable {S : Structs} {t : Target} {a b : StructId}

theorem mem_zipIdx_of_widestMember {es : List Ty} {q : Ty × Nat}
    (h : S.widestMember t es = some q) : q ∈ es.zipIdx :=
  List.mem_of_find?_eq_some h

theorem getElem?_of_mem_steps {p : Step} (hp : p ∈ S.steps t a) :
    p.owner = a ∧ (S.get a).elements[p.index]? = some p.type := by
  obtain ⟨⟨e, i⟩, hmem, rfl⟩ := List.mem_map.1 hp
  have hz : (e, i) ∈ (S.get a).elements.zipIdx := by
    split at hmem
    · exact mem_zipIdx_of_widestMember (Option.mem_toList.1 hmem)
    · exact hmem
  exact ⟨rfl, List.mem_zipIdx_iff_getElem?.1 hz⟩

theorem embeds_of_mem_steps {p : Step} (hp : p ∈ S.steps t a) (hb : p.type.embedded? = some b) :
    S.Embeds a b :=
  embeds_of_getElem? (getElem?_of_mem_steps hp).2 hb

theorem routesBy_congr {f g : StructId → List (List Step)} {p : Step}
    (h : ∀ b, p.type.embedded? = some b → f b = g b) : routesBy f p = routesBy g p := by
  unfold routesBy
  cases hb : p.type.embedded? with
  | none => rfl
  | some b => simp only [h b hb]

theorem flatMap_steps_congr {f g : StructId → List (List Step)}
    (h : ∀ b, S.Embeds a b → f b = g b) :
    (S.steps t a).flatMap (routesBy f) = (S.steps t a).flatMap (routesBy g) := by
  apply List.flatMap_congr
  intro p hp
  exact routesBy_congr fun b hb => h b (embeds_of_mem_steps hp hb)

theorem leavesTo_eq_of_rank_lt {n n' : Nat} (hf : S.Founded a) (hn : S.rank a < n)
    (hn' : S.rank a < n') : S.leavesTo t n a = S.leavesTo t n' a := by
  induction hf generalizing n n' with
  | intro a hacc ih =>
    obtain ⟨n, rfl⟩ : ∃ k, n = k + 1 := ⟨n - 1, by omega⟩
    obtain ⟨n', rfl⟩ : ∃ k, n' = k + 1 := ⟨n' - 1, by omega⟩
    rw [leavesTo, leavesTo, flatMap_steps_congr]
    intro b hb
    have hlt := rank_lt hb (Founded.not_holds_self (.intro a hacc))
    exact ih b hb (by omega) (by omega)

theorem leaves_eq (hf : S.Founded a) :
    S.leaves t a =
      if (S.get a).elements.isEmpty then [[]]
      else (S.steps t a).flatMap (routesBy (S.leaves t)) := by
  rw [leaves, leavesTo, flatMap_steps_congr]
  intro b hb
  have hlt := rank_lt hb hf.not_holds_self
  have hle := rank_le_size (S := S) a
  exact leavesTo_eq_of_rank_lt (hf.embeds hb) (by omega) (by have := rank_le_size (S := S) b; omega)

/-! ## No leaf is visited twice -/

theorem nodup_steps (a : StructId) : (S.steps t a).Nodup := by
  have hz : ((S.get a).elements.zipIdx).Nodup := by
    apply List.Nodup.of_map Prod.snd
    rw [List.zipIdx_map_snd]
    exact List.nodup_range'
  unfold steps
  dsimp only
  refine List.Nodup.map ?_ ?_
  · rintro ⟨e, i⟩ ⟨e', i'⟩ h
    cases h
    rfl
  · split
    · cases S.widestMember t (S.get a).elements <;> simp
    · exact hz

theorem head?_of_mem_routesBy {leaves : StructId → List (List Step)} {p : Step} {r : List Step}
    (hr : r ∈ routesBy leaves p) : r.head? = some p := by
  unfold routesBy at hr
  split at hr
  · obtain ⟨r', -, rfl⟩ := List.mem_map.1 hr
    rfl
  · rw [List.mem_singleton.1 hr]
    rfl

theorem nodup_leaves (hf : S.Founded a) : (S.leaves t a).Nodup := by
  induction hf with
  | intro a hacc ih =>
    rw [leaves_eq (.intro a hacc)]
    split
    · exact List.nodup_singleton _
    rw [List.nodup_flatMap]
    constructor
    · intro p hp
      unfold routesBy
      cases hb : p.type.embedded? with
      | none => exact List.nodup_singleton _
      | some b =>
        exact (ih b (embeds_of_mem_steps hp hb)).map fun _ _ h => (List.cons.inj h).2
    · refine (nodup_steps a).imp fun {p q} hpq r hp hq => hpq ?_
      have h := (head?_of_mem_routesBy hp).symm.trans (head?_of_mem_routesBy hq)
      exact Option.some.inj h

/-! ## The member that stands for a union -/

variable (S t) in
/-- A member is the first one of the largest size. -/
structure FirstLargest (es : List Ty) (w : Flatten.Widest) : Prop where
  field : es[w.position]? = some w.type
  size : w.size = S.bytesOn t w.type
  le : ∀ e ∈ es, S.bytesOn t e ≤ w.size
  lt : ∀ k e, k < w.position → es[k]? = some e → S.bytesOn t e < w.size

theorem FirstLargest.widestMember_eq {es : List Ty} {w : Flatten.Widest}
    (h : FirstLargest S t es w) : S.widestMember t es = some (w.type, w.position) := by
  obtain ⟨hlt, hget⟩ := List.getElem?_eq_some_iff.1 h.field
  rw [widestMember, List.find?_eq_some_iff_getElem]
  refine ⟨?_, w.position, by simpa using hlt, by simp [hget], fun j hj => ?_⟩
  · simpa [← h.size] using h.le
  · have hlarger := h.lt j es[j] hj (List.getElem?_eq_getElem (by omega))
    simp only [List.getElem_zipIdx, Bool.not_eq_true', List.all_eq_false, decide_eq_true_eq]
    refine ⟨w.type, List.mem_of_getElem? h.field, ?_⟩
    rw [← h.size]
    omega

/-- One more member: the new one is the first of the largest size if it is larger than the best. -/
theorem FirstLargest.wider {es : List Ty} {best : Flatten.Widest} (h : FirstLargest S t es best)
    (e : Ty) :
    ∃ w, Flatten.wider (some best) ⟨es.length, e, S.bytesOn t e⟩ = some w ∧
      FirstLargest S t (es ++ [e]) w := by
  have hlt := (List.getElem?_eq_some_iff.1 h.field).1
  have hmem : ∀ x ∈ es ++ [e], x ∈ es ∨ x = e := fun x hx => by simpa using hx
  simp only [Flatten.wider, Option.map_some, Option.getD_some]
  split
  · next hsize =>
    refine ⟨_, rfl, by simp, rfl, fun x hx => ?_, fun k x hk hx => ?_⟩
    · rcases hmem x hx with hx | rfl
      · exact Int.le_trans (h.le x hx) (Int.le_of_lt hsize)
      · exact Int.le_refl _
    · rw [List.getElem?_append_left hk] at hx
      exact Int.lt_of_le_of_lt (h.le x (List.mem_of_getElem? hx)) hsize
  · next hsize =>
    refine ⟨best, rfl, ?_, h.size, fun x hx => ?_, fun k x hk hx => ?_⟩
    · rw [List.getElem?_append_left hlt]; exact h.field
    · rcases hmem x hx with hx | rfl
      · exact h.le x hx
      · exact Int.not_lt.1 hsize
    · rw [List.getElem?_append_left (Nat.lt_trans hk hlt)] at hx
      exact h.lt k x hk hx

theorem FirstLargest.widestFrom {es rest : List Ty} {best : Flatten.Widest}
    (h : FirstLargest S t es best) :
    ∃ w, widestFrom S t rest es.length (some best) = some w ∧
      FirstLargest S t (es ++ rest) w := by
  induction rest generalizing es best with
  | nil => exact ⟨best, rfl, by simpa using h⟩
  | cons e rest ih =>
    obtain ⟨best', he, hb⟩ := h.wider e
    have hlen : es.length + 1 = (es ++ [e]).length := by simp
    rw [KernelObjects.widestFrom, he, hlen]
    simpa using ih hb

/-- Among members of no negative size, the first one of the largest size is found. -/
theorem exists_widestFrom {es : List Ty} (hz : ∀ e ∈ es, 0 ≤ S.bytesOn t e) (hne : es ≠ []) :
    ∃ w, widestFrom S t es 0 none = some w ∧ FirstLargest S t es w := by
  obtain ⟨e, rest, rfl⟩ := List.exists_cons_of_ne_nil hne
  have hpos := hz e (List.mem_cons_self ..)
  have hbest : Flatten.wider none ⟨0, e, S.bytesOn t e⟩ = some ⟨0, e, S.bytesOn t e⟩ := by
    simp only [Flatten.wider, Option.map_none, Option.getD_none]
    rw [if_pos (by omega)]
  have hfirst : FirstLargest S t [e] ⟨0, e, S.bytesOn t e⟩ :=
    ⟨rfl, rfl, by simp, fun k x hk => absurd hk (Nat.not_lt_zero k)⟩
  rw [widestFrom, hbest]
  exact hfirst.widestFrom

/-! ## Entries along a route -/

theorem isPointer_of_embedded {e : Ty} (hb : e.embedded? = some b) :
    e.isPointer = false ∧ e.isFunctionPointer = false := by
  cases e <;> first | exact ⟨rfl, rfl⟩ | cases hb

theorem entryOf_nil : S.entryOf t [] = .vacant := by
  simp [entryOf, leafCount?, startsArray, FieldEntry.vacant]

theorem entryOf_scalar {p : Step} (hn : p.type.embedded? = none) :
    S.entryOf t [p] =
      Flatten.scalarEntry p.type (S.offsetOn t p.owner p.index) (S.bytesOn t p.type)
        (S.get p.owner).isUnion := by
  simp [entryOf, leafCount?, startsArray, leadsToFirst, routesBy, touchesUnion, leafSize,
    Flatten.scalarEntry, hn]

/-- The entry of a leaf within a struct that is a field. -/
theorem entryOf_cons {p : Step} {rest : List Step} (hb : p.type.embedded? = some b)
    (hne : S.leadsToFirst t (p :: rest) = false → rest ≠ []) :
    S.entryOf t (p :: rest) =
      { (S.entryOf t rest).rebase (S.offsetOn t p.owner p.index) (S.touchesUnion p) with
        size :=
          if S.leadsToFirst t (p :: rest) then (S.leaves t b).length else (S.entryOf t rest).size
        isArray := (S.entryOf t rest).isArray ||
          (S.leadsToFirst t (p :: rest) && p.type.isArray) } := by
  have hlast : ∀ (f : Step → Bool), f p = false →
      (p :: rest).getLast?.any f = rest.getLast?.any f := fun f hf => by
    cases rest <;> simp [hf, List.getLast?_cons_cons]
  have hreal : ((p :: rest).getLast?.map (S.leafSize t)).getD 0 =
      (rest.getLast?.map (S.leafSize t)).getD 0 := by
    cases rest <;> simp [leafSize, hb, List.getLast?_cons_cons]
  simp only [entryOf, FieldEntry.rebase, hreal, FieldEntry.mk.injEq]
  refine ⟨?_, ?_, trivial, ?_, ?_, ?_, ?_⟩
  · rw [List.tails_cons, List.findSome?_cons]
    cases hfirst : S.leadsToFirst t (p :: rest) with
    | true => simp [leafCount?, hb, hfirst]
    | false => simp [leafCount?, hb, hfirst, hne hfirst]
  · rw [List.map_cons, List.sum_cons, Int.add_comm]
  · rw [List.tails_cons, List.any_cons, Bool.or_comm, startsArray, Bool.and_comm]
  · exact hlast _ (isPointer_of_embedded hb).1
  · rw [List.any_cons, Bool.or_comm]
  · exact hlast _ (isPointer_of_embedded hb).2

/-! ## Tables of leaves -/

variable (S t) in
/-- The table of the leaves of a struct. -/
def leafTable (st : StructId) : List FieldEntry :=
  (S.leaves t st).map (S.entryOf t)

theorem eq_of_nil_mem_leaves (hf : S.Founded a) (h : [] ∈ S.leaves t a) : S.leaves t a = [[]] := by
  rw [leaves_eq hf] at h ⊢
  split at h
  · next he => rw [if_pos he]
  · obtain ⟨p, -, hp⟩ := List.mem_flatMap.1 h
    cases head?_of_mem_routesBy hp

theorem leadsToFirst_cons {p : Step} {rest : List Step} (hb : p.type.embedded? = some b) :
    S.leadsToFirst t (p :: rest) = true ↔ (S.leaves t b).head? = some rest := by
  simp [leadsToFirst, routesBy, hb]

end Structs

theorem toList_splicedFields {fields : Array FieldEntry} {x : FieldEntry} {xs : List FieldEntry}
    (h : fields.toList = x :: xs) (base : Int) (isArray inUnion : Bool) :
    (splicedFields fields base isArray inUnion).toList =
      { x.rebase base inUnion with
        size := fields.size, isArray := x.isArray || isArray } ::
      xs.map fun e => e.rebase base inUnion := by
  simp [splicedFields, Array.toList_modify, h, FieldEntry.rebase]

namespace Structs

variable {S : Structs} {t : Target} {a b : StructId}

/-- Splicing a table of leaves gives the entries of the longer routes. -/
theorem splicedFields_leafTable (hf : S.Founded b) {p : Step} (hb : p.type.embedded? = some b)
    {fields : Array FieldEntry} (hfields : fields.toList = S.leafTable t b) :
    (splicedFields fields (S.offsetOn t p.owner p.index) p.type.isArray (S.touchesUnion p)).toList =
      (routesBy (S.leaves t) p).map (S.entryOf t) := by
  have hsize : fields.size = (S.leaves t b).length := by
    rw [← Array.length_toList, hfields, leafTable, List.length_map]
  have hnodup := nodup_leaves (t := t) hf
  have hroutes : routesBy (S.leaves t) p = (S.leaves t b).map (p :: ·) := by simp [routesBy, hb]
  rw [hroutes]
  cases hl : S.leaves t b with
  | nil =>
    rw [leafTable, hl] at hfields
    obtain rfl : fields = #[] := by simpa using hfields
    simp [splicedFields]
  | cons r rs =>
    rw [leafTable, hl, List.map_cons] at hfields
    rw [hl] at hnodup
    rw [toList_splicedFields hfields, List.map_cons, List.map_cons, List.map_map, List.map_map]
    congr 1
    · have hfirst : S.leadsToFirst t (p :: r) = true := by rw [leadsToFirst_cons hb, hl]; rfl
      rw [entryOf_cons hb (by simp [hfirst]), hfirst]
      simp [FieldEntry.rebase, hsize]
    · apply List.map_congr_left
      intro r' hr'
      have hlater : S.leadsToFirst t (p :: r') = false := by
        rw [← Bool.not_eq_true, leadsToFirst_cons hb, hl]
        intro he
        rw [List.head?_cons, Option.some.injEq] at he
        exact (List.nodup_cons.1 hnodup).1 (he ▸ hr')
      have hne : r' ≠ [] := by
        rintro rfl
        have := eq_of_nil_mem_leaves (t := t) hf (hl ▸ List.mem_cons_of_mem _ hr')
        rw [hl] at this
        cases this
        cases hr'
      simp only [Function.comp_apply]
      rw [entryOf_cons hb fun _ => hne, hlater]
      simp [FieldEntry.rebase]

/-- The entries of one field are those of the routes that begin with it. -/
theorem chunk_leafTable (nested : StructId → Shape) {p : Step}
    (hn : ∀ b, p.type.embedded? = some b →
      S.Founded b ∧ (nested b).fields.toList = S.leafTable t b) :
    (Shape.chunk S t nested p.type (S.offsetOn t p.owner p.index) (S.get p.owner).isUnion).toList =
      (routesBy (S.leaves t) p).map (S.entryOf t) := by
  unfold Shape.chunk
  cases hb : p.type.embedded? with
  | none => simp [routesBy, hb, entryOf_scalar hb]
  | some b =>
    obtain ⟨hf, hfields⟩ := hn b hb
    rw [← splicedFields_leafTable hf hb hfields]
    simp [touchesUnion, hb]

theorem enterFields_fields (nested : StructId → Shape) (st : StructId) (es : List Ty) (i : Nat)
    (s : Shape) :
    (s.enterFields S t nested st es i).fields.toList =
      s.fields.toList ++ (es.zipIdx i).flatMap fun p =>
        (Shape.chunk S t nested p.1 (S.offsetOn t st p.2) false).toList := by
  induction es generalizing i s with
  | nil => simp [Shape.enterFields]
  | cons e es ih =>
    rw [Shape.enterFields, ih, List.zipIdx_cons, List.flatMap_cons]
    simp [Shape.enter, Shape.addOffset]

theorem enterMembers_fields (es : List Ty) (s : Shape) : (s.enterMembers es).fields = s.fields := by
  induction es generalizing s with
  | nil => rfl
  | cons e es ih => rw [Shape.enterMembers, ih]; rfl

theorem settled_fields {s : Shape} (hne : s.fields ≠ #[]) : s.settled.fields = s.fields := by
  simp [Shape.settled, hne]

theorem settled_fields_of_empty {s : Shape} (he : s.fields = #[]) :
    s.settled.fields = #[FieldEntry.vacant] := by
  simp [Shape.settled, he]

/-- The tables from which the table of a struct is spliced are those of its leaves. -/
def Tabled (S : Structs) (t : Target) (nested : StructId → Shape) (b : StructId) : Prop :=
  (nested b).fields.toList = S.leafTable t b ∧ (nested b).fields ≠ #[]

variable {nested : StructId → Shape}

theorem chunk_ne {e : Ty} (hn : ∀ b, e.embedded? = some b → (nested b).fields ≠ #[]) (o : Int)
    (u : Bool) : Shape.chunk S t nested e o u ≠ #[] := by
  unfold Shape.chunk
  cases hb : e.embedded? with
  | none => simp
  | some b =>
    intro he
    have hsize : (nested b).fields.size = 0 := by
      rw [← size_spliced (nested b).fields o e.isArray (u || (S.get b).isUnion)]
      exact congrArg Array.size he
    exact hn b hb (Array.eq_empty_of_size_eq_zero hsize)

theorem enterFields_ne {es : List Ty} (he : es ≠ [])
    (hn : ∀ e ∈ es, ∀ b, e.embedded? = some b → (nested b).fields ≠ #[]) (st : StructId) (i : Nat)
    (s : Shape) : (s.enterFields S t nested st es i).fields ≠ #[] := by
  obtain ⟨e, es, rfl⟩ := List.exists_cons_of_ne_nil he
  intro hnil
  have hlist := enterFields_fields (S := S) (t := t) nested st (e :: es) i s
  rw [hnil, List.zipIdx_cons, List.flatMap_cons] at hlist
  have hchunk : (Shape.chunk S t nested e (S.offsetOn t st i) false).toList = [] := by
    simp_all
  exact chunk_ne (hn e (List.mem_cons_self ..)) _ _ (by simpa using hchunk)

theorem chunk_step (hf : S.Founded a) (hn : ∀ b, S.Embeds a b → Tabled S t nested b) {p : Step}
    (hp : p ∈ S.steps t a) :
    (Shape.chunk S t nested p.type (S.offsetOn t a p.index) (S.get a).isUnion).toList =
      (routesBy (S.leaves t) p).map (S.entryOf t) := by
  have howner := (getElem?_of_mem_steps hp).1
  rw [← chunk_leafTable nested fun b hb => ?_, howner]
  have hab := embeds_of_mem_steps hp hb
  exact ⟨hf.embeds hab, (hn b hab).1⟩

/-- The fields of a struct, before a struct without fields gets its entry. -/
theorem enterFields_leaves (hf : S.Founded a) (hu : (S.get a).isUnion = false)
    (hn : ∀ b, S.Embeds a b → Tabled S t nested b) {s : Shape} (hs : s.fields = #[]) :
    (s.enterFields S t nested a (S.get a).elements 0).fields.toList =
      ((S.steps t a).flatMap (routesBy (S.leaves t))).map (S.entryOf t) := by
  have hsteps : S.steps t a = (S.get a).elements.zipIdx.map fun p => ⟨a, p.2, p.1⟩ := by
    simp [steps, hu]
  rw [enterFields_fields, hs, List.map_flatMap, hsteps, List.flatMap_map]
  simp only [List.nil_append]
  apply List.flatMap_congr
  intro p hp
  have hmem : (⟨a, p.2, p.1⟩ : Step) ∈ S.steps t a := hsteps ▸ List.mem_map_of_mem hp
  have h := chunk_step hf hn hmem
  rwa [hu] at h

theorem expand_eq_leaves {l : StructLayout} (hl : S.layoutOn t a = .ok l)
    (hz : ∀ e ∈ (S.get a).elements, 0 ≤ S.bytesOn t e)
    (hn : ∀ b, S.Embeds a b → Tabled S t nested b) :
    (S.expand t nested a).fields.toList = S.leafTable t a := by
  have hf := (wellFormed_of_layoutOn hl).founded
  have hne : ∀ e ∈ (S.get a).elements, ∀ b, e.embedded? = some b → (nested b).fields ≠ #[] :=
    fun e he b hb => (hn b ⟨e, he, hb⟩).2
  by_cases hempty : (S.get a).elements = []
  · -- a struct or a union without fields has one vacant entry
    have hleaves : S.leafTable t a = [FieldEntry.vacant] := by
      simp [leafTable, leaves_eq hf, hempty, entryOf_nil]
    rw [hleaves, expand, hempty]
    split <;> rfl
  have hleaves : S.leafTable t a =
      ((S.steps t a).flatMap (routesBy (S.leaves t))).map (S.entryOf t) := by
    rw [leafTable, leaves_eq hf, if_neg (by simpa using hempty)]
  rw [hleaves, expand]
  cases hu : (S.get a).isUnion with
  | false =>
    simp only [Bool.false_eq_true, if_false]
    rw [settled_fields (enterFields_ne hempty hne a 0 _), enterFields_leaves hf hu hn rfl]
  | true =>
    simp only [if_true]
    obtain ⟨w, hw, hfirst⟩ := exists_widestFrom hz hempty
    have hsteps : S.steps t a = [⟨a, w.position, w.type⟩] := by
      simp [steps, hu, hfirst.widestMember_eq]
    have hmem := List.mem_of_getElem? hfirst.field
    have hchunk := chunk_step hf hn (p := ⟨a, w.position, w.type⟩) (by rw [hsteps]; simp)
    rw [hu, offsetOn_union hl hu] at hchunk
    rw [hw, hsteps]
    have hfields : (((Shape.addType {} 0 (.struct a)).enterMembers (S.get a).elements).enter S t
        nested w.type 0 true).fields = Shape.chunk S t nested w.type 0 true := by
      simp [Shape.enter, enterMembers_fields, Shape.addType]
    rw [settled_fields, hfields, hchunk]
    · simp
    · rw [hfields]
      exact chunk_ne (hne w.type hmem) 0 true

end Structs

end KernelObjects
