import KernelObjects.Proofs.OffsetMaps

/-!
# Element types

A field of a struct, or of a struct within it, is given by the route that leads to it, and it starts
where the first leaf behind it is. The element types of an index are those of all fields that start
there; the struct itself starts at the first index, and with a union all its members start.

Results:
* `firstLeaf?_cons_embedded`, `firstLeaf?_cons_scalar`: where a field within a field starts.
* `firstLeaf?_cons_cases`, `exists_firstLeaf?_iff`: a route goes nowhere, to a field, or on into the
  struct in a field.
* `mem_elementTypes_expand`: the element types of a struct are those of its fields.
* `elementTypes_exact`: the element types of a descriptor are those of the fields that start there.
-/
namespace KernelObjects

namespace Structs

section

variable (S : Structs) (t : Target)

/-- The index of the first leaf behind the field that a route leads to; none if the route is not
that of a leaf, as far as it goes. -/
def firstLeaf? (a : StructId) (route : List Step) : Option Nat :=
  (S.leaves t a).findIdx? fun leaf => decide (route <+: leaf)

/-- What lies at the end of a route from a struct: the struct itself, or what the last field holds,
under all array dimensions. -/
def endType (a : StructId) (route : List Step) : Ty :=
  (route.getLast?.map fun p => p.type.stripArrays).getD (.struct a)

/-- An object of a type starts at the end of a route: the one that lies there, or any member of it
if it is a union. -/
def BeginsAt (a : StructId) (route : List Step) (ty : Ty) : Prop :=
  ty = endType a route ∨
    ∃ u, endType a route = .struct u ∧ (S.get u).isUnion = true ∧
      ∃ e ∈ (S.get u).elements, ty = e.stripArrays

end

variable {S : Structs} {t : Target} {a b : StructId} {p : Step} {rest : List Step} {j n : Nat}

/-! ## The end of a route -/

@[simp]
theorem endType_nil : endType a [] = .struct a := rfl

@[simp]
theorem endType_append_singleton (route : List Step) :
    endType a (route ++ [p]) = p.type.stripArrays := by
  simp [endType]

theorem stripArrays_of_embedded {e : Ty} (hb : e.embedded? = some b) :
    e.stripArrays = .struct b := by
  unfold Ty.embedded? at hb
  split at hb
  · next s hs => rw [hs, Option.some.inj hb]
  · cases hb

theorem endType_cons (hb : p.type.embedded? = some b) (rest : List Step) :
    endType a (p :: rest) = endType b rest := by
  cases rest with
  | nil => simp [endType, stripArrays_of_embedded hb]
  | cons q rest =>
    have hlast := List.getLast?_eq_some_getLast (List.cons_ne_nil q rest)
    simp [endType, List.getLast?_cons_cons, hlast]

theorem beginsAt_cons (hb : p.type.embedded? = some b) {ty : Ty} :
    S.BeginsAt a (p :: rest) ty ↔ S.BeginsAt b rest ty := by
  rw [BeginsAt, BeginsAt, endType_cons hb]

/-- A field that holds no struct is no union. -/
theorem beginsAt_scalar (hn : p.type.embedded? = none) {ty : Ty} :
    S.BeginsAt a [p] ty ↔ ty = p.type.stripArrays := by
  have hstrip : ∀ u, p.type.stripArrays ≠ .struct u := by
    intro u hu
    simp [Ty.embedded?, hu] at hn
  simp [BeginsAt, endType, hstrip]

/-! ## Where a route ends -/

theorem firstLeaf?_nil (hf : S.Founded a) (hz : S.NoNegativeBelow t a) :
    S.firstLeaf? t a [] = some 0 := by
  obtain ⟨r, rs, hr⟩ := List.exists_cons_of_ne_nil (leaves_ne_nil hf hz)
  simp [firstLeaf?, hr, List.findIdx?_cons]

/-- The leaf that is found lies behind the field. -/
theorem getElem?_of_firstLeaf? {route : List Step} (hn : S.firstLeaf? t a route = some n) :
    ∃ leaf, (S.leaves t a)[n]? = some leaf ∧ route <+: leaf := by
  obtain ⟨hlt, hleaf, -⟩ := List.findIdx?_eq_some_iff_getElem.1 hn
  exact ⟨_, List.getElem?_eq_getElem hlt, by simpa using hleaf⟩

theorem lt_of_firstLeaf? {route : List Step} (hn : S.firstLeaf? t a route = some n) :
    n < (S.leaves t a).length := by
  obtain ⟨leaf, hleaf, -⟩ := getElem?_of_firstLeaf? hn
  exact (List.getElem?_eq_some_iff.1 hleaf).1

/-- Behind the fields that differ from the first one of a route, no leaf is found. -/
theorem findIdx?_flatMap_eq_none {ps : List Step} (hp : p ∉ ps) (rest : List Step) :
    (ps.flatMap (routesBy (S.leaves t))).findIdx? (fun leaf => decide (p :: rest <+: leaf)) =
      none := by
  rw [List.findIdx?_eq_none_iff]
  intro leaf hleaf
  obtain ⟨q, hq, hleaf⟩ := List.mem_flatMap.1 hleaf
  have hhead := head?_of_mem_routesBy hleaf
  rw [decide_eq_false_iff_not]
  rintro ⟨more, rfl⟩
  obtain rfl : p = q := by simpa using hhead
  exact hp hq

/-- A route to a leaf leads on from a field that is visited. -/
theorem mem_routesBy_of_route (hf : S.Founded a) {leaf : List Step} (hleaf : leaf ∈ S.leaves t a)
    (hroute : p :: rest <+: leaf) : p ∈ S.steps t a ∧ leaf ∈ routesBy (S.leaves t) p := by
  obtain ⟨more, rfl⟩ := hroute
  rw [leaves_eq hf] at hleaf
  split at hleaf
  · simp at hleaf
  · obtain ⟨q, hq, hleaf⟩ := List.mem_flatMap.1 hleaf
    have hhead := head?_of_mem_routesBy hleaf
    obtain rfl : p = q := by simpa using hhead
    exact ⟨hq, hleaf⟩

/-- A route that goes on behind its first field goes on into the struct in it. -/
theorem exists_inner_leaf (hf : S.Founded a) {leaf : List Step} (hleaf : leaf ∈ S.leaves t a)
    (hroute : p :: rest <+: leaf) (hne : rest ≠ []) :
    p ∈ S.steps t a ∧ ∃ b inner, p.type.embedded? = some b ∧ inner ∈ S.leaves t b ∧
      leaf = p :: inner ∧ rest <+: inner := by
  obtain ⟨hp, hleaf⟩ := mem_routesBy_of_route hf hleaf hroute
  cases hb : p.type.embedded? with
  | none =>
    rw [routesBy_scalar hb, List.mem_singleton] at hleaf
    subst hleaf
    simp [hne] at hroute
  | some b =>
    rw [routesBy_embedded hb] at hleaf
    obtain ⟨inner, hinner, rfl⟩ := List.mem_map.1 hleaf
    exact ⟨hp, b, inner, rfl, hinner, rfl, (List.cons_prefix_cons.1 hroute).2⟩

theorem mem_steps_of_firstLeaf? (hf : S.Founded a) (hn : S.firstLeaf? t a (p :: rest) = some n) :
    p ∈ S.steps t a := by
  obtain ⟨leaf, hleaf, hroute⟩ := getElem?_of_firstLeaf? hn
  exact (mem_routesBy_of_route hf (List.mem_of_getElem? hleaf) hroute).1

/-- The first leaf behind a route is found in the segment of its first field. -/
theorem firstLeaf?_cons (hf : S.Founded a) (hp : (S.steps t a)[j]? = some p) (rest : List Step) :
    S.firstLeaf? t a (p :: rest) =
      ((routesBy (S.leaves t) p).findIdx? fun leaf => decide (p :: rest <+: leaf)).map
        (S.leavesBefore t a j + ·) := by
  obtain ⟨hlt, hget⟩ := List.getElem?_eq_some_iff.1 hp
  -- no step is taken twice, so the first field is neither before nor behind its position
  have hnodup := nodup_steps (S := S) (t := t) a
  rw [← List.take_append_drop j (S.steps t a), List.drop_eq_getElem_cons hlt, hget,
    List.nodup_middle, List.nodup_cons, List.mem_append] at hnodup
  obtain ⟨hbefore, hbehind⟩ := not_or.1 hnodup.1
  rw [firstLeaf?, leaves_split hf hp, List.findIdx?_append, findIdx?_flatMap_eq_none hbefore,
    Option.none_or, List.findIdx?_append, findIdx?_flatMap_eq_none hbehind, Option.map_none,
    Option.or_none]
  congr 1
  funext k
  rw [leavesBefore, Nat.add_comm]

theorem firstLeaf?_cons_embedded (hf : S.Founded a) (hp : (S.steps t a)[j]? = some p)
    (hb : p.type.embedded? = some b) (rest : List Step) :
    S.firstLeaf? t a (p :: rest) = (S.firstLeaf? t b rest).map (S.leavesBefore t a j + ·) := by
  rw [firstLeaf?_cons hf hp, routesBy_embedded hb, List.findIdx?_map, firstLeaf?]
  simp [Function.comp_def]

theorem firstLeaf?_cons_scalar (hf : S.Founded a) (hp : (S.steps t a)[j]? = some p)
    (hn : p.type.embedded? = none) (rest : List Step) :
    S.firstLeaf? t a (p :: rest) = if rest = [] then some (S.leavesBefore t a j) else none := by
  rw [firstLeaf?_cons hf hp, routesBy_scalar hn]
  by_cases hrest : rest = [] <;> simp [hrest]

/-- A route that begins with a field ends there, or goes on into the struct in it. -/
theorem firstLeaf?_cons_cases (hf : S.Founded a) (hn : S.firstLeaf? t a (p :: rest) = some n) :
    ∃ j, (S.steps t a)[j]? = some p ∧
      ((p.type.embedded? = none ∧ rest = [] ∧ n = S.leavesBefore t a j) ∨
        ∃ b k, p.type.embedded? = some b ∧ S.firstLeaf? t b rest = some k ∧
          n = S.leavesBefore t a j + k) := by
  obtain ⟨j, hj⟩ := List.mem_iff_getElem?.1 (mem_steps_of_firstLeaf? hf hn)
  refine ⟨j, hj, ?_⟩
  cases hb : p.type.embedded? with
  | none =>
    rw [firstLeaf?_cons_scalar hf hj hb] at hn
    obtain ⟨rfl, rfl⟩ : rest = [] ∧ S.leavesBefore t a j = n := by simpa using hn
    exact .inl ⟨rfl, rfl, rfl⟩
  | some b =>
    rw [firstLeaf?_cons_embedded hf hj hb] at hn
    obtain ⟨k, hk, rfl⟩ := Option.map_eq_some_iff.1 hn
    exact .inr ⟨b, k, rfl, hk, rfl⟩

/-- A route goes nowhere, to a field that holds no struct, or into the struct in a field. -/
theorem exists_firstLeaf?_iff (hf : S.Founded a) (hz : S.NoNegativeBelow t a)
    {Q : List Step → Nat → Prop} :
    (∃ route n, S.firstLeaf? t a route = some n ∧ Q route n) ↔
      Q [] 0 ∨ ∃ (j : Nat) (p : Step), (S.steps t a)[j]? = some p ∧
        match p.type.embedded? with
        | none => Q [p] (S.leavesBefore t a j)
        | some b => ∃ rest k, S.firstLeaf? t b rest = some k ∧
            Q (p :: rest) (S.leavesBefore t a j + k) := by
  constructor
  · rintro ⟨route, n, hn, hQ⟩
    cases route with
    | nil =>
      rw [firstLeaf?_nil hf hz] at hn
      exact .inl (Option.some.inj hn ▸ hQ)
    | cons p rest =>
      obtain ⟨j, hj, ⟨hb, rfl, rfl⟩ | ⟨b, k, hb, hk, rfl⟩⟩ := firstLeaf?_cons_cases hf hn
      · exact .inr ⟨j, p, hj, by simpa [hb] using hQ⟩
      · refine .inr ⟨j, p, hj, ?_⟩
        rw [hb]
        exact ⟨rest, k, hk, hQ⟩
  · rintro (hQ | ⟨j, p, hj, hfield⟩)
    · exact ⟨[], 0, firstLeaf?_nil hf hz, hQ⟩
    · cases hb : p.type.embedded? with
      | none =>
        rw [hb] at hfield
        exact ⟨[p], _, by simp [firstLeaf?_cons_scalar hf hj hb], hfield⟩
      | some b =>
        rw [hb] at hfield
        obtain ⟨rest, k, hk, hQ⟩ := hfield
        exact ⟨p :: rest, _, by simp [firstLeaf?_cons_embedded hf hj hb, hk], hQ⟩

/-- At every leaf some route ends. -/
theorem exists_firstLeaf?_of_lt (hf : S.Founded a) (hz : S.NoNegativeBelow t a)
    (hn : n < (S.leaves t a).length) : ∃ route, S.firstLeaf? t a route = some n := by
  induction hf generalizing n with
  | intro a hacc ih =>
    have hf : S.Founded a := .intro a hacc
    by_cases hne : (S.get a).elements = []
    · have hleaves : S.leaves t a = [[]] := by simp [leaves_eq hf, hne]
      obtain rfl : n = 0 := by simpa [hleaves] using hn
      exact ⟨[], firstLeaf?_nil hf hz⟩
    obtain ⟨j, ⟨hstart, hend⟩, -⟩ := exists_unique_segment hf hne hn
    cases hj : (S.steps t a)[j]? with
    | none =>
      -- there is no field, so the segment is empty
      simp [leavesBefore, List.take_add_one, hj] at hstart hend
      omega
    | some p =>
      rw [leavesBefore_succ hj] at hend
      cases hb : p.type.embedded? with
      | none =>
        rw [routesBy_scalar hb, List.length_singleton] at hend
        refine ⟨[p], ?_⟩
        rw [firstLeaf?_cons_scalar hf hj hb, if_pos rfl, Option.some.injEq]
        omega
      | some b =>
        have hembeds := embeds_of_mem_steps (List.mem_of_getElem? hj) hb
        rw [routesBy_embedded hb, List.length_map] at hend
        obtain ⟨rest, hrest⟩ := ih b hembeds (hz.embeds hembeds)
          (n := n - S.leavesBefore t a j) (by omega)
        refine ⟨p :: rest, ?_⟩
        rw [firstLeaf?_cons_embedded hf hj hb, hrest, Option.map_some, Option.some.injEq]
        omega

end Structs

/-! ## The element types of an expansion -/

/-- The element types of a field that starts at an index: its own, and those of the struct in it. -/
def Shape.MetIn (nested : StructId → Shape) (e : Ty) (start q : Int) (ty : Ty) : Prop :=
  (q = start ∧ ty = e.stripArrays) ∨
    ∃ b, e.embedded? = some b ∧ (q - start, ty) ∈ (nested b).elementTypes

section

variable {S : Structs} {t : Target} {nested : StructId → Shape} {a : StructId} {q : Int} {ty : Ty}

theorem Shape.mem_elementTypes_enter {e : Ty} {o : Int} {u : Bool} {s : Shape} :
    (q, ty) ∈ (s.enter S t nested e o u).elementTypes ↔
      (q, ty) ∈ s.elementTypes ∨ MetIn nested e s.fields.size q ty := by
  have hinner : (q, ty) ∈ innerTypes nested e s.fields.size ↔
      ∃ b, e.embedded? = some b ∧ (q - s.fields.size, ty) ∈ (nested b).elementTypes := by
    unfold innerTypes
    cases e.embedded? with
    | none => simp
    | some b =>
      have hshift : ∀ x : Int, x + s.fields.size = q ↔ x = q - s.fields.size := by omega
      simp [hshift]
  rw [enter, Array.mem_append, Array.mem_push, hinner, MetIn, or_assoc, Prod.mk.injEq]

theorem Shape.mem_elementTypes_enterFields (st : StructId) (es : List Ty) (i : Nat) (s : Shape) :
    (q, ty) ∈ (s.enterFields S t nested st es i).elementTypes ↔
      (q, ty) ∈ s.elementTypes ∨ ∃ j e, es[j]? = some e ∧
        MetIn nested e ((s.fields.size + entriesBefore S t nested st es i j : Nat)) q ty := by
  induction es generalizing i s with
  | nil => simp [enterFields]
  | cons e es ih =>
    rw [enterFields, ih, mem_elementTypes_enter, or_assoc]
    refine or_congr Iff.rfl ?_
    constructor
    · rintro (h | ⟨j, e', hj, h⟩)
      · exact ⟨0, e, rfl, by simpa [entriesBefore, addOffset] using h⟩
      · exact ⟨j + 1, e', hj, by simpa [entriesBefore, enter, addOffset, Nat.add_assoc] using h⟩
    · rintro ⟨j, e', hj, h⟩
      cases j with
      | zero =>
        obtain rfl : e = e' := by simpa using hj
        exact .inl (by simpa [entriesBefore, addOffset] using h)
      | succ j =>
        exact .inr ⟨j, e', hj, by simpa [entriesBefore, enter, addOffset, Nat.add_assoc] using h⟩

theorem Shape.mem_elementTypes_enterMembers (es : List Ty) (s : Shape) :
    (q, ty) ∈ (s.enterMembers es).elementTypes ↔
      (q, ty) ∈ s.elementTypes ∨ q = 0 ∧ ∃ e ∈ es, ty = e.stripArrays := by
  induction es generalizing s with
  | nil => simp [enterMembers]
  | cons e es ih =>
    rw [enterMembers, ih]
    simp only [addOffset, addType, Array.mem_push, Prod.mk.injEq, List.mem_cons, exists_eq_or_imp,
      and_or_left, or_assoc]

/-- The element types of a struct are its own, and those of its fields from where they start. -/
theorem Structs.mem_elementTypes_expand (hf : S.Founded a)
    (hz : ∀ e ∈ (S.get a).elements, 0 ≤ S.bytesOn t e)
    (hn : ∀ b, S.Embeds a b → Tabled S t nested b) :
    (q, ty) ∈ (S.expand t nested a).elementTypes ↔
      (q = 0 ∧ S.BeginsAt a [] ty) ∨ ∃ (j : Nat) (p : Step), (S.steps t a)[j]? = some p ∧
        Shape.MetIn nested p.type (S.leavesBefore t a j) q ty := by
  cases hu : (S.get a).isUnion with
  | false =>
    have hself : S.BeginsAt a [] ty ↔ ty = .struct a := by simp [BeginsAt, hu]
    have hsteps : ∀ {j : Nat} {p : Step}, (S.steps t a)[j]? = some p ↔
        ∃ e, (S.get a).elements[j]? = some e ∧ (⟨a, j, e⟩ : Step) = p := by
      simp [steps_of_struct hu, List.getElem?_zipIdx]
    rw [expand_struct hu, hself]
    simp only [Shape.settled, Shape.mem_elementTypes_enterFields,
      entriesBefore_eq_leavesBefore hf hu hn, hsteps]
    simp [Shape.addType]
  | true =>
    have hself : S.BeginsAt a [] ty ↔
        ty = .struct a ∨ ∃ e ∈ (S.get a).elements, ty = e.stripArrays := by
      simp [BeginsAt, hu]
    have hmembers : ∀ s, (q, ty) ∈ ((Shape.addType {} 0 (.struct a)).enterMembers s).elementTypes ↔
        q = 0 ∧ (ty = .struct a ∨ ∃ e ∈ s, ty = e.stripArrays) := by
      intro s
      rw [Shape.mem_elementTypes_enterMembers, and_or_left]
      simp [Shape.addType]
    rw [hself]
    by_cases hne : (S.get a).elements = []
    · have hnone : ∀ {j : Nat} {p : Step}, (S.steps t a)[j]? ≠ some p := fun hp =>
        elements_ne_nil_of_mem_steps (List.mem_of_getElem? hp) hne
      simp [expand, hu, hne, widestFrom, Shape.settled, hmembers, hnone]
    · obtain ⟨w, hw, hsteps⟩ := steps_of_union hu hz hne
      have hsize : ((Shape.addType {} 0 (.struct a)).enterMembers
          (S.get a).elements).fields.size = 0 := by
        rw [enterMembers_fields]
        rfl
      have hfirst : ∀ {j : Nat} {p : Step}, (S.steps t a)[j]? = some p ↔
          j = 0 ∧ (⟨a, w.position, w.type⟩ : Step) = p := by
        intro j p
        cases j <;> simp [hsteps]
      simp only [expand, hu, hw, if_true, Shape.settled, Shape.mem_elementTypes_enter, hsize,
        hmembers, hfirst]
      simp

end

/-! ## Descriptors -/

section

variable {S : Structs} {L : Layouts} {r : Registry} {m : String} {t : Target} {b : StructId}
  {h : Nat} {q : Int} {ty : Ty}

theorem Registry.Consistent.mem_elementTypes_iff (hr : r.Consistent S L)
    (hflat : r.FlattenedOn S L m t b) (hb : r.handle? b m = some h)
    (hz : S.NoNegativeBelow t b) :
    (q, ty) ∈ (r.descriptor h).shape.elementTypes ↔
      ∃ route n, S.firstLeaf? t b route = some n ∧ q = n ∧ S.BeginsAt b route ty := by
  have hf := (hr.wellFormed hb).founded
  induction hf generalizing h q with
  | intro b hacc ih =>
    have hf : S.Founded b := .intro b hacc
    rw [hr.shape_eq_expand hflat hb, Structs.mem_elementTypes_expand hf (hz b .refl)
      fun c hc => hr.tabled hflat hb hz hc, Structs.exists_firstLeaf?_iff hf hz]
    refine or_congr (by simp) (exists_congr fun j => exists_congr fun p => and_congr_right ?_)
    intro hp
    unfold Shape.MetIn
    cases hc : p.type.embedded? with
    | none => simp [Structs.beginsAt_scalar hc]
    | some c =>
      have hembeds := Structs.embeds_of_mem_steps (List.mem_of_getElem? hp) hc
      obtain ⟨h', hh', -⟩ := hr.inner hb hembeds
      have hinner := ih c hembeds (hflat.embeds hembeds) hh' (hz.embeds hembeds)
        (q := q - S.leavesBefore t b j)
      simp only [Option.some.injEq, exists_eq_left', shapeIn_of_handle hh', hinner,
        Structs.beginsAt_cons hc]
      constructor
      · rintro (⟨rfl, rfl⟩ | ⟨rest, k, hk, hq, hty⟩)
        · -- the field has the type of the struct in it, which starts at its first leaf
          have hzero := Structs.firstLeaf?_nil (hf.embeds hembeds) (hz.embeds hembeds)
          exact ⟨[], 0, hzero, by simp, .inl (Structs.stripArrays_of_embedded hc)⟩
        · exact ⟨rest, k, hk, by omega, hty⟩
      · rintro ⟨rest, k, hk, hq, hty⟩
        exact .inr ⟨rest, k, hk, by omega, hty⟩

theorem Shape.mem_typesAt_iff {s : Shape} {i : Int} {ty : Ty} :
    ty ∈ s.typesAt i ↔ (i, ty) ∈ s.elementTypes := by
  refine ⟨fun h => ?_, mem_typesAt⟩
  obtain ⟨⟨j, ty'⟩, hmem, htype⟩ := List.mem_filterMap.1 (OrderedSet.mem_ofList.1 h)
  obtain ⟨rfl, rfl⟩ : j = i ∧ ty' = ty := by simpa [typeAt?] using htype
  exact Array.mem_toList_iff.1 hmem

/-- The element types of a descriptor are the types of all that starts at the end of a route. -/
theorem Registry.Consistent.mem_typesAt_iff (hr : r.Consistent S L)
    (hflat : r.FlattenedOn S L m t b) (hb : r.handle? b m = some h)
    (hz : S.NoNegativeBelow t b) :
    ty ∈ (r.descriptor h).shape.typesAt q ↔
      ∃ route n, S.firstLeaf? t b route = some n ∧ q = n ∧ S.BeginsAt b route ty :=
  Shape.mem_typesAt_iff.trans (hr.mem_elementTypes_iff hflat hb hz)

end

/-! ## Sessions -/

/-- After any run, of a struct that is flattened on a target and has no negative size in it: at an
index start the struct itself, if it is the first index, all fields whose first leaf is there, and
all members of the unions whose first leaf is there. So something starts at the indices of the table
and nowhere else. -/
theorem elementTypes_exact {policy : AnalysisId → String → Target → Prop} {ops : List Operation}
    {s : Session} (h : Runs policy ops s) {a : AnalysisId} {m : String} {t : Target} {st : StructId}
    (hflat : (s.analysis a).registry.FlattenedOn s.program.structs s.layouts m t st) {i : Nat}
    (hst : (s.analysis a).registry.handle? st m = some i)
    (hz : s.program.structs.NoNegativeBelow t st) :
    let S := s.program.structs
    let d := (s.analysis a).registry.descriptor i
    (∀ (e : Int) (ty : Ty), ty ∈ d.shape.typesAt e ↔
      (e = 0 ∧ ty = .struct st) ∨
      (∃ (route : List Step) (p : Step) (n : Nat), S.firstLeaf? t st (route ++ [p]) = some n ∧
        e = n ∧ ty = p.type.stripArrays) ∨
      ∃ (route : List Step) (u : StructId) (n : Nat), S.firstLeaf? t st route = some n ∧ e = n ∧
        Structs.endType st route = .struct u ∧ (S.get u).isUnion = true ∧
        ∃ x ∈ (S.get u).elements, ty = x.stripArrays) ∧
    ∀ e : Int, (∃ ty, ty ∈ d.shape.typesAt e) ↔ 0 ≤ e ∧ e < d.expandedSize := by
  intro S d
  have hr : (s.analysis a).registry.Consistent S s.layouts := h.sound.registries a
  have hf := (hr.wellFormed hst).founded
  refine ⟨fun e ty => ?_, fun e => ?_⟩
  · rw [hr.mem_typesAt_iff hflat hst hz]
    constructor
    · rintro ⟨route, n, hn, he, hty | ⟨u, hu, hunion⟩⟩
      · rcases List.eq_nil_or_concat' route with rfl | ⟨route, p, rfl⟩
        · rw [Structs.firstLeaf?_nil hf hz] at hn
          obtain rfl := Option.some.inj hn
          exact .inl ⟨he, hty⟩
        · rw [Structs.endType_append_singleton] at hty
          exact .inr (.inl ⟨route, p, n, hn, he, hty⟩)
      · exact .inr (.inr ⟨route, u, n, hn, he, hu, hunion⟩)
    · rintro (⟨rfl, rfl⟩ | ⟨route, p, n, hn, he, rfl⟩ | ⟨route, u, n, hn, he, hu, hunion⟩)
      · exact ⟨[], 0, Structs.firstLeaf?_nil hf hz, rfl, .inl rfl⟩
      · exact ⟨route ++ [p], n, hn, he, .inl (by simp)⟩
      · exact ⟨route, n, hn, he, .inr ⟨u, hu, hunion⟩⟩
  · have hsize : d.expandedSize = (S.leaves t st).length :=
      (hr.segmented hflat hst hz).expandedSize_eq
    constructor
    · rintro ⟨ty, hty⟩
      obtain ⟨route, n, hn, rfl, -⟩ := (hr.mem_typesAt_iff hflat hst hz).1 hty
      have hlt := Structs.lt_of_firstLeaf? hn
      exact ⟨by omega, by omega⟩
    · rintro ⟨hle, hlt⟩
      obtain ⟨route, hn⟩ := Structs.exists_firstLeaf?_of_lt (n := e.toNat) hf hz (by omega)
      exact ⟨_, (hr.mem_typesAt_iff hflat hst hz).2 ⟨route, _, hn, by omega, .inl rfl⟩⟩

/-- With the union in the node start its byte and its pair, of which the pair stands for the union;
before the node starts nothing. -/
theorem elementTypes_exact_node :
    ∃ i d, (askedSession.analysis ⟨0⟩).registry.handle? ⟨2⟩ "m" = some i ∧
      (askedSession.analysis ⟨0⟩).registry.descriptor i = d ∧
      .int 8 ∈ d.shape.typesAt 3 ∧ .struct ⟨0⟩ ∈ d.shape.typesAt 3 ∧
      ∀ ty, ty ∉ d.shape.typesAt (-1) := by
  obtain ⟨i, hi⟩ := handle?_askedSession
  have hrun := runs_askedSession
  have hflat := (hrun.sound.registries ⟨0⟩).flattenedOn hrun.sound.targets hi
  have hexact := elementTypes_exact hrun hflat hi (noNegativeBelow_askedSession ⟨2⟩)
  rw [program_askedSession] at hexact
  obtain ⟨htypes, hall⟩ := hexact
  have hunion : smallProgram.structs.firstLeaf? {} ⟨2⟩ [⟨⟨2⟩, 2, .struct ⟨1⟩⟩] = some 3 := by
    decide +kernel
  have hpair : smallProgram.structs.firstLeaf? {} ⟨2⟩
      ([⟨⟨2⟩, 2, .struct ⟨1⟩⟩] ++ [⟨⟨1⟩, 1, .struct ⟨0⟩⟩]) = some 3 := by
    decide +kernel
  refine ⟨i, _, hi, rfl, (htypes 3 _).2 (.inr (.inr ⟨_, ⟨1⟩, 3, hunion, rfl, rfl, rfl, ?_⟩)),
    (htypes 3 _).2 (.inr (.inl ⟨_, _, 3, hpair, rfl, rfl⟩)), fun ty hty => ?_⟩
  · exact ⟨.int 8, by decide, rfl⟩
  · have hle := ((hall (-1)).1 ⟨ty, hty⟩).1
    omega

end KernelObjects
