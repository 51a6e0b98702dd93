import KernelObjects.Proofs.ElementTypes

/-!
# Element types and containers

Two tables tell where a struct lies in another one. The element types of the outer struct list it by
the index of an entry; the containers of the inner struct list the outer one by an offset in bytes.
The first follow a union only by the member that stands for it, and show its other members but
nothing in them; the second follow every member. Up to that difference the tables agree.

Results:
* `offsetAlong_firstLeaf`: the first leaf behind a route lies where the route leads to.
* `flatPath_of_beginsAt`, `FlatPath.exists_route`: what starts at the end of a route, told by a way
  down.
* `mem_containers_iff`: the containers of a descriptor that are flattened on a target.
* `elementTypes_containers`: the tables agree, for the descriptors of a session after any run.
-/
namespace KernelObjects

namespace Structs

/-- A way of at least one field from `a` down to `b`, and the sum of the offsets of its fields. It
leaves a union by the member that stands for it, except by the last field. -/
inductive FlatPath (S : Structs) (t : Target) : StructId → StructId → Int → Prop where
  | last {a b : StructId} {i : Nat} {e : Ty} (field : (S.get a).elements[i]? = some e)
      (inner : e.embedded? = some b) : FlatPath S t a b (S.offsetOn t a i)
  | step {a b c : StructId} {i : Nat} {e : Ty} {k : Int} (field : (S.get a).elements[i]? = some e)
      (inner : e.embedded? = some b)
      (stands : (S.get a).isUnion = true → S.widestMember t (S.get a).elements = some (e, i))
      (rest : FlatPath S t b c k) : FlatPath S t a c (S.offsetOn t a i + k)

variable {S : Structs} {t : Target} {a b : StructId} {k : Int}

theorem FlatPath.path (h : S.FlatPath t a b k) : S.Path (S.offsetOn t) a b k := by
  induction h with
  | last field inner => exact .last field inner
  | step field inner _ _ ih => exact .step field inner ih

/-- The fields that are visited: all of a struct, and the member that stands for a union. -/
theorem mem_steps_iff {p : Step} :
    p ∈ S.steps t a ↔ p.owner = a ∧ (S.get a).elements[p.index]? = some p.type ∧
      ((S.get a).isUnion = true →
        S.widestMember t (S.get a).elements = some (p.type, p.index)) := by
  constructor
  · intro hp
    obtain ⟨howner, hfield⟩ := getElem?_of_mem_steps hp
    refine ⟨howner, hfield, fun hu => ?_⟩
    obtain ⟨q, hq, rfl⟩ := List.mem_map.1 hp
    simpa [hu] using hq
  · rintro ⟨rfl, hfield, hstands⟩
    refine List.mem_map.2 ⟨(p.type, p.index), ?_, rfl⟩
    split
    · next hu => simpa using hstands hu
    · exact List.mem_zipIdx_iff_getElem?.2 hfield

/-! ## Routes and ways down -/

/-- The first leaf behind a route lies where the route leads to. -/
theorem offsetAlong_firstLeaf (ht : t.Aligned) (hw : S.WellFormed a) (hz : S.NoNegativeBelow t a)
    {route : List Step} {n : Nat} (hn : S.firstLeaf? t a route = some n) :
    ∃ leaf, (S.leaves t a)[n]? = some leaf ∧ S.offsetAlong t leaf = S.offsetAlong t route := by
  induction route generalizing a n with
  | nil =>
    obtain ⟨leaf, leaves, hleaves⟩ := List.exists_cons_of_ne_nil (leaves_ne_nil hw.founded hz)
    obtain rfl : 0 = n := by simpa [firstLeaf?_nil hw.founded hz] using hn
    exact ⟨leaf, by simp [hleaves], offsetAlong_head ht hw hz (by simp [hleaves])⟩
  | cons p rest ih =>
    obtain ⟨j, hj, ⟨hb, rfl, rfl⟩ | ⟨b, k, hb, hk, rfl⟩⟩ := firstLeaf?_cons_cases hw.founded hn
    · have hleaf := getElem?_leaves (k := 0) hw.founded hj (by simp [routesBy_scalar hb])
      exact ⟨[p], by simpa [routesBy_scalar hb] using hleaf, rfl⟩
    · have hembeds := embeds_of_mem_steps (List.mem_of_getElem? hj) hb
      obtain ⟨leaf, hleaf, hoffset⟩ := ih (hw.embeds hembeds) (hz.embeds hembeds) hk
      have hlt : k < (routesBy (S.leaves t) p).length := by
        simpa [routesBy_embedded hb] using lt_of_firstLeaf? hk
      refine ⟨p :: leaf, ?_, by simp [hoffset]⟩
      rw [getElem?_leaves hw.founded hj hlt, routesBy_embedded hb, List.getElem?_map, hleaf]
      rfl

/-- What starts at the end of a route is the struct itself, or lies on a way down. -/
theorem flatPath_of_beginsAt (ht : t.Aligned) (hw : S.WellFormed a) {route : List Step} {n : Nat}
    (hn : S.firstLeaf? t a route = some n) (hb : S.BeginsAt a route (.struct b)) :
    (route = [] ∧ b = a) ∨ S.FlatPath t a b (S.offsetAlong t route) := by
  induction route generalizing a n with
  | nil =>
    rcases hb with hself | ⟨u, hu, hunion, e, he, hb⟩
    · exact .inl ⟨rfl, Ty.struct.inj hself⟩
    · -- a member of the struct, which is a union: it lies at its start
      obtain rfl : a = u := Ty.struct.inj hu
      obtain ⟨i, hi⟩ := List.mem_iff_getElem?.1 he
      obtain ⟨l, hl⟩ := exists_layoutOn ht hw
      have hlast : S.FlatPath t a b (S.offsetOn t a i) := .last hi (by simp [Ty.embedded?, ← hb])
      rw [offsetOn_union hl hunion] at hlast
      exact .inr hlast
  | cons p rest ih =>
    right
    obtain ⟨j, hj, ⟨hc, rfl, -⟩ | ⟨c, k, hc, hk, -⟩⟩ := firstLeaf?_cons_cases hw.founded hn
    · rw [beginsAt_scalar hc] at hb
      simp [Ty.embedded?, ← hb] at hc
    · have hp := List.mem_of_getElem? hj
      have hembeds := embeds_of_mem_steps hp hc
      obtain ⟨howner, hfield, hstands⟩ := mem_steps_iff.1 hp
      rw [offsetAlong_cons, howner]
      rcases ih (hw.embeds hembeds) hk ((beginsAt_cons hc).1 hb) with ⟨rfl, rfl⟩ | hrest
      · simpa using FlatPath.last hfield hc
      · exact .step hfield hc hstands hrest

/-- The end of a way down is what starts at the end of some route. -/
theorem FlatPath.exists_route (ht : t.Aligned) (hw : S.WellFormed a) (hz : S.NoNegativeBelow t a)
    (h : S.FlatPath t a b k) :
    ∃ route n, S.firstLeaf? t a route = some n ∧ S.offsetAlong t route = k ∧
      S.BeginsAt a route (.struct b) := by
  induction h with
  | @last a b i e field inner =>
    have hembeds := embeds_of_getElem? field inner
    cases hu : (S.get a).isUnion with
    | false =>
      have hj := getElem?_steps_of_struct (t := t) hu field
      refine ⟨[⟨a, i, e⟩], S.leavesBefore t a i, ?_, by simp, (beginsAt_cons inner).2 (.inl rfl)⟩
      rw [firstLeaf?_cons_embedded hw.founded hj inner,
        firstLeaf?_nil (hw.embeds hembeds).founded (hz.embeds hembeds)]
      rfl
    | true =>
      -- all members of a union start where it does, whichever stands for it
      obtain ⟨l, hl⟩ := exists_layoutOn ht hw
      refine ⟨[], 0, firstLeaf?_nil hw.founded hz, (offsetOn_union hl hu i).symm, .inr ?_⟩
      exact ⟨a, rfl, hu, e, List.mem_of_getElem? field, (stripArrays_of_embedded inner).symm⟩
  | @step a b c i e k field inner stands rest ih =>
    have hembeds := embeds_of_getElem? field inner
    obtain ⟨route, n, hn, rfl, hb⟩ := ih (hw.embeds hembeds) (hz.embeds hembeds)
    have hp : (⟨a, i, e⟩ : Step) ∈ S.steps t a := mem_steps_iff.2 ⟨rfl, field, stands⟩
    obtain ⟨j, hj⟩ := List.mem_iff_getElem?.1 hp
    refine ⟨⟨a, i, e⟩ :: route, S.leavesBefore t a j + n, ?_, by simp, (beginsAt_cons inner).2 hb⟩
    rw [firstLeaf?_cons_embedded hw.founded hj inner, hn]
    rfl

end Structs

/-! ## Descriptors -/

/-- The entry where a route leads to. -/
theorem Descriptor.Segmented.entry_firstLeaf {d : Descriptor} {S : Structs} {t : Target}
    {a : StructId} (hd : d.Segmented S t a) (ht : t.Aligned) (hw : S.WellFormed a)
    (hz : S.NoNegativeBelow t a) {route : List Step} {n : Nat}
    (hn : S.firstLeaf? t a route = some n) :
    ∃ x, d.entry n = .ok x ∧ x.offset = S.offsetAlong t route := by
  obtain ⟨leaf, hleaf, hoffset⟩ := Structs.offsetAlong_firstLeaf ht hw hz hn
  refine ⟨S.entryOf t leaf, entry_eq_ok_iff.2 ⟨by omega, ?_⟩, hoffset⟩
  rw [hd.fields, Structs.leafTable, List.getElem?_map]
  simp [hleaf]

/-- A struct that is flattened on a target is a container where a way leads down from it. -/
theorem Registry.Consistent.mem_containers_iff {S : Structs} {L : Layouts} {r : Registry}
    {m : String} {t : Target} {a b : StructId} {h : Nat} (hr : r.Consistent S L)
    (hflat : r.FlattenedOn S L m t a) (hb : r.handle? b m = some h) {k : Int} :
    (a, k) ∈ (r.descriptor h).containers ↔ S.Path (S.offsetOn t) a b k := by
  obtain ⟨i, hi, -⟩ := hflat a .refl
  have hoff : ∀ x, S.Reaches a x → r.offsetIn S L m x = S.offsetOn t x := by
    intro x hx
    obtain ⟨j, hj, htarget⟩ := hflat x hx
    rw [offsetIn_of_handle hj, htarget]
  rw [hr.containers hb, hi]
  constructor
  · exact fun h => h.2.congr hoff
  · exact fun h => ⟨rfl, h.congr fun x hx => (hoff x hx).symm⟩

/-- After any run, of a struct that is flattened on a target with positive alignments and has no
negative size in it: where its element types show another struct, that one has a descriptor, which
finds it as a container at the offset of the entry. And where a way leads down from it to another
struct, by the members that stand for unions up to the last field, the element types show that
struct at an entry with the offset of the way. -/
theorem elementTypes_containers {policy : AnalysisId → String → Target → Prop}
    {ops : List Operation} {s : Session} (h : Runs policy ops s) {a : AnalysisId} {m : String}
    {t : Target} (ht : t.Aligned) {st : StructId}
    (hflat : (s.analysis a).registry.FlattenedOn s.program.structs s.layouts m t st) {i : Nat}
    (hst : (s.analysis a).registry.handle? st m = some i)
    (hz : s.program.structs.NoNegativeBelow t st) :
    let S := s.program.structs
    let r := (s.analysis a).registry
    let d := r.descriptor i
    (∀ (e : Int) (b : StructId), .struct b ∈ d.shape.typesAt e → b ≠ st →
      ∃ j x, r.handle? b m = some j ∧ d.entry e = .ok x ∧
        (r.descriptor j).containerAt S st x.offset = .ok (some st)) ∧
    ∀ (b : StructId) (k : Int), S.FlatPath t st b k →
      ∃ j, r.handle? b m = some j ∧ (st, k) ∈ (r.descriptor j).containers ∧
        ∃ e x, d.entry e = .ok x ∧ x.offset = k ∧ .struct b ∈ d.shape.typesAt e := by
  intro S r d
  have hr : r.Consistent S s.layouts := h.sound.registries a
  have hw := hr.wellFormed hst
  have hd : d.Segmented S t st := hr.segmented hflat hst hz
  have hinner : ∀ {b k}, S.FlatPath t st b k →
      ∃ j, r.handle? b m = some j ∧ (st, k) ∈ (r.descriptor j).containers := by
    intro b k hpath
    obtain ⟨j, hj⟩ := hr.reaches hst hpath.path.holds.to_reflTransGen
    exact ⟨j, hj, (hr.mem_containers_iff hflat hj).2 hpath.path⟩
  refine ⟨fun e b hb hne => ?_, fun b k hpath => ?_⟩
  · obtain ⟨route, n, hn, rfl, hbegins⟩ := (hr.mem_typesAt_iff hflat hst hz).1 hb
    obtain ⟨x, hx, hoffset⟩ := hd.entry_firstLeaf ht hw hz hn
    have hpath := (Structs.flatPath_of_beginsAt ht hw hn hbegins).resolve_left fun h => hne h.2
    obtain ⟨j, hj, hcontains⟩ := hinner hpath
    refine ⟨j, x, hj, hx, ?_⟩
    simp [Descriptor.containerAt, hw.has_body, hoffset, hcontains]
  · obtain ⟨j, hj, hcontains⟩ := hinner hpath
    obtain ⟨route, n, hn, rfl, hbegins⟩ := hpath.exists_route ht hw hz
    obtain ⟨x, hx, hoffset⟩ := hd.entry_firstLeaf ht hw hz hn
    refine ⟨j, hj, hcontains, n, x, hx, hoffset, ?_⟩
    exact (hr.mem_typesAt_iff hflat hst hz).2 ⟨route, n, hn, rfl, hbegins⟩

/-- The pair lies in the node by the union, for which it stands, and both tables say so. -/
theorem elementTypes_containers_pair :
    ∃ i j e x, (askedSession.analysis ⟨0⟩).registry.handle? ⟨2⟩ "m" = some i ∧
      (askedSession.analysis ⟨0⟩).registry.handle? ⟨0⟩ "m" = some j ∧
      .struct ⟨0⟩ ∈ ((askedSession.analysis ⟨0⟩).registry.descriptor i).shape.typesAt e ∧
      ((askedSession.analysis ⟨0⟩).registry.descriptor i).entry e = .ok x ∧ x.offset = 40 ∧
      ((askedSession.analysis ⟨0⟩).registry.descriptor j).containerAt smallProgram.structs ⟨2⟩
        x.offset = .ok (some ⟨2⟩) := by
  obtain ⟨i, hi⟩ := handle?_askedSession
  have hrun := runs_askedSession
  have hflat := (hrun.sound.registries ⟨0⟩).flattenedOn hrun.sound.targets hi
  have hagree := elementTypes_containers hrun (by decide) hflat hi
    (noNegativeBelow_askedSession ⟨2⟩)
  rw [program_askedSession] at hagree
  obtain ⟨hcontains, hshows⟩ := hagree
  have hpath : smallProgram.structs.FlatPath {} ⟨2⟩ ⟨0⟩ 40 := by
    have hoffset : smallProgram.structs.offsetOn {} ⟨2⟩ 2 +
        smallProgram.structs.offsetOn {} ⟨1⟩ 1 = 40 := by decide
    rw [← hoffset]
    exact .step rfl rfl (by decide) (.last rfl rfl)
  obtain ⟨-, -, -, e, x, hx, hoffset, htype⟩ := hshows _ _ hpath
  obtain ⟨j, y, hj, hy, hcontainer⟩ := hcontains e ⟨0⟩ htype (by decide)
  obtain rfl : y = x := Except.ok.inj (hy.symm.trans hx)
  exact ⟨i, j, e, y, hi, hj, htype, hx, hoffset, hcontainer⟩

end KernelObjects
