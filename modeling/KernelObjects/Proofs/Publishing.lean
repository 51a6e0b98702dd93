import KernelObjects.Proofs.Consistent

/-!
# Publishing a descriptor

Between the moment a descriptor is made and the moment it is in the registry, its struct is noted as
a container of descriptors that it is no container of yet. Both together keep the registry
consistent.

Results:
* `Ready.consistent`: the registry is consistent again once the descriptor is in it.
* `build_ready`, `build_noted`: the state after building, if the struct has a layout and if not.
* `build_ok`, `build_unnamed`, `build_error`: building succeeds exactly if the struct can be named
  and has a layout, and leaves a consistent registry either way.
-/
namespace KernelObjects.Flatten

variable {cx : FlattenContext} {s s' : FlattenState} {st : StructId} {t : Target}

section

variable (cx s st t)

/-- The offsets of the fields of all structs that have descriptors, and of `st`. -/
def offsetsWith : StructId → Nat → Int :=
  Function.update (s.registry.offsetIn cx.structs s.layouts cx.module.name) st
    (cx.structs.offsetOn t st)

/-- The descriptors under the name of the module. -/
def nestedIn (b : StructId) : Descriptor :=
  match s.registry.handle? b cx.module.name with
  | some h => s.registry.descriptor h
  | none => default

/-- The state after `s'` in which the descriptor of `st`, made from `s` on, is published. -/
def completed (s' : FlattenState) : FlattenState :=
  published cx st (assembled cx t (nestedIn cx s) st) s'

/-- From `s` on, the descriptor of `st` was made, and `s'` is the state before it is published. -/
structure Ready (s' : FlattenState) : Prop where
  orderly : Orderly cx s
  target : s.layouts.targetOf cx.layout = t
  fresh : s.registry.handle? st cx.module.name = none
  inner : ∀ b, cx.structs.Embeds st b → ∃ n, s.registry.handle? b cx.module.name = some n
  named : cx.structs.Nameable st
  lays : ∃ l, cx.structs.layoutOn t st = .ok l
  noted : Noted cx st (cx.structs.Path (offsetsWith cx s st t) st) s s'

end

theorem nestedIn_of_handle {b : StructId} {h : Nat}
    (hb : s.registry.handle? b cx.module.name = some h) :
    nestedIn cx s b = s.registry.descriptor h := by
  simp only [nestedIn, hb]

theorem offsetsWith_of_ne {b : StructId} (hb : b ≠ st) :
    offsetsWith cx s st t b = s.registry.offsetIn cx.structs s.layouts cx.module.name b :=
  Function.update_of_ne hb ..

theorem Orderly.inOrder (ho : Orderly cx s)
    (hst : s.registry.handle? st cx.module.name = none) (t : Target) :
    InOrder cx (offsetsWith cx s st t) (nestedIn cx s) s where
  sound := ho.sound
  lt := ho.consistent.lt
  type := ho.consistent.type
  lays := ho.consistent.lays
  inner := ho.consistent.inner
  offsets {b h} hb := by
    rw [offsetsWith_of_ne (fun he => by rw [he, hst] at hb; cases hb),
      Registry.offsetIn_of_handle hb]
    rfl
  shows hb := by rw [nestedIn_of_handle hb]

namespace Ready

section

variable (hr : Ready cx s st t s')
include hr

/-- The registry with the new descriptor. -/
theorem handle?_iff {b : StructId} {m : String} {h : Nat} :
    (completed cx s st t s').registry.handle? b m = some h ↔
      (b = st ∧ m = cx.module.name ∧ h = s.registry.size) ∨
        s.registry.handle? b m = some h := by
  simp only [completed, published, Registry.handle?_registerName, Registry.handle?_push,
    hr.noted.size_eq, hr.noted.handle?_eq]
  by_cases hb : b = st ∧ m = cx.module.name
  · obtain ⟨rfl, rfl⟩ := hb
    simp [hr.fresh, eq_comm]
  · rw [if_neg hb]
    exact ⟨.inr, fun h => h.resolve_left fun h' => hb ⟨h'.1, h'.2.1⟩⟩

theorem size_published :
    (completed cx s st t s').registry.size =
      s.registry.size + 1 := by
  rw [← hr.noted.size_eq]
  simp only [completed, published, Registry.size_registerName]
  simp [Registry.push, Registry.size]

theorem descriptor_published (h : Nat) :
    (completed cx s st t s').registry.descriptor h =
      if h = s.registry.size then assembled cx t (nestedIn cx s) st
      else s'.registry.descriptor h := by
  simp only [completed, published, Registry.descriptor_registerName, Registry.descriptor_push,
    hr.noted.size_eq]

theorem descriptor_old {b : StructId} {m : String} {h : Nat}
    (hb : s.registry.handle? b m = some h) :
    (completed cx s st t s').registry.descriptor h =
      { s.registry.descriptor h with containers := (s'.registry.descriptor h).containers } := by
  have hlt := hr.orderly.consistent.lt hb
  rw [hr.descriptor_published, if_neg (by omega)]
  exact hr.noted.frame h

theorem descriptor_new :
    (completed cx s st t s').registry.descriptor s.registry.size =
      assembled cx t (nestedIn cx s) st := by
  rw [hr.descriptor_published, if_pos rfl]

theorem targetAt_old {b : StructId} {m : String} {h : Nat}
    (hb : s.registry.handle? b m = some h) :
    (completed cx s st t s').registry.targetAt (completed cx s st t s').layouts h =
      s.registry.targetAt s.layouts h := by
  rw [Registry.targetAt, hr.descriptor_old hb]
  exact hr.noted.targets _

theorem targetAt_new :
    (completed cx s st t s').registry.targetAt (completed cx s st t s').layouts s.registry.size =
      t := by
  rw [Registry.targetAt, hr.descriptor_new, layout_assembled]
  exact (hr.noted.targets _).trans hr.target

theorem handle?_old {b : StructId} {m : String} {h : Nat} (hb : s.registry.handle? b m = some h) :
    (completed cx s st t s').registry.handle? b m = some h :=
  hr.handle?_iff.2 (.inr hb)

theorem handle?_new :
    (completed cx s st t s').registry.handle? st cx.module.name = some s.registry.size :=
  hr.handle?_iff.2 (.inl ⟨rfl, rfl, rfl⟩)

theorem shapeIn_old {b : StructId} {m : String} {h : Nat} (hb : s.registry.handle? b m = some h) :
    (completed cx s st t s').registry.shapeIn m b = s.registry.shapeIn m b := by
  rw [Registry.shapeIn_of_handle (hr.handle?_old hb), Registry.shapeIn_of_handle hb,
    hr.descriptor_old hb]

theorem offsetIn_old {b : StructId} {m : String} {h : Nat}
    (hb : s.registry.handle? b m = some h) :
    (completed cx s st t s').registry.offsetIn cx.structs (completed cx s st t s').layouts m b =
      s.registry.offsetIn cx.structs s.layouts m b := by
  rw [Registry.offsetIn_of_handle (hr.handle?_old hb), Registry.offsetIn_of_handle hb,
    hr.targetAt_old hb]

theorem offsetIn_new :
    (completed cx s st t s').registry.offsetIn cx.structs (completed cx s st t s').layouts
      cx.module.name st = cx.structs.offsetOn t st := by
  rw [Registry.offsetIn_of_handle hr.handle?_new, hr.targetAt_new]

theorem wellFormed : cx.structs.WellFormed st := by
  obtain ⟨l, hl⟩ := hr.lays
  exact Structs.wellFormed_of_layoutOn hl

/-- Nothing that has a descriptor holds the new struct. -/
theorem ne_of_reaches {a b : StructId} {h : Nat}
    (ha : s.registry.handle? a cx.module.name = some h) (hb : cx.structs.Reaches a b) : b ≠ st := by
  rintro rfl
  obtain ⟨h', hh'⟩ := hr.orderly.consistent.reaches ha hb
  rw [hr.fresh] at hh'
  cases hh'

/-! ## Shapes -/

theorem shape_new :
    (assembled cx t (nestedIn cx s) st).shape =
      cx.structs.expand t ((completed cx s st t s').registry.shapeIn cx.module.name) st := by
  rw [shape_assembled]
  apply Structs.expand_congr rfl (fun _ _ => rfl) rfl
  intro b hb
  obtain ⟨n, hn⟩ := hr.inner b hb
  rw [hr.shapeIn_old hn, nestedIn_of_handle hn, Registry.shapeIn_of_handle hn]
  exact ⟨rfl, rfl⟩

theorem shape_old {b : StructId} {m : String} {h : Nat} (hb : s.registry.handle? b m = some h) :
    (s.registry.descriptor h).shape =
      cx.structs.expand (s.registry.targetAt s.layouts h)
        ((completed cx s st t s').registry.shapeIn m) b := by
  rw [hr.orderly.consistent.shape hb]
  apply Structs.expand_congr rfl (fun _ _ => rfl) rfl
  intro c hc
  obtain ⟨n, hn, -⟩ := hr.orderly.consistent.inner hb hc
  exact ⟨(hr.shapeIn_old hn).symm, rfl⟩

/-! ## Containers -/

/-- The paths from a struct that had a descriptor before are as they were. -/
theorem path_old {a b : StructId} {m : String} {h : Nat} {k : Int}
    (ha : s.registry.handle? a m = some h) :
    cx.structs.Path ((completed cx s st t s').registry.offsetIn cx.structs
        (completed cx s st t s').layouts m) a b k ↔
      cx.structs.Path (s.registry.offsetIn cx.structs s.layouts m) a b k := by
  have ho : ∀ x, cx.structs.Reaches a x → _ = _ := fun x hx => by
    obtain ⟨n, hn⟩ := hr.orderly.consistent.reaches ha hx
    exact hr.offsetIn_old hn
  exact ⟨fun hp => hp.congr ho, fun hp => hp.congr fun x hx => (ho x hx).symm⟩

/-- The paths from the new struct are those along which it was noted. -/
theorem path_new {b : StructId} {k : Int} :
    cx.structs.Path ((completed cx s st t s').registry.offsetIn cx.structs
        (completed cx s st t s').layouts cx.module.name) st b k ↔
      cx.structs.Path (offsetsWith cx s st t) st b k := by
  have ho : ∀ x, cx.structs.Reaches st x →
      (completed cx s st t s').registry.offsetIn cx.structs (completed cx s st t s').layouts
        cx.module.name x = offsetsWith cx s st t x := fun x hx => by
    rcases Relation.ReflTransGen.cases_head hx with rfl | ⟨c, hc, hx⟩
    · rw [hr.offsetIn_new, offsetsWith, Function.update_self]
    · obtain ⟨n, hn⟩ := hr.inner c hc
      obtain ⟨n', hn'⟩ := hr.orderly.consistent.reaches hn hx
      rw [hr.offsetIn_old hn', offsetsWith_of_ne (hr.ne_of_reaches hn hx)]
  exact ⟨fun hp => hp.congr ho, fun hp => hp.congr fun x hx => (ho x hx).symm⟩

/-- No container of the new descriptor has a descriptor yet. -/
theorem containers_new (p : StructId × Int) :
    p ∈ (assembled cx t (nestedIn cx s) st).containers ↔
      ((completed cx s st t s').registry.handle? p.1 cx.module.name).isSome ∧
        cx.structs.Path ((completed cx s st t s').registry.offsetIn cx.structs
          (completed cx s st t s').layouts cx.module.name) p.1 st p.2 := by
  rw [containers_assembled]
  simp only [List.not_mem_nil, false_iff, not_and]
  intro hp hpath
  obtain ⟨n, hn⟩ := Option.isSome_iff_exists.1 hp
  rcases hr.handle?_iff.1 hn with ⟨he, -, -⟩ | hn
  · rw [he] at hpath
    exact hr.wellFormed.founded.not_holds_self hpath.holds
  · exact hr.ne_of_reaches hn hpath.holds.to_reflTransGen rfl

/-- A descriptor that was there before has the new struct as its only new container. -/
theorem containers_old {b : StructId} {m : String} {h : Nat}
    (hb : s.registry.handle? b m = some h) (p : StructId × Int) :
    p ∈ (s'.registry.descriptor h).containers ↔
      ((completed cx s st t s').registry.handle? p.1 m).isSome ∧
        cx.structs.Path ((completed cx s st t s').registry.offsetIn cx.structs
          (completed cx s st t s').layouts m) p.1 b p.2 := by
  rw [hr.noted.containers, hr.orderly.consistent.containers hb]
  constructor
  · rintro (⟨hp, hpath⟩ | ⟨hp, b', hb', hpath⟩)
    · obtain ⟨n, hn⟩ := Option.isSome_iff_exists.1 hp
      exact ⟨Option.isSome_iff_exists.2 ⟨n, hr.handle?_old hn⟩, (hr.path_old hn).2 hpath⟩
    · obtain ⟨rfl, rfl⟩ := hr.orderly.consistent.unique hb hb'
      rw [hp]
      exact ⟨Option.isSome_iff_exists.2 ⟨_, hr.handle?_new⟩, hr.path_new.2 hpath⟩
  · rintro ⟨hp, hpath⟩
    obtain ⟨n, hn⟩ := Option.isSome_iff_exists.1 hp
    rcases hr.handle?_iff.1 hn with ⟨he, rfl, -⟩ | hn
    · rw [he] at hpath
      exact .inr ⟨he, b, hb, hr.path_new.1 hpath⟩
    · exact .inl ⟨Option.isSome_iff_exists.2 ⟨n, hn⟩, (hr.path_old hn).1 hpath⟩

theorem consistent :
    (completed cx s st t s').registry.Consistent cx.structs (completed cx s st t s').layouts where
  lt hb := by
    rw [hr.size_published]
    rcases hr.handle?_iff.1 hb with ⟨-, -, rfl⟩ | hb
    · exact Nat.lt_succ_self _
    · exact Nat.lt_succ_of_lt (hr.orderly.consistent.lt hb)
  keyed h hlt := by
    rw [hr.size_published] at hlt
    rcases Nat.lt_succ_iff_lt_or_eq.1 hlt with hlt | rfl
    · obtain ⟨b, m, hb⟩ := hr.orderly.consistent.keyed h hlt
      exact ⟨b, m, hr.handle?_old hb⟩
    · exact ⟨st, cx.module.name, hr.handle?_new⟩
  unique hb hb' := by
    rcases hr.handle?_iff.1 hb with ⟨hst, hm, he⟩ | hb
    · rcases hr.handle?_iff.1 hb' with ⟨hst', hm', -⟩ | hb'
      · exact ⟨hst.trans hst'.symm, hm.trans hm'.symm⟩
      · exact absurd (hr.orderly.consistent.lt hb') (Nat.not_lt.2 (Nat.le_of_eq he.symm))
    · rcases hr.handle?_iff.1 hb' with ⟨-, -, he⟩ | hb'
      · exact absurd (hr.orderly.consistent.lt hb) (Nat.not_lt.2 (Nat.le_of_eq he.symm))
      · exact hr.orderly.consistent.unique hb hb'
  type hb := by
    rcases hr.handle?_iff.1 hb with ⟨rfl, -, rfl⟩ | hb
    · rw [hr.descriptor_new, type_assembled]
    · rw [hr.descriptor_old hb]; exact hr.orderly.consistent.type hb
  layout hb := by
    have hsize : (completed cx s st t s').layouts.all.size = s.layouts.all.size :=
      hr.noted.layouts_size
    rw [hsize]
    rcases hr.handle?_iff.1 hb with ⟨rfl, -, rfl⟩ | hb
    · rw [hr.descriptor_new, layout_assembled]; exact hr.orderly.layout
    · rw [hr.descriptor_old hb]; exact hr.orderly.consistent.layout hb
  lays hb := by
    rcases hr.handle?_iff.1 hb with ⟨rfl, -, rfl⟩ | hb
    · rw [hr.targetAt_new]; exact hr.lays
    · rw [hr.targetAt_old hb]; exact hr.orderly.consistent.lays hb
  inner hb hc := by
    rcases hr.handle?_iff.1 hb with ⟨rfl, rfl, rfl⟩ | hb
    · obtain ⟨n, hn⟩ := hr.inner _ hc
      exact ⟨n, hr.handle?_old hn, hr.orderly.consistent.lt hn⟩
    · obtain ⟨n, hn, hlt⟩ := hr.orderly.consistent.inner hb hc
      exact ⟨n, hr.handle?_old hn, hlt⟩
  shape hb := by
    rcases hr.handle?_iff.1 hb with ⟨rfl, rfl, rfl⟩ | hb
    · rw [hr.descriptor_new, hr.targetAt_new]; exact hr.shape_new
    · rw [hr.descriptor_old hb, hr.targetAt_old hb]; exact hr.shape_old hb
  containers hb p := by
    rcases hr.handle?_iff.1 hb with ⟨rfl, rfl, rfl⟩ | hb
    · rw [hr.descriptor_new]; exact hr.containers_new p
    · rw [hr.descriptor_old hb]; exact hr.containers_old hb p

theorem advances : Advances cx s (completed cx s st t s') where
  layouts := hr.noted.layouts
  old := hr.handle?_old
  new hb := by
    rcases hr.handle?_iff.1 hb with ⟨rfl, rfl, rfl⟩ | hb
    · rw [hr.descriptor_new, layout_assembled]; exact .inr ⟨rfl, rfl⟩
    · exact .inl hb
  named := by
    rintro b ⟨h, hb⟩
    rcases hr.handle?_iff.1 hb with ⟨rfl, -, -⟩ | hb
    · exact .inr hr.named
    · exact .inl ⟨h, hb⟩
  frame hlt := by
    obtain ⟨b, m, hb⟩ := hr.orderly.consistent.keyed _ hlt
    rw [hr.descriptor_old hb]
    exact ⟨rfl, rfl⟩
  size_le := by rw [hr.size_published]; exact Nat.le_succ _
  asked q hq := by
    refine (hr.noted.asked q hq).imp_right fun hp => ⟨hp.1, fun b hb => ?_⟩
    obtain ⟨n, hn, hlt⟩ := hp.2 b hb
    exact ⟨n, hr.handle?_old hn, hlt⟩

end

end Ready

/-! ## Building -/

/-- A struct can be built if it has no descriptor yet and all that it embeds has one. -/
structure Buildable (cx : FlattenContext) (s : FlattenState) (st : StructId) : Prop where
  fresh : s.registry.handle? st cx.module.name = none
  inner : ∀ b, cx.structs.Embeds st b → ∃ n, s.registry.handle? b cx.module.name = some n

/-- A struct that can be named and has a layout gets its descriptor. -/
theorem build_ready (ho : Orderly cx s) (hb : Buildable cx s st) (hname : cx.structs.Nameable st)
    {l : StructLayout} (hl : cx.structs.layoutOn (s.layouts.targetOf cx.layout) st = .ok l) :
    ∃ s', Ready cx s st (s.layouts.targetOf cx.layout) s' ∧ s'.layouts.Sound cx.structs ∧
      build cx st s = .ok () (completed cx s st (s.layouts.targetOf cx.layout) s') := by
  obtain ⟨s', he, hn, hs⟩ := prepare_noted (ho.inOrder hb.fresh _) rfl hname hl
    (Function.update_self ..) hb.inner
  refine ⟨s', ⟨ho, rfl, hb.fresh, hb.inner, hname, ⟨l, hl⟩, hn⟩, hs, ?_⟩
  rw [build_eq, he]
  rfl

/-- A struct that has no layout is noted nowhere. -/
theorem build_noted (ho : Orderly cx s) (hb : Buildable cx s st) (hname : cx.structs.Nameable st)
    {e : Fault} (hl : cx.structs.layoutOn (s.layouts.targetOf cx.layout) st = .error e) :
    ∃ s', Noted cx st (fun _ _ => False) s s' ∧ s'.layouts.Sound cx.structs ∧
      build cx st s = .error e s' := by
  obtain ⟨s', he, hn, hs⟩ := prepare_error
    (ho.inOrder hb.fresh (s.layouts.targetOf cx.layout)) rfl hname hl hb.inner
  exact ⟨s', hn, hs, by rw [build_eq, he]⟩

theorem build_ok (ho : Orderly cx s) (hb : Buildable cx s st) (hname : cx.structs.Nameable st)
    {l : StructLayout} (hl : cx.structs.layoutOn (s.layouts.targetOf cx.layout) st = .ok l) :
    ∃ s', build cx st s = .ok () s' ∧ Orderly cx s' ∧ Advances cx s s' ∧
      s'.registry.handle? st cx.module.name = some s.registry.size := by
  obtain ⟨s₁, hr, hs, he⟩ := build_ready ho hb hname hl
  refine ⟨_, he, ⟨hs, hr.consistent, ?_⟩, hr.advances, hr.handle?_new⟩
  have := ho.layout
  rw [← hr.noted.layouts_size] at this
  exact this

theorem build_unnamed {e : Fault} (h : cx.structs.label st = .error e) (s : FlattenState) :
    build cx st s = .error e s := by
  rw [build_eq, prepare_unnamed h]

theorem build_error (ho : Orderly cx s) (hb : Buildable cx s st) (hname : cx.structs.Nameable st)
    {e : Fault} (hl : cx.structs.layoutOn (s.layouts.targetOf cx.layout) st = .error e) :
    ∃ s', build cx st s = .error e s' ∧ Orderly cx s' ∧ Advances cx s s' ∧
      ∀ b m, s'.registry.handle? b m = s.registry.handle? b m := by
  obtain ⟨s₁, hn, hs, he⟩ := build_noted ho hb hname hl
  exact ⟨s₁, he, hn.orderly ho hs, hn.advances, hn.handle?_eq⟩

end KernelObjects.Flatten
