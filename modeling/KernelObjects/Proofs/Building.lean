import KernelObjects.Proofs.Noting
import KernelObjects.Proofs.Texts

/-!
# Building one descriptor

If all structs that a struct embeds have descriptors under the name of the module, then making its
own descriptor has one of three outcomes: the struct cannot be named, and nothing was done at all;
its layout fails, and nothing was noted; or the descriptor is the assembled one, and the struct was
noted as a container along every path.

Results:
* `prepare_noted`, `prepare_unnamed`, `prepare_error`: those three outcomes.
-/
namespace KernelObjects.Flatten

variable {cx : FlattenContext} {off : StructId → Nat → Int} {nested : StructId → Descriptor}
  {s : FlattenState} {t : Target}

/-! ## Fields -/

theorem noteContainer_noted (h : InOrder cx off nested s) {c : StructId} {hc : Nat}
    (hcb : s.registry.handle? c cx.module.name = some hc) (owner : StructId) (o : Int) :
    ∃ s', noteContainer cx owner hc o s = .ok () s' ∧
      Noted cx owner (Below cx off c o) s s' ∧ s'.layouts.Sound cx.structs :=
  recordContainer_noted h hcb (Nat.lt_succ_of_le (Structs.rank_le_size c)) owner o

/-- The descriptor of a nested struct counts but for its containers. -/
theorem embed_nested (h : InOrder cx off nested s) {b : StructId} {hb : Nat}
    (hbb : s.registry.handle? b cx.module.name = some hb) (d : Descriptor) (o : Int)
    (isArray inUnion isLast : Bool) :
    embed cx d (s.registry.descriptor hb) b o isArray inUnion isLast =
      embed cx d (nested b) b o isArray inUnion isLast := by
  rw [h.shows hbb]
  rfl

theorem flattenField_noted (h : InOrder cx off nested s)
    (ht : s.layouts.targetOf cx.layout = t) {e : Ty} {v : Int} (hv : cx.structs.sizeOn t e = .ok v)
    (hk : ∀ b, e.embedded? = some b → ∃ n, s.registry.handle? b cx.module.name = some n)
    (owner : StructId) (o : Int) (isLast inUnion : Bool) (d : Descriptor) :
    ∃ s', flattenField cx owner e o isLast inUnion d s =
        .ok (withField cx t nested e o isLast inUnion d) s' ∧
      Noted cx owner (fun b k => ∃ c, e.embedded? = some c ∧ Below cx off c o b k) s s' ∧
      s'.layouts.Sound cx.structs := by
  unfold flattenField withField
  cases hb : e.embedded? with
  | some b =>
    obtain ⟨n, hn⟩ := hk b hb
    obtain ⟨s', he, hno, hs⟩ := noteContainer_noted h hn owner o
    refine ⟨s', ?_, hno.congr (by simp), hs⟩
    dsimp only
    rw [bind_ok (built_eq hn), get_bind, bind_ok he, embed_nested h hn]
    rfl
  | none =>
    obtain ⟨s', hno, hs, he⟩ := sizeOf_noted h.sound (e := e) (by simp [hb]) owner cx.layout
    rw [ht, hv] at he
    refine ⟨s', ?_, hno.congr (by simp), hs⟩
    dsimp only
    rw [bind_ok he, Structs.bytesOn_of_ok hv]
    rfl

theorem flattenFields_noted (h : InOrder cx off nested s)
    (ht : s.layouts.targetOf cx.layout = t) {st : StructId} {l : StructLayout}
    (hl : cx.structs.layoutOn t st = .ok l) {es : List Ty} {i : Nat}
    (hi : i + es.length ≤ (cx.structs.get st).elements.length)
    (hv : ∀ e ∈ es, ∃ v, cx.structs.sizeOn t e = .ok v)
    (hk : ∀ e ∈ es, ∀ b, e.embedded? = some b →
      ∃ n, s.registry.handle? b cx.module.name = some n)
    (d : Descriptor) :
    ∃ s', flattenFields cx st l es i d s = .ok (withFields cx t nested st es i d) s' ∧
      Noted cx st
        (fun b k => ∃ p ∈ es.zipIdx i, ∃ c, p.1.embedded? = some c ∧
          Below cx off c (cx.structs.offsetOn t st p.2) b k) s s' ∧
      s'.layouts.Sound cx.structs := by
  induction es generalizing s i d with
  | nil => exact ⟨s, rfl, (Noted.refl cx st s).congr (by simp), h.sound⟩
  | cons e es ih =>
    rw [List.length_cons] at hi
    obtain ⟨v, hve⟩ := hv e (List.mem_cons_self ..)
    obtain ⟨s₁, he₁, hn₁, hs₁⟩ := flattenField_noted h ht hve (hk e (List.mem_cons_self ..)) st
      (cx.structs.offsetOn t st i) es.isEmpty false
      { d with shape := d.shape.addOffset d.shape.fields.size }
    obtain ⟨s₂, he₂, hn₂, hs₂⟩ := ih (i := i + 1) (h.noted hn₁ hs₁)
      ((hn₁.targets _).trans ht) (by omega) (fun e' he' => hv e' (List.mem_cons_of_mem _ he'))
      (fun e' he' b hb => by
        rw [hn₁.handle?_eq]; exact hk e' (List.mem_cons_of_mem _ he') b hb)
      (withField cx t nested e (cx.structs.offsetOn t st i) es.isEmpty false
        { d with shape := d.shape.addOffset d.shape.fields.size })
    refine ⟨s₂, ?_, (hn₁.trans hn₂).congr fun b k => ?_, hs₂⟩
    · have ho : (orRaise (l.offsetAt i) : Flatten Int) s = .ok (cx.structs.offsetOn t st i) s := by
        rw [Structs.offsetAt_eq hl (by omega)]
        rfl
      rw [flattenFields, bind_ok ho, bind_ok he₁]
      exact he₂
    · rw [List.zipIdx_cons, List.exists_mem_cons_iff]

/-! ## Unions -/

theorem scanMembers_noted (h : InOrder cx off nested s)
    (ht : s.layouts.targetOf cx.layout = t) {es : List Ty}
    (hv : ∀ e ∈ es, ∃ v, cx.structs.sizeOn t e = .ok v)
    (hk : ∀ e ∈ es, ∀ b, e.embedded? = some b →
      ∃ n, s.registry.handle? b cx.module.name = some n)
    (owner : StructId) (i : Nat) (best : Option Widest) (d : Descriptor) :
    ∃ s', scanMembers cx es i best d s =
        .ok (widestFrom cx.structs t es i best, withMembers es d) s' ∧
      Noted cx owner (fun _ _ => False) s s' ∧ s'.layouts.Sound cx.structs := by
  induction es generalizing s i best d with
  | nil => exact ⟨s, rfl, .refl cx owner s, h.sound⟩
  | cons e es ih =>
    obtain ⟨v, hve⟩ := hv e (List.mem_cons_self ..)
    have hq : ∀ b, e.embedded? = some b → Prudent cx s.registry ⟨b, s.registry.size⟩ := by
      intro b hb
      obtain ⟨n, hn⟩ := hk e (List.mem_cons_self ..) b hb
      exact h.prudent_of_handle hn
    obtain ⟨s₁, hn₁, hs₁, he₁⟩ := sizeOf_noted h.sound hq owner cx.layout
    rw [ht, hve] at he₁
    obtain ⟨s₂, he₂, hn₂, hs₂⟩ := ih (h.noted hn₁ hs₁) ((hn₁.targets _).trans ht)
      (fun e' he' => hv e' (List.mem_cons_of_mem _ he'))
      (fun e' he' b hb => by
        rw [hn₁.handle?_eq]; exact hk e' (List.mem_cons_of_mem _ he') b hb)
      (i + 1) (wider best ⟨i, e, v⟩)
      { d with shape := (d.shape.addOffset 0).addType 0 e.stripArrays }
    refine ⟨s₂, ?_, (hn₁.trans hn₂).congr (by simp), hs₂⟩
    rw [scanMembers, bind_ok he₁, widestFrom, Structs.bytesOn_of_ok hve]
    exact he₂

theorem noteMembers_noted (h : InOrder cx off nested s) {es : List Ty}
    (hk : ∀ e ∈ es, ∀ b, e.embedded? = some b →
      ∃ n, s.registry.handle? b cx.module.name = some n)
    (owner : StructId) (best : Option Widest) :
    ∃ s', noteMembers cx owner best es s = .ok () s' ∧
      Noted cx owner
        (fun b k => ∃ p ∈ es.zipIdx, ∃ c, p.1.embedded? = some c ∧
          standsFor best p.2 p.1 = false ∧ Below cx off c 0 b k) s s' ∧
      s'.layouts.Sound cx.structs := by
  refine forM_noted (fun (p : Ty × Nat) b k => ∃ c, p.1.embedded? = some c ∧
    standsFor best p.2 p.1 = false ∧ Below cx off c 0 b k) h ?_
  rintro ⟨e, i⟩ hp s₁ h₁ heq
  have he : e ∈ es := List.mem_of_getElem? (List.mem_zipIdx_iff_getElem?.1 hp)
  dsimp only
  cases hb : e.embedded? with
  | none => exact ⟨s₁, rfl, (Noted.refl cx owner s₁).congr (by simp), h₁.sound⟩
  | some b =>
    cases hf : standsFor best i e with
    | true => exact ⟨s₁, rfl, (Noted.refl cx owner s₁).congr (by simp), h₁.sound⟩
    | false =>
      obtain ⟨n, hn⟩ := hk e he b hb
      rw [← heq] at hn
      obtain ⟨s₂, he₂, hn₂, hs₂⟩ := noteContainer_noted h₁ hn owner 0
      refine ⟨s₂, ?_, hn₂.congr (by simp), hs₂⟩
      simp only [Bool.false_eq_true, if_false]
      rw [bind_ok (built_eq hn)]
      exact he₂

/-- The member that stands for a union has the same type as every member that it stands for. -/
theorem eq_of_standsFor {S : Structs} {es : List Ty} {w : Widest} {e : Ty} {i : Nat}
    (hw : widestFrom S t es 0 none = some w) (he : es[i]? = some e)
    (h : standsFor (some w) i e = true) : w.type = e := by
  obtain ⟨j, hj, hp⟩ := (getElem?_of_widestFrom hw).resolve_left (by simp)
  simp only [standsFor, Bool.or_eq_true, decide_eq_true_eq, Bool.and_eq_true] at h
  rcases h with hi | ⟨-, hwe⟩
  · obtain rfl : i = j := by omega
    exact Option.some.inj (hj.symm.trans he)
  · exact hwe

theorem flattenUnion_noted (h : InOrder cx off nested s)
    (ht : s.layouts.targetOf cx.layout = t) {es : List Ty}
    (hv : ∀ e ∈ es, ∃ v, cx.structs.sizeOn t e = .ok v)
    (hk : ∀ e ∈ es, ∀ b, e.embedded? = some b →
      ∃ n, s.registry.handle? b cx.module.name = some n)
    (owner : StructId) (d : Descriptor) :
    ∃ s', flattenUnion cx owner es d s =
        .ok (match widestFrom cx.structs t es 0 none with
          | none => withMembers es d
          | some w => withField cx t nested w.type 0 false true (withMembers es d)) s' ∧
      Noted cx owner
        (fun b k => ∃ p ∈ es.zipIdx, ∃ c, p.1.embedded? = some c ∧ Below cx off c 0 b k) s s' ∧
      s'.layouts.Sound cx.structs := by
  obtain ⟨s₁, he₁, hn₁, hs₁⟩ := scanMembers_noted h ht hv hk owner 0 none d
  have h₁ := h.noted hn₁ hs₁
  have hk₁ : ∀ e ∈ es, ∀ b, e.embedded? = some b →
      ∃ n, s₁.registry.handle? b cx.module.name = some n := by
    simpa only [hn₁.handle?_eq] using hk
  obtain ⟨s₂, he₂, hn₂, hs₂⟩ :=
    noteMembers_noted h₁ hk₁ owner (widestFrom cx.structs t es 0 none)
  rw [flattenUnion, bind_ok he₁]
  dsimp only
  rw [bind_ok he₂]
  cases hw : widestFrom cx.structs t es 0 none with
  | none =>
    refine ⟨s₂, rfl, (hn₁.trans hn₂).congr fun b k => ?_, hs₂⟩
    simp [hw, standsFor]
  | some w =>
    obtain ⟨j, hj, hp⟩ := (getElem?_of_widestFrom hw).resolve_left (by simp)
    have hmem := List.mem_of_getElem? hj
    obtain ⟨v, hv⟩ := hv w.type hmem
    obtain ⟨s₃, he₃, hn₃, hs₃⟩ := flattenField_noted (h₁.noted hn₂ hs₂)
      ((hn₂.targets _).trans ((hn₁.targets _).trans ht)) hv
      (by simpa only [hn₂.handle?_eq] using hk₁ w.type hmem) owner 0 false true (withMembers es d)
    refine ⟨s₃, he₃, ((hn₁.trans hn₂).trans hn₃).congr fun b k => ?_, hs₃⟩
    -- a member is noted by itself unless another one of its type stands for it
    rw [hw, false_or]
    constructor
    · rintro (⟨p, hp, c, hc, -, hb⟩ | ⟨c, hc, hb⟩)
      · exact ⟨p, hp, c, hc, hb⟩
      · exact ⟨(w.type, j), List.mem_zipIdx_iff_getElem?.2 hj, c, hc, hb⟩
    · rintro ⟨⟨e, i⟩, hp, c, hc, hb⟩
      cases hf : standsFor (some w) i e with
      | false => exact .inl ⟨(e, i), hp, c, hc, hf, hb⟩
      | true =>
        rw [eq_of_standsFor hw (List.mem_zipIdx_iff_getElem?.1 hp) hf]
        exact .inr ⟨c, hc, hb⟩

/-! ## The whole descriptor -/

/-- The part of a descriptor that is known before its fields are added. -/
def stem (d : Descriptor) : StructId × LayoutId × Int × List (StructId × Int) × ModuleId :=
  (d.type, d.layout, d.allocSize, d.containers, d.home)

theorem stem_withField (e : Ty) (o : Int) (isLast inUnion : Bool) (d : Descriptor) :
    stem (withField cx t nested e o isLast inUnion d) = stem d := by
  unfold withField
  cases e.embedded? <;> rfl

theorem stem_withFields (st : StructId) (es : List Ty) (i : Nat) (d : Descriptor) :
    stem (withFields cx t nested st es i d) = stem d := by
  induction es generalizing i d with
  | nil => rfl
  | cons e es ih => rw [withFields, ih, stem_withField]; rfl

theorem stem_withBody (st : StructId) (d : Descriptor) :
    stem (withBody cx t nested st d) = stem d := by
  unfold withBody
  dsimp only
  split
  · split
    · rfl
    · rw [stem_withField]; rfl
  · exact stem_withFields _ _ _ _

theorem stem_assembled (st : StructId) :
    stem (assembled cx t nested st) =
      (st, cx.layout, cx.structs.bytesOn t (.struct st), [], cx.home) := by
  have hd : stem (withBody cx t nested st (blank cx st (nameIn cx st))) =
      (st, cx.layout, 0, [], cx.home) := stem_withBody st (blank cx st (nameIn cx st))
  simp only [stem, Prod.mk.injEq] at hd
  simp only [stem, assembled, Descriptor.finish, Descriptor.setAllocSize, Descriptor.settle, hd]

theorem type_assembled (st : StructId) : (assembled cx t nested st).type = st :=
  congrArg (fun x => x.1) (stem_assembled st)

theorem layout_assembled (st : StructId) : (assembled cx t nested st).layout = cx.layout :=
  congrArg (fun x => x.2.1) (stem_assembled st)

theorem containers_assembled (st : StructId) : (assembled cx t nested st).containers = [] :=
  congrArg (fun x => x.2.2.2.1) (stem_assembled st)

theorem home_assembled (st : StructId) : (assembled cx t nested st).home = cx.home :=
  congrArg (fun x => x.2.2.2.2) (stem_assembled st)

theorem flattenBody_noted (h : InOrder cx off nested s)
    (ht : s.layouts.targetOf cx.layout = t) {st : StructId} {l : StructLayout}
    (hl : cx.structs.layoutOn t st = .ok l) (hoff : off st = cx.structs.offsetOn t st)
    (hk : ∀ b, cx.structs.Embeds st b → ∃ n, s.registry.handle? b cx.module.name = some n)
    (d : Descriptor) :
    ∃ s', flattenBody cx st l d s = .ok (withBody cx t nested st d) s' ∧
      Noted cx st (cx.structs.Path off st) s s' ∧ s'.layouts.Sound cx.structs := by
  have hv : ∀ e ∈ (cx.structs.get st).elements, ∃ v, cx.structs.sizeOn t e = .ok v :=
    fun e he => Structs.sizeOn_of_layoutOn hl he
  have hk' : ∀ e ∈ (cx.structs.get st).elements, ∀ b, e.embedded? = some b →
      ∃ n, s.registry.handle? b cx.module.name = some n := fun e he b hb => hk b ⟨e, he, hb⟩
  unfold flattenBody withBody
  dsimp only
  split
  · next hu =>
    obtain ⟨s', he, hn, hs⟩ := flattenUnion_noted h ht hv hk' st d
    refine ⟨s', he, hn.congr fun b k => ?_, hs⟩
    simp only [path_iff, hoff, Structs.offsetOn_union hl hu]
  · obtain ⟨s', he, hn, hs⟩ := flattenFields_noted h ht hl (i := 0) (by omega) hv hk' d
    refine ⟨s', he, hn.congr fun b k => ?_, hs⟩
    rw [path_iff, hoff]

theorem sizeOn_struct {S : Structs} {st : StructId} {l : StructLayout}
    (hl : S.layoutOn t st = .ok l) : S.sizeOn t (.struct st) = .ok l.size :=
  bind_eq_ok.2 ⟨l, hl, rfl⟩

theorem nameOf_of_nameable {st : StructId} (h : cx.structs.Nameable st) :
    nameOf cx st = .ok (nameIn cx st) := by
  obtain ⟨name, hname⟩ := (Structs.nameable_iff_scopeName (some cx.module.name)).1 h
  rw [nameIn, nameOf, hname]
  rfl

/-- Nothing is done for a struct that cannot be named. -/
theorem prepare_unnamed {st : StructId} {e : Fault} (h : cx.structs.label st = .error e)
    (s : FlattenState) : prepare cx st s = .error e s := by
  have hname : nameOf cx st = .error e := Structs.scopeName_eq_error_iff.2 h
  rw [prepare, hname]
  rfl

theorem prepare_of_nameable {st : StructId} (h : cx.structs.Nameable st) :
    prepare cx st = (do
      let placed ← layOut cx cx.layout st
      complete cx (← flattenBody cx st placed (blank cx st (nameIn cx st)))) := by
  rw [prepare, nameOf_of_nameable h]
  rfl

theorem prepare_noted (h : InOrder cx off nested s)
    (ht : s.layouts.targetOf cx.layout = t) {st : StructId} (hname : cx.structs.Nameable st)
    {l : StructLayout} (hl : cx.structs.layoutOn t st = .ok l)
    (hoff : off st = cx.structs.offsetOn t st)
    (hk : ∀ b, cx.structs.Embeds st b → ∃ n, s.registry.handle? b cx.module.name = some n) :
    ∃ s', prepare cx st s = .ok (assembled cx t nested st) s' ∧
      Noted cx st (cx.structs.Path off st) s s' ∧ s'.layouts.Sound cx.structs := by
  obtain ⟨s₁, hn₁, hs₁, he₁⟩ := layOut_noted h.sound (h.prudent hk) st cx.layout
  rw [ht, hl] at he₁
  have h₁ := h.noted hn₁ hs₁
  have ht₁ := (hn₁.targets cx.layout).trans ht
  obtain ⟨s₂, he₂, hn₂, hs₂⟩ := flattenBody_noted h₁ ht₁ hl hoff
    (by simpa only [hn₁.handle?_eq] using hk) (blank cx st (nameIn cx st))
  have h₂ := h₁.noted hn₂ hs₂
  have hk₂ : ∀ b, cx.structs.Embeds st b →
      ∃ n, s₂.registry.handle? b cx.module.name = some n := by
    simpa only [hn₂.handle?_eq, hn₁.handle?_eq] using hk
  obtain ⟨s₃, hn₃, hs₃, he₃⟩ := sizeOf_noted h₂.sound (e := .struct st)
    (fun b hb => by cases hb; exact h₂.prudent hk₂) st cx.layout
  rw [hn₂.targets, ht₁, sizeOn_struct hl] at he₃
  refine ⟨s₃, ?_, ((hn₁.trans hn₂).trans hn₃).congr (by simp), hs₃⟩
  rw [prepare_of_nameable hname, bind_ok he₁, bind_ok he₂, assembled,
    Structs.bytesOn_of_ok (sizeOn_struct hl)]
  have hd : stem (withBody cx t nested st (blank cx st (nameIn cx st))) =
      (st, cx.layout, 0, [], cx.home) := stem_withBody st (blank cx st (nameIn cx st))
  generalize withBody cx t nested st (blank cx st (nameIn cx st)) = d at hd ⊢
  simp only [stem, Prod.mk.injEq] at hd
  obtain ⟨htype, hlayout, hsize, -⟩ := hd
  have hlacks : d.settle.lacksAllocSize cx.structs = true := by
    have hw := (Structs.wellFormed_of_layoutOn hl).has_body
    simp [Descriptor.lacksAllocSize, Descriptor.settle, htype, hsize, hw]
  have hs : sizeOf cx d.settle.layout (.struct d.settle.type) s₂ = .ok l.size s₃ := by
    simpa only [Descriptor.settle, htype, hlayout] using he₃
  rw [complete]
  simp only [hlacks, if_true]
  rw [bind_ok hs]
  rfl

/-- Without a layout there is no descriptor. -/
theorem prepare_error (h : InOrder cx off nested s)
    (ht : s.layouts.targetOf cx.layout = t) {st : StructId} (hname : cx.structs.Nameable st)
    {e : Fault} (hl : cx.structs.layoutOn t st = .error e)
    (hk : ∀ b, cx.structs.Embeds st b → ∃ n, s.registry.handle? b cx.module.name = some n) :
    ∃ s', prepare cx st s = .error e s' ∧
      Noted cx st (fun _ _ => False) s s' ∧ s'.layouts.Sound cx.structs := by
  obtain ⟨s', hn, hs, he⟩ := layOut_noted h.sound (h.prudent hk) st cx.layout
  rw [ht, hl] at he
  refine ⟨s', ?_, hn, hs⟩
  rw [prepare_of_nameable hname]
  exact bind_error he

end KernelObjects.Flatten
