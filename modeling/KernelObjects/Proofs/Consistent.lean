import KernelObjects.Proofs.Building

/-!
# Consistent registries

What holds of every registry, whatever it was asked before and whether that failed: each descriptor
belongs to one struct and one module name, comes after those of the structs that its struct embeds,
has the expansion of its struct as its shape, and notes exactly the containers from which a path
leads to it.

Results:
* `Consistent.shape_induction_below`: the shapes of structs that are flattened on one target can be
  reasoned about from the leaves up.
* `Consistent.grows`: new structs and new bodies of opaque ones keep it consistent.
* `Consistent.layouts`: so do new layouts and new memos.
* `Noted.orderly`, `Noted.advances`: so does noting nothing; and noting changes no shape.
-/
namespace KernelObjects

/-- No layout is lost and no target changes. -/
structure Layouts.Extends (L L' : Layouts) : Prop where
  size_le : L.all.size ≤ L'.all.size
  targets : ∀ id : LayoutId, id.idx < L.all.size → L'.targetOf id = L.targetOf id

theorem Layouts.Extends.refl (L : Layouts) : L.Extends L :=
  ⟨Nat.le_refl _, fun _ _ => rfl⟩

theorem Layouts.Extends.trans {L L' L'' : Layouts} (h : L.Extends L') (h' : L'.Extends L'') :
    L.Extends L'' where
  size_le := Nat.le_trans h.size_le h'.size_le
  targets id hid :=
    (h'.targets id (Nat.lt_of_lt_of_le hid h.size_le)).trans (h.targets id hid)

theorem Layouts.get_define (L : Layouts) (t : Target) (id : LayoutId) :
    (L.define t).2.get id = if id.idx = L.all.size then { target := t } else L.get id := by
  simp only [define, get, Array.getD_eq_getD_getElem?, Array.getElem?_push]
  split <;> simp

theorem Layouts.extends_define (L : Layouts) (t : Target) : L.Extends (L.define t).2 := by
  refine ⟨by simp [define], fun id hid => ?_⟩
  rw [targetOf, get_define, if_neg (Nat.ne_of_lt hid)]
  rfl

theorem Layouts.Sound.define {S : Structs} {L : Layouts} (h : L.Sound S) (t : Target) :
    (L.define t).2.Sound S := by
  intro id
  have hm := h id
  rw [targetOf, get_define]
  split
  · exact .empty _ _
  · exact hm

theorem Layouts.extends_setMemo (L : Layouts) (id : LayoutId) (memo : Memo) :
    L.Extends (L.setMemo id memo) :=
  ⟨Nat.le_of_eq (by simp [setMemo]), fun id' _ => targetOf_setMemo L id id' memo⟩

namespace Registry

section

variable (S : Structs) (L : Layouts) (r : Registry) (m : String)

/-- The target of the descriptor at a position. -/
def targetAt (h : Nat) : Target :=
  L.targetOf (r.descriptor h).layout

/-- The offset of a field, on the target of the descriptor that its struct has under a name. -/
def offsetIn (b : StructId) (i : Nat) : Int :=
  match r.handle? b m with
  | some h => S.offsetOn (r.targetAt L h) b i
  | none => 0

/-- The shape of the descriptor that a struct has under a name. -/
def shapeIn (b : StructId) : Shape :=
  match r.handle? b m with
  | some h => (r.descriptor h).shape
  | none => {}

/-- The descriptors of a registry are what the structs and the layouts say. -/
structure Consistent : Prop where
  lt : ∀ {b m h}, r.handle? b m = some h → h < r.size
  keyed : ∀ h, h < r.size → ∃ b m, r.handle? b m = some h
  unique : ∀ {b b' m m' h}, r.handle? b m = some h → r.handle? b' m' = some h → b = b' ∧ m = m'
  type : ∀ {b m h}, r.handle? b m = some h → (r.descriptor h).type = b
  layout : ∀ {b m h}, r.handle? b m = some h → (r.descriptor h).layout.idx < L.all.size
  lays : ∀ {b m h}, r.handle? b m = some h → ∃ l, S.layoutOn (r.targetAt L h) b = .ok l
  inner : ∀ {b c m h}, r.handle? b m = some h → S.Embeds b c →
    ∃ h', r.handle? c m = some h' ∧ h' < h
  shape : ∀ {b m h}, r.handle? b m = some h →
    (r.descriptor h).shape = S.expand (r.targetAt L h) (r.shapeIn m) b
  containers : ∀ {b m h}, r.handle? b m = some h → ∀ p, p ∈ (r.descriptor h).containers ↔
    (r.handle? p.1 m).isSome ∧ S.Path (r.offsetIn S L m) p.1 b p.2

/-- A struct is flattened on a target: under the name it has a descriptor on this target, and so has
every struct that lies in it. -/
def FlattenedOn (t : Target) (a : StructId) : Prop :=
  ∀ x, S.Reaches a x → ∃ h, r.handle? x m = some h ∧ r.targetAt L h = t

end

variable {S S' : Structs} {L L' : Layouts} {r r' : Registry} {m : String} {a b : StructId} {h : Nat}

theorem offsetIn_of_handle (hb : r.handle? b m = some h) :
    r.offsetIn S L m b = S.offsetOn (r.targetAt L h) b := by
  funext i
  simp only [offsetIn, hb]

theorem shapeIn_of_handle (hb : r.handle? b m = some h) :
    r.shapeIn m b = (r.descriptor h).shape := by
  simp only [shapeIn, hb]

theorem FlattenedOn.embeds {t : Target} (hf : r.FlattenedOn S L m t a) (hb : S.Embeds a b) :
    r.FlattenedOn S L m t b :=
  fun x hx => hf x (.head hb hx)

theorem FlattenedOn.target {t : Target} (hf : r.FlattenedOn S L m t a)
    (ha : r.handle? a m = some h) : r.targetAt L h = t := by
  obtain ⟨h', hh', ht⟩ := hf a .refl
  rw [ha] at hh'
  cases hh'
  exact ht

namespace Consistent

theorem empty (S : Structs) (L : Layouts) : Consistent S L {} := by
  have hn : ∀ (b : StructId) (m : String), ({} : Registry).handle? b m = none := fun b m => by
    simp [handle?]
  refine ⟨?_, ?_, ?_, ?_, ?_, ?_, ?_, ?_, ?_⟩
  case refine_2 => intro h hlt; exact absurd hlt (Nat.not_lt_zero h)
  all_goals intros; simp_all

theorem wellFormed (hr : r.Consistent S L) (hb : r.handle? b m = some h) : S.WellFormed b := by
  obtain ⟨l, hl⟩ := hr.lays hb
  exact Structs.wellFormed_of_layoutOn hl

theorem reaches (hr : r.Consistent S L) (ha : r.handle? a m = some h) (hb : S.Reaches a b) :
    ∃ h', r.handle? b m = some h' := by
  rcases Relation.reflTransGen_iff_eq_or_transGen.1 hb with rfl | hb
  · exact ⟨h, ha⟩
  · obtain ⟨h', hh', -⟩ := handle?_of_holds hr.inner ha hb
    exact ⟨h', hh'⟩

/-- Where all descriptors under a name are on one target, every struct that has one is flattened on
it. -/
theorem flattenedOn {t : Target} (hr : r.Consistent S L)
    (ht : ∀ {b h}, r.handle? b m = some h → r.targetAt L h = t) (hb : r.handle? b m = some h) :
    r.FlattenedOn S L m t b := by
  intro x hx
  obtain ⟨h', hh'⟩ := hr.reaches hb hx
  exact ⟨h', hh', ht hh'⟩

/-- What holds of every expansion of a struct if it holds of the shapes of the structs that it
embeds, holds of the shape of every struct that is flattened on the target. -/
theorem shape_induction_below {t : Target} {P : StructId → Shape → Prop} (hr : r.Consistent S L)
    (step : ∀ b nested l, S.layoutOn t b = .ok l → (∀ c, S.Embeds b c → P c (nested c)) →
      P b (S.expand t nested b))
    (hflat : r.FlattenedOn S L m t b) (hb : r.handle? b m = some h) :
    P b (r.descriptor h).shape := by
  have hf := (hr.wellFormed hb).founded
  induction hf generalizing h with
  | intro b _ ih =>
    have ht := hflat.target hb
    obtain ⟨l, hl⟩ := hr.lays hb
    rw [hr.shape hb, ht]
    refine step b _ l (ht ▸ hl) fun c hc => ?_
    obtain ⟨h', hh', -⟩ := hr.inner hb hc
    rw [shapeIn_of_handle hh']
    exact ih c hc (hflat.embeds hc) hh'

/-- So it holds of all shapes under a name whose descriptors are on one target. -/
theorem shape_induction {t : Target} {P : StructId → Shape → Prop} (hr : r.Consistent S L)
    (ht : ∀ {b h}, r.handle? b m = some h → r.targetAt L h = t)
    (step : ∀ b nested l, S.layoutOn t b = .ok l → (∀ c, S.Embeds b c → P c (nested c)) →
      P b (S.expand t nested b))
    (hb : r.handle? b m = some h) : P b (r.descriptor h).shape :=
  hr.shape_induction_below step (hr.flattenedOn ht hb) hb

/-! ## Growth -/

/-- Two descriptors agree in all that consistency is about. -/
structure Alike (d d' : Descriptor) : Prop where
  type : d'.type = d.type
  layout : d'.layout = d.layout
  shape : d'.shape = d.shape
  containers : ∀ p, p ∈ d'.containers ↔ p ∈ d.containers

/-- Consistency depends on the positions and on those parts of the descriptors. -/
theorem congr (hr : r.Consistent S L) (hs : r'.size = r.size)
    (hh : ∀ b m, r'.handle? b m = r.handle? b m)
    (hd : ∀ h, Alike (r.descriptor h) (r'.descriptor h)) : r'.Consistent S L := by
  have ht : ∀ h, r'.targetAt L h = r.targetAt L h := fun h => by
    rw [targetAt, targetAt, (hd h).layout]
  have ho : ∀ m, r'.offsetIn S L m = r.offsetIn S L m := fun m => by
    funext b i; simp only [offsetIn, hh, ht]
  have hp : ∀ m, r'.shapeIn m = r.shapeIn m := fun m => by
    funext b; simp only [shapeIn, hh, (hd _).shape]
  constructor <;> simp only [hh, hs, ht, ho, hp, (hd _).type, (hd _).layout, (hd _).shape,
    (hd _).containers]
  · exact hr.lt
  · exact hr.keyed
  · exact hr.unique
  · exact hr.type
  · exact hr.layout
  · exact hr.lays
  · exact hr.inner
  · exact hr.shape
  · exact hr.containers

theorem layouts (hr : r.Consistent S L) (hL : L.Extends L') : r.Consistent S L' := by
  have ht : ∀ {b m h}, r.handle? b m = some h → r.targetAt L' h = r.targetAt L h :=
    fun hb => hL.targets _ (hr.layout hb)
  have ho : ∀ m, r.offsetIn S L' m = r.offsetIn S L m := fun m => by
    funext b i
    cases hb : r.handle? b m with
    | none => simp only [offsetIn, hb]
    | some h => rw [offsetIn_of_handle hb, offsetIn_of_handle hb, ht hb]
  exact {
    lt := hr.lt
    keyed := hr.keyed
    unique := hr.unique
    type := hr.type
    layout := fun hb => Nat.lt_of_lt_of_le (hr.layout hb) hL.size_le
    lays := fun hb => ht hb ▸ hr.lays hb
    inner := hr.inner
    shape := fun hb => by rw [ht hb]; exact hr.shape hb
    containers := fun hb => by simp only [ho]; exact hr.containers hb }

theorem grows (hr : r.Consistent S L) (hS : S.Grows S') : r.Consistent S' L := by
  have ho : ∀ {b m h}, r.handle? b m = some h → r.offsetIn S' L m b = r.offsetIn S L m b := by
    intro b m h hb
    obtain ⟨l, hl⟩ := hr.lays hb
    funext i
    rw [offsetIn_of_handle hb, offsetIn_of_handle hb]
    simp only [Structs.offsetOn, hl, Structs.layoutOn_grows hS hl]
  exact {
    lt := hr.lt
    keyed := hr.keyed
    unique := hr.unique
    type := hr.type
    layout := hr.layout
    lays := fun hb => by
      obtain ⟨l, hl⟩ := hr.lays hb
      exact ⟨l, Structs.layoutOn_grows hS hl⟩
    inner := fun hb hc => hr.inner hb ((hS.embeds_iff (hr.wellFormed hb).has_body).1 hc)
    shape := fun {b m h} hb => by
      obtain ⟨l, hl⟩ := hr.lays hb
      rw [Structs.expand_grows hS hl]
      exact hr.shape hb
    containers := fun {b m h} hb p => by
      rw [hr.containers hb]
      refine and_congr_right fun hp => ?_
      obtain ⟨n, hn⟩ := Option.isSome_iff_exists.1 hp
      rw [(hr.wellFormed hn).path_iff_of_grows hS]
      have he : ∀ x, S.Reaches p.1 x → r.offsetIn S L m x = r.offsetIn S' L m x := fun x hx => by
        obtain ⟨n', hn'⟩ := hr.reaches hn hx
        exact (ho hn').symm
      exact ⟨fun hk => hk.congr he, fun hk => hk.congr fun x hx => (he x hx).symm⟩ }

end Consistent

end Registry

namespace Flatten

/-! ## States of flattening -/

/-- A state that flattening can be in. -/
structure Orderly (cx : FlattenContext) (s : FlattenState) : Prop where
  sound : s.layouts.Sound cx.structs
  consistent : s.registry.Consistent cx.structs s.layouts
  layout : cx.layout.idx < s.layouts.all.size

/-- The struct has a descriptor under the name of the module. -/
def Known (cx : FlattenContext) (s : FlattenState) (b : StructId) : Prop :=
  ∃ n, s.registry.handle? b cx.module.name = some n

/-- What any action of flattening leaves as it was, and what it adds. -/
structure Advances (cx : FlattenContext) (s s' : FlattenState) : Prop where
  layouts : s.layouts.Extends s'.layouts
  old : ∀ {b m h}, s.registry.handle? b m = some h → s'.registry.handle? b m = some h
  new : ∀ {b m h}, s'.registry.handle? b m = some h → s.registry.handle? b m = some h ∨
    (m = cx.module.name ∧ (s'.registry.descriptor h).layout = cx.layout)
  named : ∀ {b}, Known cx s' b → Known cx s b ∨ cx.structs.Nameable b
  frame : ∀ {h}, h < s.registry.size →
    (s'.registry.descriptor h).layout = (s.registry.descriptor h).layout ∧
    (s'.registry.descriptor h).shape = (s.registry.descriptor h).shape
  size_le : s.registry.size ≤ s'.registry.size
  asked : ∀ q ∈ s'.asked, q ∈ s.asked ∨ Prudent cx s'.registry q

variable {cx : FlattenContext} {s s' s'' : FlattenState} {st owner : StructId}
  {C : StructId → Int → Prop} {t : Target}

namespace Advances

theorem refl (cx : FlattenContext) (s : FlattenState) : Advances cx s s :=
  ⟨.refl _, id, .inl, .inl, fun _ => ⟨rfl, rfl⟩, Nat.le_refl _, fun _ => .inl⟩

theorem known (h : Advances cx s s') {b : StructId} (hb : Known cx s b) : Known cx s' b := by
  obtain ⟨n, hn⟩ := hb
  exact ⟨n, h.old hn⟩

theorem prudent (h : Advances cx s s') {q : Question} (hq : Prudent cx s.registry q) :
    Prudent cx s'.registry q := by
  refine ⟨hq.1, fun b hb => ?_⟩
  obtain ⟨n, hn, hlt⟩ := hq.2 b hb
  exact ⟨n, h.old hn, hlt⟩

theorem trans (ho : Orderly cx s') (h : Advances cx s s') (h' : Advances cx s' s'') :
    Advances cx s s'' where
  layouts := h.layouts.trans h'.layouts
  old hb := h'.old (h.old hb)
  new hb := by
    rcases h'.new hb with hb | hb
    · rcases h.new hb with hb' | ⟨hm, hl⟩
      · exact .inl hb'
      · exact .inr ⟨hm, (h'.frame (ho.consistent.lt hb)).1.trans hl⟩
    · exact .inr hb
  named hb := (h'.named hb).elim h.named .inr
  frame hlt := by
    obtain ⟨h1, h2⟩ := h.frame hlt
    obtain ⟨h1', h2'⟩ := h'.frame (Nat.lt_of_lt_of_le hlt h.size_le)
    exact ⟨h1'.trans h1, h2'.trans h2⟩
  size_le := Nat.le_trans h.size_le h'.size_le
  asked q hq := by
    rcases h'.asked q hq with hq | hq
    · exact (h.asked q hq).imp_right h'.prudent
    · exact .inr hq

theorem targetAt_old (ho : Orderly cx s) (h : Advances cx s s') {b : StructId} {m : String}
    {n : Nat} (hb : s.registry.handle? b m = some n) :
    s'.registry.targetAt s'.layouts n = s.registry.targetAt s.layouts n := by
  rw [Registry.targetAt, (h.frame (ho.consistent.lt hb)).1]
  exact h.layouts.targets _ (ho.consistent.layout hb)

end Advances

theorem Noted.layouts (h : Noted cx owner C s s') : s.layouts.Extends s'.layouts :=
  ⟨Nat.le_of_eq h.layouts_size.symm, fun id _ => h.targets id⟩

theorem Noted.advances (h : Noted cx owner C s s') : Advances cx s s' where
  layouts := h.layouts
  old hb := by rw [h.handle?_eq]; exact hb
  new hb := by rw [h.handle?_eq] at hb; exact .inl hb
  named hb := by simp only [Known, h.handle?_eq] at hb; exact .inl hb
  frame _ := by rw [h.frame]; exact ⟨rfl, rfl⟩
  size_le := Nat.le_of_eq h.size_eq.symm
  asked q hq := (h.asked q hq).imp_right fun hp => by
    simpa only [Prudent, h.handle?_eq] using hp

theorem Noted.orderly (ho : Orderly cx s) (h : Noted cx owner (fun _ _ => False) s s')
    (hs : s'.layouts.Sound cx.structs) : Orderly cx s' where
  sound := hs
  consistent := by
    refine (ho.consistent.layouts h.layouts).congr h.size_eq h.handle?_eq fun n => ?_
    have hc := h.containers n
    rw [h.frame n]
    exact ⟨rfl, rfl, rfl, by simpa using hc⟩
  layout := h.layouts_size ▸ ho.layout

end Flatten

end KernelObjects
