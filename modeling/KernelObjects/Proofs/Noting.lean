import KernelObjects.Proofs.Assembly
import KernelObjects.Proofs.Memo

/-!
# Noting containers

While a descriptor is made, the state of flattening changes in three ways only: memos learn layouts,
questions are recorded, and containers are noted in descriptors that are there already. `Noted`
says which containers; everything else is as before.

Results:
* `recordContainer_noted`: a container is noted in a descriptor and in those of all that it holds,
  at the offset of every path, and nowhere else.
* `layOut_noted`, `sizeOf_noted`: questions are answered as by the layout without a memo.
-/
namespace KernelObjects

/-- All memos are sound. -/
def Layouts.Sound (S : Structs) (L : Layouts) : Prop :=
  ∀ id, SoundMemo (L.targetOf id) S (L.get id).memo

theorem Layouts.Sound.setMemo {S : Structs} {L : Layouts} (h : L.Sound S) {id : LayoutId}
    {memo : Memo} (hm : SoundMemo (L.targetOf id) S memo) : (L.setMemo id memo).Sound S := by
  intro id'
  rw [targetOf_setMemo, get_setMemo]
  split
  · next he => rw [he.1]; exact hm
  · exact h id'

/-- Where every embedded struct comes before the one that embeds it, so does all that it holds. -/
theorem Registry.handle?_of_holds {S : Structs} {r : Registry} {m : String}
    (inner : ∀ {b c h}, r.handle? b m = some h → S.Embeds b c →
      ∃ h', r.handle? c m = some h' ∧ h' < h)
    {b c : StructId} {h : Nat} (hb : r.handle? b m = some h) (hc : S.Holds b c) :
    ∃ h', r.handle? c m = some h' ∧ h' < h := by
  induction hc with
  | single hc => exact inner hb hc
  | tail _ hc ih =>
    obtain ⟨h₁, hb₁, hlt₁⟩ := ih
    obtain ⟨h₂, hb₂, hlt₂⟩ := inner hb₁ hc
    exact ⟨h₂, hb₂, Nat.lt_trans hlt₂ hlt₁⟩

namespace Flatten

variable {cx : FlattenContext} {owner : StructId} {C D : StructId → Int → Prop}
  {s s' s'' : FlattenState}

/-! ## What changes -/

variable (cx) in
/-- A question that comes to an end: there is no cycle below its struct, and all that lies in it
had a descriptor already. -/
def Prudent (r : Registry) (q : Question) : Prop :=
  cx.structs.Founded q.struct ∧
    ∀ b, cx.structs.Holds q.struct b →
      ∃ h, r.handle? b cx.module.name = some h ∧ h < q.built

variable (cx owner C) in
/-- From `s` to `s'`, the container `owner` was noted at offset `k` in the descriptor of `b` for
exactly those `b` and `k` with `C b k`, and only prudent questions were asked. -/
structure Noted (s s' : FlattenState) : Prop where
  outline : outline s' = outline s
  frame : ∀ h, s'.registry.descriptor h =
    { s.registry.descriptor h with containers := (s'.registry.descriptor h).containers }
  containers : ∀ h p, p ∈ (s'.registry.descriptor h).containers ↔
    p ∈ (s.registry.descriptor h).containers ∨
      (p.1 = owner ∧ ∃ b, s.registry.handle? b cx.module.name = some h ∧ C b p.2)
  targets : ∀ id, s'.layouts.targetOf id = s.layouts.targetOf id
  layouts_size : s'.layouts.all.size = s.layouts.all.size
  asked : ∀ q ∈ s'.asked, q ∈ s.asked ∨ Prudent cx s.registry q

namespace Noted

theorem handle?_eq (h : Noted cx owner C s s') (b : StructId) (m : String) :
    s'.registry.handle? b m = s.registry.handle? b m :=
  handle?_eq_of_outline_eq h.outline b m

theorem size_eq (h : Noted cx owner C s s') : s'.registry.size = s.registry.size :=
  congrArg (fun o => o.2.1) h.outline

theorem refl (cx : FlattenContext) (owner : StructId) (s : FlattenState) :
    Noted cx owner (fun _ _ => False) s s :=
  ⟨rfl, fun _ => rfl, by simp, fun _ => rfl, rfl, fun _ => .inl⟩

theorem trans (h : Noted cx owner C s s') (h' : Noted cx owner D s' s'') :
    Noted cx owner (fun b k => C b k ∨ D b k) s s'' where
  outline := h'.outline.trans h.outline
  frame n := by rw [h'.frame n, h.frame n]
  containers n p := by
    rw [h'.containers, h.containers, or_assoc, ← and_or_left]
    simp only [h.handle?_eq, ← exists_or, ← and_or_left]
  targets id := (h'.targets id).trans (h.targets id)
  layouts_size := h'.layouts_size.trans h.layouts_size
  asked q hq := by
    rcases h'.asked q hq with hq | ⟨hf, hb⟩
    · exact h.asked q hq
    · refine .inr ⟨hf, fun b hh => ?_⟩
      simpa only [h.handle?_eq] using hb b hh

theorem congr (h : Noted cx owner C s s') (hC : ∀ b k, C b k ↔ D b k) :
    Noted cx owner D s s' := by
  obtain rfl : C = D := by funext b k; exact propext (hC b k)
  exact h

end Noted

/-! ## States in order -/

variable (cx) in
/-- What the registry has to be like for containers to be noted: the descriptors of one module name
stand for their structs, which have layouts and whose embedded structs come before them. `off` gives
the offsets of their fields, `nested` what they are like but for their containers. -/
structure InOrder (off : StructId → Nat → Int) (nested : StructId → Descriptor)
    (s : FlattenState) : Prop where
  sound : s.layouts.Sound cx.structs
  lt : ∀ {b h}, s.registry.handle? b cx.module.name = some h → h < s.registry.size
  type : ∀ {b h}, s.registry.handle? b cx.module.name = some h →
    (s.registry.descriptor h).type = b
  lays : ∀ {b h}, s.registry.handle? b cx.module.name = some h →
    ∃ l, cx.structs.layoutOn (s.layouts.targetOf (s.registry.descriptor h).layout) b = .ok l
  inner : ∀ {b c h}, s.registry.handle? b cx.module.name = some h → cx.structs.Embeds b c →
    ∃ h', s.registry.handle? c cx.module.name = some h' ∧ h' < h
  offsets : ∀ {b h}, s.registry.handle? b cx.module.name = some h →
    off b = cx.structs.offsetOn (s.layouts.targetOf (s.registry.descriptor h).layout) b
  shows : ∀ {b h}, s.registry.handle? b cx.module.name = some h →
    s.registry.descriptor h =
      { nested b with containers := (s.registry.descriptor h).containers }

variable {off : StructId → Nat → Int} {nested : StructId → Descriptor}

namespace InOrder

theorem noted (h : InOrder cx off nested s) (hn : Noted cx owner C s s')
    (hs : s'.layouts.Sound cx.structs) : InOrder cx off nested s' where
  sound := hs
  lt hb := by rw [hn.handle?_eq] at hb; rw [hn.size_eq]; exact h.lt hb
  type hb := by rw [hn.handle?_eq] at hb; rw [hn.frame]; exact h.type hb
  lays hb := by rw [hn.handle?_eq] at hb; rw [hn.frame, hn.targets]; exact h.lays hb
  inner hb hc := by simp only [hn.handle?_eq] at hb ⊢; exact h.inner hb hc
  offsets hb := by rw [hn.handle?_eq] at hb; rw [hn.frame, hn.targets]; exact h.offsets hb
  shows hb := by rw [hn.handle?_eq] at hb; rw [hn.frame, h.shows hb]

theorem wellFormed (h : InOrder cx off nested s) {b : StructId} {n : Nat}
    (hb : s.registry.handle? b cx.module.name = some n) : cx.structs.WellFormed b := by
  obtain ⟨l, hl⟩ := h.lays hb
  exact Structs.wellFormed_of_layoutOn hl

/-- It is prudent to ask about a struct all of whose embedded structs have descriptors. -/
theorem prudent (h : InOrder cx off nested s) {st : StructId}
    (hb : ∀ b, cx.structs.Embeds st b → ∃ n, s.registry.handle? b cx.module.name = some n) :
    Prudent cx s.registry ⟨st, s.registry.size⟩ := by
  refine ⟨.intro st fun b hst => ?_, fun c hc => ?_⟩
  · obtain ⟨n, hn⟩ := hb b hst
    exact (h.wellFormed hn).founded
  · obtain ⟨b, hst, hbc⟩ := Relation.TransGen.head'_iff.1 hc
    obtain ⟨n, hn⟩ := hb b hst
    rcases Relation.reflTransGen_iff_eq_or_transGen.1 hbc with rfl | hbc
    · exact ⟨n, hn, h.lt hn⟩
    · obtain ⟨n', hn', hlt⟩ := Registry.handle?_of_holds h.inner hn hbc
      exact ⟨n', hn', Nat.lt_trans hlt (h.lt hn)⟩

theorem prudent_of_handle (h : InOrder cx off nested s) {st : StructId} {n : Nat}
    (hst : s.registry.handle? st cx.module.name = some n) :
    Prudent cx s.registry ⟨st, s.registry.size⟩ := by
  refine h.prudent fun b hb => ?_
  obtain ⟨n', hn', -⟩ := h.inner hst hb
  exact ⟨n', hn'⟩

end InOrder

/-! ## Questions -/

theorem layOut_noted (hs : s.layouts.Sound cx.structs) {st : StructId}
    (hq : Prudent cx s.registry ⟨st, s.registry.size⟩) (owner : StructId) (id : LayoutId) :
    ∃ s', Noted cx owner (fun _ _ => False) s s' ∧ s'.layouts.Sound cx.structs ∧
      layOut cx id st s =
        match cx.structs.layoutOn (s.layouts.targetOf id) st with
        | .ok l => .ok l s'
        | .error e => .error e s' := by
  obtain ⟨m, hm, hans⟩ := structLayout_answers hq.1 (s.layouts.get id).memo (hs id)
  refine ⟨{ s with
    layouts := s.layouts.setMemo id m, asked := ⟨st, s.registry.size⟩ :: s.asked }, ?_,
    hs.setMemo hm, ?_⟩
  · refine ⟨rfl, fun _ => rfl, by simp, fun id' => Layouts.targetOf_setMemo _ _ _ _, ?_, ?_⟩
    · simp [Layouts.setMemo]
    · intro q hmem
      rcases List.mem_cons.1 hmem with rfl | hmem
      · exact .inr hq
      · exact .inl hmem
  · have hmod : (modify fun s : FlattenState =>
        { s with asked := ⟨st, s.registry.size⟩ :: s.asked } : Flatten PUnit) s =
        .ok () { s with asked := ⟨st, s.registry.size⟩ :: s.asked } := rfl
    rw [layOut, bind_ok hmod, askLayout, onPart_eq, Layouts.onTarget_eq]
    dsimp only at hans ⊢
    rw [hans]
    cases cx.structs.layoutOn (s.layouts.targetOf id) st <;> rfl

theorem sizeOf_noted (hs : s.layouts.Sound cx.structs) {e : Ty}
    (hq : ∀ b, e.embedded? = some b → Prudent cx s.registry ⟨b, s.registry.size⟩)
    (owner : StructId) (id : LayoutId) :
    ∃ s', Noted cx owner (fun _ _ => False) s s' ∧ s'.layouts.Sound cx.structs ∧
      sizeOf cx id e s =
        match cx.structs.sizeOn (s.layouts.targetOf id) e with
        | .ok v => .ok v s'
        | .error f => .error f s' := by
  rw [sizeOf, get_bind, Structs.sizeOn]
  induction e using Ty.array_induction with
  | array e n ih =>
    obtain ⟨s', hn, hs', heq⟩ := ih hq
    refine ⟨s', hn, hs', ?_⟩
    simp only [allocSizeWith]
    cases hv : allocSizeWith (s.layouts.targetOf id) cx.structs
        (cx.structs.layoutOn (s.layouts.targetOf id)) e with
    | ok v => rw [hv] at heq; rw [bind_ok heq]; rfl
    | error f => rw [hv] at heq; rw [bind_error heq]; rfl
  | other e he =>
    cases e with
    | array e n => cases he
    | struct b =>
      obtain ⟨s', hn, hs', heq⟩ := layOut_noted hs (hq b rfl) owner id
      refine ⟨s', hn, hs', ?_⟩
      simp only [allocSizeWith]
      cases hl : cx.structs.layoutOn (s.layouts.targetOf id) b with
      | ok l => rw [hl] at heq; rw [bind_ok heq]; rfl
      | error f => rw [hl] at heq; rw [bind_error heq]; rfl
    | int bits =>
      refine ⟨s, .refl cx owner s, hs, ?_⟩
      simp only [allocSizeWith]
      cases roundUp? (Target.intBytes bits) ((s.layouts.targetOf id).intAlign bits) <;> rfl
    | ptr _ _ =>
      refine ⟨s, .refl cx owner s, hs, ?_⟩
      simp only [allocSizeWith]
      cases roundUp? (s.layouts.targetOf id).pointerSize (s.layouts.targetOf id).pointerAlign <;>
        rfl
    | unknown => exact ⟨s, .refl cx owner s, hs, rfl⟩
    | void => exact ⟨s, .refl cx owner s, hs, rfl⟩
    | func _ _ _ => exact ⟨s, .refl cx owner s, hs, rfl⟩

theorem built_eq {b : StructId} {h : Nat} (hb : s.registry.handle? b cx.module.name = some h) :
    built cx b s = .ok h s := by
  rw [built, get_bind, hb]
  rfl

/-! ## Containers -/

variable (cx off) in
/-- `b` lies at offset `k` if `c` lies at offset `o`: it is `c`, or a path leads from `c` to it. -/
def Below (c : StructId) (o : Int) (b : StructId) (k : Int) : Prop :=
  (b = c ∧ k = o) ∨ ∃ δ, cx.structs.Path off c b δ ∧ k = o + δ

/-- A path leads to what lies below one of the fields. -/
theorem path_iff {c b : StructId} {k : Int} :
    cx.structs.Path off c b k ↔ ∃ p ∈ (cx.structs.get c).elements.zipIdx, ∃ d,
      p.1.embedded? = some d ∧ Below cx off d (off c p.2) b k := by
  constructor
  · intro hp
    cases hp with
    | @last _ _ i e field inner =>
      exact ⟨(e, i), List.mem_zipIdx_iff_getElem?.2 field, b, inner, .inl ⟨rfl, rfl⟩⟩
    | @step _ d _ i e k field inner rest =>
      exact ⟨(e, i), List.mem_zipIdx_iff_getElem?.2 field, d, inner, .inr ⟨k, rest, rfl⟩⟩
  · rintro ⟨⟨e, i⟩, field, d, inner, hd⟩
    rw [List.mem_zipIdx_iff_getElem?] at field
    rcases hd with ⟨rfl, rfl⟩ | ⟨δ, rest, rfl⟩
    · exact .last field inner
    · exact .step field inner rest

theorem below_add {c b : StructId} {o o' k : Int} :
    Below cx off c (o + o') b k ↔ ∃ δ, Below cx off c o' b δ ∧ k = o + δ := by
  constructor
  · rintro (⟨rfl, rfl⟩ | ⟨δ, hp, rfl⟩)
    · exact ⟨o', .inl ⟨rfl, rfl⟩, rfl⟩
    · exact ⟨o' + δ, .inr ⟨δ, hp, rfl⟩, by omega⟩
  · rintro ⟨-, ⟨rfl, rfl⟩ | ⟨δ, hp, rfl⟩, rfl⟩
    · exact .inl ⟨rfl, rfl⟩
    · exact .inr ⟨δ, hp, by omega⟩

/-- What lies below a struct: the struct, and what lies below its fields. -/
theorem below_iff {c b : StructId} {o k : Int} :
    Below cx off c o b k ↔
      (b = c ∧ k = o) ∨ ∃ p ∈ (cx.structs.get c).elements.zipIdx, ∃ d,
        p.1.embedded? = some d ∧ Below cx off d (o + off c p.2) b k := by
  simp only [below_add]
  rw [Below]
  apply or_congr_right
  constructor
  · rintro ⟨δ, hp, hk⟩
    obtain ⟨p, hp, d, hd, hb⟩ := path_iff.1 hp
    exact ⟨p, hp, d, hd, δ, hb, hk⟩
  · rintro ⟨p, hp, d, hd, δ, hb, hk⟩
    exact ⟨δ, path_iff.2 ⟨p, hp, d, hd, hb⟩, hk⟩

/-- Noting in a loop notes what each turn notes. -/
theorem forM_noted {β : Type} {xs : List β} {f : β → Flatten PUnit}
    (C : β → StructId → Int → Prop) (h : InOrder cx off nested s)
    (hf : ∀ x ∈ xs, ∀ s₁, InOrder cx off nested s₁ →
      (∀ b, s₁.registry.handle? b cx.module.name = s.registry.handle? b cx.module.name) →
      ∃ s₂, f x s₁ = .ok () s₂ ∧ Noted cx owner (C x) s₁ s₂ ∧ s₂.layouts.Sound cx.structs) :
    ∃ s', xs.forM f s = .ok () s' ∧ Noted cx owner (fun b k => ∃ x ∈ xs, C x b k) s s' ∧
      s'.layouts.Sound cx.structs := by
  induction xs generalizing s with
  | nil => exact ⟨s, rfl, (Noted.refl cx owner s).congr (by simp), h.sound⟩
  | cons x xs ih =>
    obtain ⟨s₁, he₁, hn₁, hs₁⟩ := hf x (List.mem_cons_self ..) s h fun _ => rfl
    obtain ⟨s₂, he₂, hn₂, hs₂⟩ := ih (h.noted hn₁ hs₁) fun y hy s₂ h₂ heq =>
      hf y (List.mem_cons_of_mem _ hy) s₂ h₂ fun b => (heq b).trans (hn₁.handle?_eq b _)
    refine ⟨s₂, ?_, (hn₁.trans hn₂).congr fun b k => by simp, hs₂⟩
    rw [List.forM_eq_forM, List.forM_cons, bind_ok he₁]
    exact he₂

/-- One container noted in one descriptor. -/
theorem addContainer_noted (h : InOrder cx off nested s) {c : StructId} {n : Nat}
    (hc : s.registry.handle? c cx.module.name = some n) (owner : StructId) (o : Int) :
    Noted cx owner (fun b k => b = c ∧ k = o) s
      { s with registry := s.registry.modify n fun d => d.addContainer owner o } := by
  have hd := fun n' => Registry.descriptor_modify s.registry n n' (·.addContainer owner o) (h.lt hc)
  refine ⟨?_, fun n' => ?_, fun n' p => ?_, fun _ => rfl, rfl, fun _ => .inl⟩
  · simp [outline, Registry.modify, Registry.size]
  · simp only [hd]
    split
    · next he => rw [he]; rfl
    · rfl
  · simp only [hd]
    split
    · next he =>
      subst he
      simp only [Descriptor.addContainer, List.mem_cons, Prod.ext_iff]
      constructor
      · rintro (⟨h1, h2⟩ | hp)
        · exact .inr ⟨h1, c, hc, rfl, h2⟩
        · exact .inl hp
      · rintro (hp | ⟨h1, -, -, -, h2⟩)
        · exact .inr hp
        · exact .inl ⟨h1, h2⟩
    · next hne =>
      refine ⟨.inl, fun hp => hp.resolve_right ?_⟩
      rintro ⟨-, b, hb, rfl, -⟩
      rw [hc] at hb
      exact hne (Option.some.inj hb).symm

/-- What a loop over the fields of `c` notes for one of them. -/
theorem noteInner_noted {note : Nat → Int → Flatten Unit} (h : InOrder cx off nested s)
    {c : StructId} {hc : Nat} (hcb : s.registry.handle? c cx.module.name = some hc) {t : Target}
    {l : StructLayout} (hl : cx.structs.layoutOn t c = .ok l)
    (hoff : off c = cx.structs.offsetOn t c) {p : Ty × Nat}
    (hp : p ∈ (cx.structs.get c).elements.zipIdx) (o : Int)
    (hnote : ∀ d hd o, cx.structs.Embeds c d → s.registry.handle? d cx.module.name = some hd →
      ∃ s', note hd o s = .ok () s' ∧ Noted cx owner (Below cx off d o) s s' ∧
        s'.layouts.Sound cx.structs) :
    ∃ s', noteInner cx note l o p s = .ok () s' ∧
      Noted cx owner
        (fun b k => ∃ d, p.1.embedded? = some d ∧ Below cx off d (o + off c p.2) b k) s s' ∧
      s'.layouts.Sound cx.structs := by
  obtain ⟨e, i⟩ := p
  rw [List.mem_zipIdx_iff_getElem?] at hp
  simp only [noteInner] at hp ⊢
  cases hd : e.embedded? with
  | none => exact ⟨s, rfl, (Noted.refl cx owner s).congr (by simp), h.sound⟩
  | some d =>
    have hcd : cx.structs.Embeds c d := Structs.embeds_of_getElem? hp hd
    obtain ⟨hdn, hdb, -⟩ := h.inner hcb hcd
    have hi : i < (cx.structs.get c).elements.length := (List.getElem?_eq_some_iff.1 hp).1
    obtain ⟨s', he, hn, hs⟩ := hnote d hdn (o + off c i) hcd hdb
    refine ⟨s', ?_, hn.congr (by simp), hs⟩
    dsimp only
    rw [bind_ok (built_eq hdb), Structs.offsetAt_eq hl hi, ← hoff]
    exact he

/-- A container is noted in a descriptor and in all that its struct holds. -/
theorem recordContainer_noted {n : Nat} (h : InOrder cx off nested s) {c : StructId} {hc : Nat}
    (hcb : s.registry.handle? c cx.module.name = some hc) (hn : cx.structs.rank c < n)
    (owner : StructId) (o : Int) :
    ∃ s', recordContainer cx owner n hc o s = .ok () s' ∧
      Noted cx owner (Below cx off c o) s s' ∧ s'.layouts.Sound cx.structs := by
  induction n generalizing s c hc o with
  | zero => omega
  | succ n ih =>
    have hn₁ := addContainer_noted h hcb owner o
    have h₁ := h.noted hn₁ h.sound
    generalize hs₁ :
      { s with registry := s.registry.modify hc fun d => d.addContainer owner o } = s₁ at hn₁ h₁
    have he₁ : (onRegistry fun r => r.modify hc fun d => d.addContainer owner o) s = .ok () s₁ := by
      rw [← hs₁]; rfl
    have hcb₁ := (hn₁.handle?_eq c _).trans hcb
    obtain ⟨l, hl⟩ := h₁.lays hcb₁
    obtain ⟨s₂, hn₂, hs₂, he₂⟩ := layOut_noted h₁.sound (h₁.prudent_of_handle hcb₁) owner
      (s₁.registry.descriptor hc).layout
    rw [hl] at he₂
    have h₂ := h₁.noted hn₂ hs₂
    rw [recordContainer, bind_ok he₁, get_bind, h₁.type hcb₁, bind_ok he₂]
    have hrank : ∀ {d}, cx.structs.Embeds c d → cx.structs.rank d < n := fun hcd => by
      have := Structs.rank_lt hcd (h.wellFormed hcb).founded.not_holds_self
      omega
    obtain ⟨s₃, he₃, hn₃, hs₃⟩ := forM_noted
      (fun p b k => ∃ d, p.1.embedded? = some d ∧ Below cx off d (o + off c p.2) b k) h₂
      fun p hp s₃ h₃ heq =>
        noteInner_noted h₃ ((heq c).trans ((hn₂.handle?_eq c _).trans hcb₁)) hl
          (h₁.offsets hcb₁) hp o
          fun d hd o hcd hdb => ih h₃ hdb (hrank hcd) o
    refine ⟨s₃, he₃, ((hn₁.trans hn₂).trans hn₃).congr fun b k => ?_, hs₃⟩
    rw [below_iff, or_false]

end Flatten

end KernelObjects
