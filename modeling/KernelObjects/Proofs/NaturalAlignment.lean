import KernelObjects.Proofs.FieldPlacement
import KernelObjects.Proofs.Spans
import KernelObjects.Proofs.Tables
import Mathlib.Algebra.Order.Ring.Int

/-!
# Natural alignment

On a target whose alignments are powers of two, a smaller alignment divides a larger one. So the
alignment of a struct, which is the largest among those of its fields, is a multiple of each of
them, and this goes on through all levels: what starts at a multiple of its alignment within a
struct does so within every object that the struct lies in. Packed structs are out of this, since
they place their fields anywhere.

Results:
* `PowerOfTwo.dvd`: of two powers of two, the smaller one divides the other.
* `powerOfTwo_alignment`: all alignments are powers of two if those of the target are.
* `dvd_offsetOn`: a field starts at a multiple of its alignment, which divides that of its struct.
* `leaves_aligned`: so does every leaf, at any depth.
* `entries_aligned`: all of it, for the structs that a session has flattened on such a target.
-/
namespace KernelObjects

/-! ## Powers of two -/

/-- The number is a power of two. -/
def PowerOfTwo (x : Int) : Prop :=
  ∃ k : Nat, x = 2 ^ k

namespace PowerOfTwo

variable {x y : Int}

theorem one_le (h : PowerOfTwo x) : 1 ≤ x := by
  obtain ⟨k, rfl⟩ := h
  exact one_le_pow₀ (by decide)

theorem dvd (hx : PowerOfTwo x) (hy : PowerOfTwo y) (h : x ≤ y) : x ∣ y := by
  obtain ⟨j, rfl⟩ := hx
  obtain ⟨k, rfl⟩ := hy
  exact pow_dvd_pow 2 ((pow_le_pow_iff_right₀ (by decide)).1 h)

end PowerOfTwo

/-- All alignments of the target are powers of two. -/
structure Target.Natural (t : Target) : Prop where
  pointer : PowerOfTwo t.pointerAlign
  ints : ∀ p ∈ t.intAligns.entries, PowerOfTwo p.2
  aggregate : PowerOfTwo t.aggregateAlign

variable {t : Target} {S : Structs} {a b : StructId}

theorem Target.Natural.aligned (h : t.Natural) : t.Aligned where
  pointer := h.pointer.one_le
  ints p hp := (h.ints p hp).one_le
  aggregate := h.aggregate.one_le

theorem Target.Natural.intAlign (h : t.Natural) (bits : Int) : PowerOfTwo (t.intAlign bits) := by
  unfold Target.intAlign
  cases hw : (t.governingWidth bits).bind t.intAligns.get? with
  | none => exact ⟨0, rfl⟩
  | some align =>
    obtain ⟨width, -, hg⟩ := Option.bind_eq_some_iff.1 hw
    exact h.ints (width, align) (Table.mem_of_find hg)

/-! ## Alignments -/

/-- The alignment of a type is a power of two if that of the struct in it is. -/
theorem powerOfTwo_alignmentWith (ht : t.Natural) {ask : StructId → Except Fault StructLayout}
    {e : Ty} {v : Int}
    (hb : ∀ b l, e.embedded? = some b → ask b = .ok l → PowerOfTwo l.alignment)
    (hv : alignmentWith t S ask e = .ok v) : PowerOfTwo v := by
  induction e using Ty.array_induction with
  | array e n ih => exact ih hb hv
  | other e he =>
    cases e with
    | array e n => cases he
    | struct s =>
      obtain ⟨l, hl, hv⟩ := bind_eq_ok.1 hv
      cases hv
      exact hb s l rfl hl
    | int bits => cases hv; exact ht.intAlign bits
    | ptr _ _ => cases hv; exact ht.pointer
    | unknown => cases hv
    | void => cases hv
    | func _ _ _ => cases hv

/-- The alignment of a struct is 1, that of a field, or that of aggregates. -/
theorem powerOfTwo_alignment (ht : t.Natural) {l : StructLayout} (hl : S.layoutOn t a = .ok l) :
    PowerOfTwo l.alignment := by
  have hw := Structs.wellFormed_of_layoutOn hl
  induction hw generalizing l with
  | @mk a body scalars inner ih =>
    obtain ⟨r, hr, rfl⟩ := Structs.layoutOn_eq_ok hl
    obtain ⟨ms, hms, hr⟩ := placeWith_eq_addAll hr
    rcases (isGreatest_alignment hr (S.get a).packed t.aggregateAlign).1 with
      hone | ⟨m, hm, halign⟩ | ⟨-, hagg⟩
    · exact ⟨0, hone⟩
    · obtain ⟨e, he, hfield, -⟩ := exists_of_forall₂_mem hms hm
      rw [← halign]
      unfold fieldAlignWith at hfield
      split at hfield
      · exact ⟨0, (Except.ok.inj hfield).symm⟩
      · exact powerOfTwo_alignmentWith ht (fun b l hb => ih b ⟨e, he, hb⟩) hfield
    · rw [hagg]
      exact ht.aggregate

/-- The alignment of a type that holds a struct is that of the struct. -/
theorem alignmentWith_of_embedded {ask : StructId → Except Fault StructLayout} {e : Ty}
    {l : StructLayout} (hb : e.embedded? = some b) (hl : ask b = .ok l) :
    alignmentWith t S ask e = .ok l.alignment := by
  induction e using Ty.array_induction with
  | array e n ih => exact ih hb
  | other e he =>
    cases e with
    | array e n => cases he
    | struct s =>
      cases hb
      exact bind_eq_ok.2 ⟨l, hl, rfl⟩
    | _ => cases hb

/-! ## Fields and leaves -/

/-- A field starts at a multiple of its alignment, and its alignment divides that of the struct. -/
theorem dvd_offsetOn (ht : t.Natural) {l : StructLayout} (hl : S.layoutOn t a = .ok l)
    (hpacked : (S.get a).packed = false) {i : Nat} {e : Ty}
    (he : (S.get a).elements[i]? = some e) :
    ∃ v, alignmentWith t S (S.layoutOn t) e = .ok v ∧ v ∣ S.offsetOn t a i ∧ v ∣ l.alignment := by
  have hpower := powerOfTwo_alignment ht hl
  obtain ⟨r, hplace, rfl⟩ := Structs.layoutOn_eq_ok hl
  obtain ⟨ms, hms, hr⟩ := placeWith_eq_addAll hplace
  obtain ⟨hi, rfl⟩ := List.getElem?_eq_some_iff.1 he
  have hi' : i < ms.length := hms.length_eq ▸ hi
  obtain ⟨halign, -⟩ : HasMeasure t S (S.layoutOn t) _ (S.get a).elements[i] ms[i] := hms.get hi hi'
  rw [fieldAlignWith, hpacked] at halign
  refine ⟨ms[i].align, halign, ?_, ?_⟩
  · cases hu : (S.get a).isUnion with
    | true =>
      rw [Structs.offsetOn_union hl hu]
      exact Int.dvd_zero _
    | false =>
      rw [hu] at hr
      obtain ⟨os, hos, hfollow⟩ := addAll_follow (fun m hm => by
        obtain ⟨e, -, hfield, -⟩ := exists_of_forall₂_mem hms hm
        exact fieldAlignWith_pos ht.aligned hfield) hr
      have hio : i < os.length := hfollow.length_eq ▸ hi'
      have hoffset : S.offsetOn t a i = os[i] := by
        have hget : r.offsets[i]? = some os[i] := by
          rw [← Array.getElem?_toList, hos]
          exact List.getElem?_eq_getElem hio
        simp [Structs.offsetOn, hl, Except.toOption, Placement.finish, hget]
      rw [hoffset]
      exact hfollow.dvd (List.getElem?_eq_getElem hi') (List.getElem?_eq_getElem hio)
  · refine PowerOfTwo.dvd ?_ hpower ?_
    · exact powerOfTwo_alignmentWith ht (fun b l _ => powerOfTwo_alignment ht) halign
    · exact (isGreatest_alignment hr _ _).2 (.inr (.inl ⟨_, List.getElem_mem hi', rfl⟩))

/-- Every leaf starts at a multiple of its alignment, which divides that of the struct. -/
theorem leaves_aligned (ht : t.Natural) {l : StructLayout} (hl : S.layoutOn t a = .ok l)
    (hpacked : ∀ x, S.Reaches a x → (S.get x).packed = false) {route : List Step}
    (hroute : route ∈ S.leaves t a) {p : Step} (hp : route.getLast? = some p) :
    ∃ v, alignmentWith t S (S.layoutOn t) p.type = .ok v ∧
      v ∣ (route.map fun q => S.offsetOn t q.owner q.index).sum ∧ v ∣ l.alignment := by
  have hw := Structs.wellFormed_of_layoutOn hl
  induction hw generalizing l route with
  | @mk a body scalars inner ih =>
    rw [Structs.leaves_eq (Structs.wellFormed_of_layoutOn hl).founded] at hroute
    split at hroute
    · rw [List.mem_singleton.1 hroute] at hp
      cases hp
    obtain ⟨q, hq, hby⟩ := List.mem_flatMap.1 hroute
    obtain ⟨rfl, hfield⟩ := Structs.getElem?_of_mem_steps hq
    obtain ⟨v, hv, hoffset, hdvd⟩ := dvd_offsetOn ht hl (hpacked _ .refl) hfield
    -- a route of one step ends with the field itself
    have hself : route = [q] → ∃ v, alignmentWith t S (S.layoutOn t) p.type = .ok v ∧
        v ∣ (route.map fun q => S.offsetOn t q.owner q.index).sum ∧ v ∣ l.alignment := by
      rintro rfl
      cases hp
      exact ⟨v, hv, by simpa using hoffset, hdvd⟩
    unfold Structs.routesBy at hby
    split at hby
    · next b hb =>
      obtain ⟨rest, hrest, rfl⟩ := List.mem_map.1 hby
      cases rest with
      | nil => exact hself rfl
      | cons q' rest =>
        have hembeds := Structs.embeds_of_getElem? hfield hb
        obtain ⟨l', hl'⟩ := Structs.exists_layoutOn ht.aligned (inner b hembeds)
        obtain rfl : l'.alignment = v :=
          Except.ok.inj ((alignmentWith_of_embedded hb hl').symm.trans hv)
        obtain ⟨w, hw, hsum, hdvd'⟩ := ih b hembeds hl' (fun x hx => hpacked x (.head hembeds hx))
          hrest (by simpa using hp)
        refine ⟨w, hw, ?_, Int.dvd_trans hdvd' hdvd⟩
        rw [List.map_cons, List.sum_cons]
        exact Int.dvd_add (Int.dvd_trans hdvd' hoffset) hsum
    · exact hself (List.mem_singleton.1 hby)

/-! ## Sessions -/

theorem founded_of_alignmentWith {e : Ty} {v : Int}
    (hv : alignmentWith t S (S.layoutOn t) e = .ok v) {b : StructId} (hb : e.embedded? = some b) :
    S.Founded b := by
  induction e using Ty.array_induction with
  | array e n ih => exact ih hv hb
  | other e he =>
    cases e with
    | array e n => cases he
    | struct s =>
      cases hb
      obtain ⟨l, hl, -⟩ := bind_eq_ok.1 hv
      exact (Structs.wellFormed_of_layoutOn hl).founded
    | _ => cases hb

/-- After any run, of a struct that is flattened on a target with powers of two as alignments, and
that has no packed struct and no negative size in it: each entry of its descriptor lies at a
multiple of the alignment of its declared type, that of the last field on the way to it, which
divides the alignment of the whole struct. That one divides the size of the struct, which is the
size of the descriptor unless another one was set. -/
theorem entries_aligned {policy : AnalysisId → String → Target → Prop} {ops : List Operation}
    {s : Session} (h : Runs policy ops s) {a : AnalysisId} {m : String} {t : Target}
    (ht : t.Natural) {st : StructId}
    (hflat : (s.analysis a).registry.FlattenedOn s.program.structs s.layouts m t st) {i : Nat}
    (hst : (s.analysis a).registry.handle? st m = some i) {d : Descriptor}
    (hd : (s.analysis a).registry.descriptor i = d)
    (hpacked : ∀ x, s.program.structs.Reaches st x → (s.program.structs.get x).packed = false)
    (hsizes : ∀ x, s.program.structs.Reaches st x → ∀ e ∈ (s.program.structs.get x).elements,
      ∀ size, s.Tells d.layout (.allocSize e) size → 0 ≤ size) :
    ∃ align size : Int, s.Tells d.layout (.alignment (.struct st)) align ∧
      s.Tells d.layout (.allocSize (.struct st)) size ∧ align ∣ size ∧
      (¬ Sized ops a i → d.allocSize = size) ∧
      ∀ j x, d.entry j = .ok x → ∃ route,
        (s.program.structs.leaves t st)[j.toNat]? = some route ∧
        x = s.program.structs.entryOf t route ∧
        ∀ p, route.getLast? = some p → ∃ v : Int,
          s.Tells d.layout (.alignment p.type) v ∧ v ∣ x.offset ∧ v ∣ align := by
  subst hd
  have hr := h.sound.registries a
  have htarget : s.layouts.targetOf ((s.analysis a).registry.descriptor i).layout = t :=
    hflat.target hst
  obtain ⟨l, hl⟩ := hr.lays hst
  rw [Registry.targetAt, htarget] at hl
  have hw := Structs.wellFormed_of_layoutOn hl
  have hsize := Flatten.sizeOn_struct hl
  have halign : alignmentWith t s.program.structs (s.program.structs.layoutOn t) (.struct st) =
      .ok l.alignment := alignmentWith_of_embedded rfl hl
  refine ⟨l.alignment, l.size, ?_, ?_, dvd_size hl, fun hs => ?_, fun j x hj => ?_⟩
  · rw [h.tells_iff (.alignment (.struct st)) fun _ => hw.sizedStruct.founded, htarget]
    exact halign
  · rw [h.tells_iff (.allocSize (.struct st)) fun _ => hw.sizedStruct.founded, htarget]
    exact hsize
  · have hderived : ((s.analysis a).registry.descriptor i).allocSize =
        s.program.structs.bytesOn _ (.struct st) := (h.derived a).allocSize hst hs
    rw [hderived, Registry.targetAt, htarget, Structs.bytesOn_of_ok hsize]
  · have hnonneg : s.program.structs.NoNegativeBelow t st := by
      intro x hx e he
      refine Structs.bytesOn_nonneg fun v hv => hsizes x hx e he v ?_
      rw [h.tells_iff (.allocSize e) fun b => ((hw.reaches hx).sizedType he).founded, htarget]
      exact hv
    have htable := hr.fields_eq_below hflat hst hnonneg
    obtain ⟨-, hx⟩ := Descriptor.getElem?_of_entry hj
    rw [htable, Structs.leafTable, List.getElem?_map] at hx
    obtain ⟨route, hroute, rfl⟩ := Option.map_eq_some_iff.1 hx
    refine ⟨route, hroute, rfl, fun p hp => ?_⟩
    obtain ⟨v, hv, hoffset, hdvd⟩ := leaves_aligned ht hl hpacked (List.mem_of_getElem? hroute) hp
    refine ⟨v, ?_, hoffset, hdvd⟩
    rw [h.tells_iff (.alignment p.type) fun b => founded_of_alignmentWith hv, htarget]
    exact hv

theorem natural_default : ({} : Target).Natural where
  pointer := ⟨3, rfl⟩
  ints := by
    have hints : ∀ p ∈ ({} : Target).intAligns.entries, p.2 = 2 ^ p.2.toNat.log2 := by decide
    exact fun p hp => ⟨_, hints p hp⟩
  aggregate := ⟨0, rfl⟩

/-- The alignment of the node is that of the pointers, which lie in the pairs and in the union. -/
theorem entries_aligned_node :
    ∃ i d, (askedSession.analysis ⟨0⟩).registry.handle? ⟨2⟩ "m" = some i ∧
      (askedSession.analysis ⟨0⟩).registry.descriptor i = d ∧
      askedSession.Tells d.layout (.alignment (.struct ⟨2⟩)) 8 ∧
      askedSession.Tells d.layout (.allocSize (.struct ⟨2⟩)) 56 ∧ d.allocSize = 56 ∧
      ∀ j x, d.entry j = .ok x → ∃ route,
        (smallProgram.structs.leaves {} ⟨2⟩)[j.toNat]? = some route ∧
        ∀ p, route.getLast? = some p → ∃ v : Int,
          askedSession.Tells d.layout (.alignment p.type) v ∧ v ∣ x.offset ∧ v ∣ 8 := by
  obtain ⟨i, hi⟩ := handle?_askedSession
  have hrun := runs_askedSession
  have hw := wellFormed_smallProgram
  have hflat := (hrun.sound.registries ⟨0⟩).flattenedOn hrun.sound.targets hi
  have htarget : askedSession.layouts.targetOf
      ((askedSession.analysis ⟨0⟩).registry.descriptor i).layout = {} := hflat.target hi
  have htells : ∀ (q : LayoutQuestion) (x : q.Answer),
      (∀ b, q.struct? = some b → smallProgram.structs.Founded b) →
      askedSession.Tells ((askedSession.analysis ⟨0⟩).registry.descriptor i).layout q x →
      q.plain {} smallProgram.structs = .ok x := by
    intro q x hf hx
    rwa [hrun.tells_iff q (by rwa [program_askedSession]), htarget, program_askedSession] at hx
  have hplain : ∀ i < smallProgram.structs.size,
      (smallProgram.structs.get ⟨i⟩).packed = false ∧
      ∀ e ∈ (smallProgram.structs.get ⟨i⟩).elements,
        0 ≤ smallProgram.structs.bytesOn {} e := by decide
  have hbody : ∀ x, askedSession.program.structs.Reaches ⟨2⟩ x →
      smallProgram.structs.WellFormed x ∧ x.idx < smallProgram.structs.size := by
    intro x hx
    rw [program_askedSession] at hx
    exact ⟨hw.reaches hx, Structs.lt_size_of_body ((Structs.wellFormed_iff.1 hw).1 x hx)⟩
  obtain ⟨align, size, halign, hsize, -, hset, hentries⟩ := entries_aligned hrun natural_default
    hflat hi rfl
    (fun x hx => by
      rw [program_askedSession]
      exact (hplain x.idx (hbody x hx).2).1)
    (fun x hx e he size hsize => by
      rw [program_askedSession] at he
      obtain ⟨hwx, hlt⟩ := hbody x hx
      have hbytes := (hplain x.idx hlt).2 e he
      have hsize := htells (.allocSize e) size (fun _ => (hwx.sizedType he).founded) hsize
      rwa [Structs.bytesOn_of_ok hsize] at hbytes)
  have hfounded := fun b => hw.sizedStruct.founded (b := b)
  obtain rfl : align = 8 := by
    have hnode : alignmentWith {} smallProgram.structs (smallProgram.structs.layoutOn {})
      (.struct ⟨2⟩) = .ok 8 := by decide
    exact Except.ok.inj ((htells (.alignment (.struct ⟨2⟩)) align hfounded halign).symm.trans hnode)
  obtain rfl : size = 56 := by
    have hnode : smallProgram.structs.sizeOn {} (.struct ⟨2⟩) = .ok 56 := by decide
    exact Except.ok.inj ((htells (.allocSize (.struct ⟨2⟩)) size hfounded hsize).symm.trans hnode)
  have hunset : ¬ Sized [.event (.locate ⟨0⟩ ⟨2⟩ ⟨0⟩ none), .event (.addAnalysis none none),
      .event (.addLayout {}), .event (.edit smallProgram)] ⟨0⟩ i := by
    rintro ⟨size, hmem⟩
    simp at hmem
  refine ⟨i, _, hi, rfl, halign, hsize, hset hunset, fun j x hj => ?_⟩
  obtain ⟨route, hroute, -, hlast⟩ := hentries j x hj
  rw [program_askedSession] at hroute
  exact ⟨route, hroute, hlast⟩

end KernelObjects
