import KernelObjects.Proofs.Derived
import KernelObjects.Proofs.Navigation

/-!
# Entries in memory

The entries of a table describe bytes of an object: `realSize` bytes from `offset` on. On a target
with positive alignments, and for a struct in which no size can be negative and no array of structs
is empty, the entries lie one after the other within the object: none overlaps the next, and the
last one ends before the object does. An array of structs has entries for its first element only,
so it has to have one.

Results:
* `Spans`: entries that lie one after the other between two offsets.
* `spans_chunk`: the entries of a field lie within its bytes.
* `spans_enterFields`, `size_le_placeWith_union`: fields do not overlap, and a union is as large as
  each of its members.
* `expand_spans`: the entries of a struct lie within its bytes if those of the structs in it do.
* `Registry.Consistent.spans`: so the entries of every table do.
* `entries_within_object`: all of it, for a session after any run.
-/
namespace KernelObjects

/-! ## Entries one after the other -/

/-- The entries lie one after the other between two offsets. -/
def Spans : Int → List FieldEntry → Int → Prop
  | lo, [], hi => lo ≤ hi
  | lo, x :: xs, hi => lo ≤ x.offset ∧ 0 ≤ x.realSize ∧ Spans (x.offset + x.realSize) xs hi

namespace Spans

variable {lo lo' mid hi hi' : Int} {xs ys : List FieldEntry}

theorem le (h : Spans lo xs hi) : lo ≤ hi := by
  induction xs generalizing lo with
  | nil => exact h
  | cons x xs ih =>
    obtain ⟨hlo, hsize, hrest⟩ := h
    have hle := ih hrest
    omega

theorem widen (h : Spans lo xs hi) (hlo : lo' ≤ lo) (hhi : hi ≤ hi') : Spans lo' xs hi' := by
  induction xs generalizing lo lo' with
  | nil => exact Int.le_trans hlo (Int.le_trans h hhi)
  | cons x xs ih =>
    obtain ⟨hx, hsize, hrest⟩ := h
    exact ⟨Int.le_trans hlo hx, hsize, ih hrest (Int.le_refl _)⟩

theorem append (h : Spans lo xs mid) (h' : Spans mid ys hi) : Spans lo (xs ++ ys) hi := by
  induction xs generalizing lo with
  | nil => exact h'.widen h (Int.le_refl _)
  | cons x xs ih =>
    obtain ⟨hlo, hsize, hrest⟩ := h
    exact ⟨hlo, hsize, ih hrest⟩

/-- Entries that are moved by `base`, whatever else changes about them. -/
theorem moved {base : Int} (h : Spans lo xs hi)
    (hys : ys.map (fun y => (y.offset, y.realSize)) =
      xs.map fun x => (x.offset + base, x.realSize)) :
    Spans (lo + base) ys (hi + base) := by
  induction xs generalizing lo ys with
  | nil =>
    obtain rfl : ys = [] := by simpa using hys
    have hle : lo ≤ hi := h
    show lo + base ≤ hi + base
    omega
  | cons x xs ih =>
    obtain ⟨y, ys, rfl⟩ : ∃ y ys', ys = y :: ys' := by
      cases ys with
      | nil => cases hys
      | cons y ys => exact ⟨y, ys, rfl⟩
    obtain ⟨hlo, hsize, hrest⟩ := h
    simp only [List.map_cons, List.cons.injEq, Prod.mk.injEq] at hys
    obtain ⟨⟨hoffset, hreal⟩, hys⟩ := hys
    have hnext : x.offset + x.realSize + base = y.offset + y.realSize := by omega
    refine ⟨by omega, by omega, ?_⟩
    rw [← hnext]
    exact ih hrest hys

theorem realSize_nonneg {i : Nat} {x : FieldEntry} (h : Spans lo xs hi) (hx : xs[i]? = some x) :
    0 ≤ x.realSize := by
  induction xs generalizing lo i with
  | nil => cases hx
  | cons z xs ih =>
    obtain ⟨-, hsize, hrest⟩ := h
    cases i with
    | zero =>
      cases hx
      exact hsize
    | succ i => exact ih hrest hx

/-- No entry overlaps the next one. -/
theorem le_next {i : Nat} {x y : FieldEntry} (h : Spans lo xs hi) (hx : xs[i]? = some x)
    (hy : xs[i + 1]? = some y) : x.offset + x.realSize ≤ y.offset := by
  induction xs generalizing lo i with
  | nil => cases hx
  | cons z xs ih =>
    obtain ⟨-, -, hrest⟩ := h
    cases i with
    | zero =>
      cases hx
      cases xs with
      | nil => cases hy
      | cons z' xs =>
        cases hy
        exact hrest.1
    | succ i => exact ih hrest hx hy

/-- Every entry ends before the upper offset. -/
theorem end_le {i : Nat} {x : FieldEntry} (h : Spans lo xs hi) (hx : xs[i]? = some x) :
    x.offset + x.realSize ≤ hi := by
  induction xs generalizing lo i with
  | nil => cases hx
  | cons z xs ih =>
    obtain ⟨-, -, hrest⟩ := h
    cases i with
    | zero =>
      cases hx
      exact hrest.le
    | succ i => exact ih hrest hx

end Spans

theorem map_splicedFields (fields : Array FieldEntry) (base : Int) (isArray inUnion : Bool) :
    (splicedFields fields base isArray inUnion).toList.map (fun y => (y.offset, y.realSize)) =
      fields.toList.map fun x => (x.offset + base, x.realSize) := by
  cases h : fields.toList with
  | nil =>
    obtain rfl : fields = #[] := by simpa using h
    simp [splicedFields]
  | cons x xs => simp [toList_splicedFields h, FieldEntry.rebase, Function.comp_def]

/-! ## Sizes that cannot be negative -/

/-- No integer in the type has a negative width, no array has a negative count, and no array of
structs has a count of 0. -/
def Ty.isRegular : Ty → Bool
  | .int bits => 0 ≤ bits
  | .array e n => 0 ≤ n && (n ≠ 0 || e.embedded?.isNone) && e.isRegular
  | _ => true

/-- All fields of a struct, and of all structs that it holds, are of regular types. -/
def Structs.RegularBelow (S : Structs) (a : StructId) : Prop :=
  ∀ x, S.Reaches a x → ∀ e ∈ (S.get x).elements, e.isRegular = true

variable {S : Structs} {t : Target} {a b : StructId}

theorem Structs.RegularBelow.embeds (h : S.RegularBelow a) (hb : S.Embeds a b) :
    S.RegularBelow b :=
  fun x hx => h x (.head hb hx)

/-- The size of a regular type is not negative, and not below that of the struct in it. -/
theorem sizeOn_regular (ht : t.Aligned) (hp : 0 ≤ t.pointerSize) {e : Ty} {v : Int}
    (he : e.isRegular = true)
    (hb : ∀ b l, e.embedded? = some b → S.layoutOn t b = .ok l → 0 ≤ l.size)
    (hv : S.sizeOn t e = .ok v) :
    0 ≤ v ∧ ∀ b l, e.embedded? = some b → S.layoutOn t b = .ok l → l.size ≤ v := by
  unfold Structs.sizeOn at hv
  induction e using Ty.array_induction generalizing v with
  | array e n ih =>
    obtain ⟨w, hw, hv⟩ := bind_eq_ok.1 hv
    cases hv
    simp only [Ty.isRegular, Bool.and_eq_true, decide_eq_true_eq, Bool.or_eq_true] at he
    obtain ⟨⟨hn, hne⟩, he⟩ := he
    obtain ⟨hw0, hle⟩ := ih he hb hw
    refine ⟨Int.mul_nonneg hn hw0, fun b l hbe hl => ?_⟩
    have hbe' : e.embedded? = some b := hbe
    have hn1 : 1 ≤ n := by
      rw [hbe'] at hne
      have : n ≠ 0 := by simpa using hne
      omega
    calc l.size ≤ w := hle b l hbe' hl
      _ = 1 * w := (Int.one_mul w).symm
      _ ≤ n * w := Int.mul_le_mul_of_nonneg_right hn1 hw0
  | other e he' =>
    cases e with
    | array e n => cases he'
    | struct b =>
      obtain ⟨l, hl, hv⟩ := bind_eq_ok.1 hv
      cases hv
      refine ⟨hb b l rfl hl, fun b' l' hb' hl' => ?_⟩
      cases hb'
      rw [hl] at hl'
      cases hl'
      exact Int.le_refl _
    | int bits =>
      have hpos := ht.intAlign_pos bits
      simp only [allocSizeWith, orRaise_eq_ok, roundUp?_eq_ok hpos] at hv
      cases hv
      have hbits : 0 ≤ bits := by simpa [Ty.isRegular] using he
      refine ⟨Int.le_trans (Target.intBytes_nonneg hbits) (le_roundUp hpos), fun b l hbe => ?_⟩
      cases hbe
    | ptr _ _ =>
      simp only [allocSizeWith, orRaise_eq_ok, roundUp?_eq_ok ht.pointer] at hv
      cases hv
      refine ⟨Int.le_trans hp (le_roundUp ht.pointer), fun b l hbe => ?_⟩
      cases hbe
    | unknown => cases hv
    | void => cases hv
    | func _ _ _ => cases hv

/-! ## Fields -/

/-- The entries of the structs in a type lie within the bytes of those structs. -/
def SpansIn (S : Structs) (t : Target) (nested : StructId → Shape) (e : Ty) : Prop :=
  ∀ b l, e.embedded? = some b → S.layoutOn t b = .ok l → Spans 0 (nested b).fields.toList l.size

variable {nested : StructId → Shape}

theorem spans_chunk (ht : t.Aligned) (hp : 0 ≤ t.pointerSize) {e : Ty} {v : Int}
    (he : e.isRegular = true) (hn : SpansIn S t nested e) (hv : S.sizeOn t e = .ok v) (o : Int)
    (u : Bool) : Spans o (Shape.chunk S t nested e o u).toList (o + v) := by
  obtain ⟨hv0, hle⟩ := sizeOn_regular ht hp he (fun b l hb hl => (hn b l hb hl).le) hv
  unfold Shape.chunk
  cases hb : e.embedded? with
  | none =>
    simp only [Flatten.scalarEntry, Structs.bytesOn_of_ok hv]
    exact ⟨Int.le_refl _, hv0, Int.le_refl _⟩
  | some b =>
    obtain ⟨l, hl⟩ : ∃ l, S.layoutOn t b = .ok l := by
      rcases allocSizeWith_eq_ok hv with ⟨b', l, hb', hl⟩ | ⟨hnone, -⟩
      · rw [hb] at hb'
        cases hb'
        exact ⟨l, hl⟩
      · rw [hb] at hnone
        cases hnone
    have hmoved := (hn b l hb hl).moved
      (map_splicedFields (nested b).fields o e.isArray (u || (S.get b).isUnion))
    have hsize := hle b l hb hl
    exact hmoved.widen (by omega) (by omega)

/-- A field starts after what has been placed, and what has been placed then ends with it. -/
theorem Placement.add_field {p q : Placement} {align size : Int}
    (h : p.add false align size = .ok q) (ha : 1 ≤ align) :
    ∃ start, q.offsets = p.offsets.push start ∧ p.size ≤ start ∧ q.size = start + size := by
  simp only [Placement.add, Bool.false_eq_true, if_false, roundUp?_eq_ok ha] at h
  cases h
  exact ⟨roundUp p.size align, rfl, le_roundUp ha, rfl⟩

/-- The entries of the fields that are placed one after the other lie one after the other. -/
theorem spans_enterFields (ht : t.Aligned) (hp : 0 ≤ t.pointerSize) {packed : Bool} {es : List Ty}
    {q r : Placement} (hr : placeWith t S (S.layoutOn t) false packed es q = .ok r)
    (ho : ∀ i o, r.offsets[i]? = some o → S.offsetOn t a i = o)
    (he : ∀ e ∈ es, e.isRegular = true ∧ SpansIn S t nested e) (s : Shape)
    (hs : Spans 0 s.fields.toList q.size) :
    Spans 0 (s.enterFields S t nested a es q.offsets.size).fields.toList r.size := by
  induction es generalizing q s with
  | nil =>
    cases hr
    exact hs
  | cons e es ih =>
    obtain ⟨⟨hreg, hn⟩, hes⟩ := List.forall_mem_cons.1 he
    simp only [placeWith, bind_eq_ok, orRaise_eq_ok] at hr
    obtain ⟨align, ha, size, hsize, q', hq, hr⟩ := hr
    obtain ⟨start, hoffsets, hstart, hend⟩ := Placement.add_field hq (fieldAlignWith_pos ht ha)
    have hcount : q'.offsets.size = q.offsets.size + 1 := by rw [hoffsets, Array.size_push]
    have hoffset : S.offsetOn t a q.offsets.size = start := by
      apply ho
      rw [getElem?_offsets_placeWith hr (by omega), hoffsets, Array.getElem?_push, if_pos rfl]
    rw [Shape.enterFields, ← hcount, hoffset]
    refine ih hr hes _ ?_
    rw [hend]
    have hchunk := spans_chunk ht hp hreg hn hsize start false
    simpa [Shape.enter, Shape.addOffset] using (hs.widen (Int.le_refl 0) hstart).append hchunk

/-! ## Unions -/

theorem size_le_placeWith_union {ask : StructId → Except Fault StructLayout} {packed : Bool}
    {es : List Ty} {q r : Placement} (hr : placeWith t S ask true packed es q = .ok r) :
    q.size ≤ r.size ∧ ∀ e ∈ es, ∀ v, allocSizeWith t S ask e = .ok v → v ≤ r.size := by
  induction es generalizing q with
  | nil =>
    cases hr
    exact ⟨Int.le_refl _, fun e he => (nomatch he)⟩
  | cons e es ih =>
    simp only [placeWith, bind_eq_ok, orRaise_eq_ok] at hr
    obtain ⟨align, -, size, hsize, q', hq, hr⟩ := hr
    obtain ⟨hle, hrest⟩ := ih hr
    have hq' : q'.size = max q.size size := by
      simp only [Placement.add, if_true] at hq
      cases hq
      rfl
    have hmax := Int.le_max_left q.size size
    have hmax' := Int.le_max_right q.size size
    refine ⟨by omega, List.forall_mem_cons.2 ⟨fun v hv => ?_, hrest⟩⟩
    rw [hsize] at hv
    cases hv
    omega

/-! ## Structs -/

theorem spans_settled {s : Shape} {hi : Int} (h : Spans 0 s.fields.toList hi) :
    Spans 0 s.settled.fields.toList hi := by
  by_cases hs : s.fields = #[]
  · rw [Structs.settled_fields_of_empty hs]
    exact ⟨Int.le_refl _, Int.le_refl _, h.le⟩
  · rw [Structs.settled_fields hs]
    exact h

theorem expand_spans (ht : t.Aligned) (hp : 0 ≤ t.pointerSize) {l : StructLayout}
    (hl : S.layoutOn t a = .ok l)
    (he : ∀ e ∈ (S.get a).elements, e.isRegular = true ∧ SpansIn S t nested e) :
    Spans 0 (S.expand t nested a).fields.toList l.size := by
  obtain ⟨r, hr, rfl⟩ := Structs.layoutOn_eq_ok hl
  have hround : r.size ≤ (r.finish (S.get a).packed t.aggregateAlign).size :=
    le_roundUp (alignment_pos hl)
  unfold Structs.expand
  dsimp only
  cases hu : (S.get a).isUnion with
  | false =>
    rw [hu] at hr
    simp only [Bool.false_eq_true, if_false]
    refine spans_settled (Spans.widen ?_ (Int.le_refl 0) hround)
    refine spans_enterFields (q := {}) ht hp hr (fun i o hi => ?_) he _ (Int.le_refl 0)
    simp [Structs.offsetOn, hl, Except.toOption, Placement.finish, hi]
  | true =>
    rw [hu] at hr
    obtain ⟨hpos, hsizes⟩ := size_le_placeWith_union hr
    have hpos : (0 : Int) ≤ r.size := hpos
    simp only [if_true]
    cases hw : widestFrom S t (S.get a).elements 0 none with
    | none =>
      refine spans_settled (Spans.widen ?_ (Int.le_refl 0) hround)
      rw [Structs.enterMembers_fields]
      exact hpos
    | some w =>
      -- the member that stands for the union starts where the union does
      obtain ⟨j, hj, -⟩ := (getElem?_of_widestFrom hw).resolve_left (by simp)
      have hmem := List.mem_of_getElem? hj
      obtain ⟨v, hv⟩ := Structs.sizeOn_of_layoutOn hl hmem
      have hchunk := spans_chunk ht hp (he _ hmem).1 (he _ hmem).2 hv 0 true
      have hle : v ≤ r.size := hsizes _ hmem v hv
      refine spans_settled (Spans.widen ?_ (Int.le_refl 0) hround)
      simpa [Shape.enter, Structs.enterMembers_fields, Shape.addType] using
        hchunk.widen (Int.le_refl 0) (by omega : 0 + v ≤ r.size)

/-! ## Registries -/

/-- The tables under a name whose descriptors are on one target: they start at 0, and their entries
lie one after the other within the bytes of their structs. -/
theorem Registry.Consistent.spans {L : Layouts} {r : Registry} {m : String} {h : Nat}
    (hr : r.Consistent S L) (hone : ∀ {b h}, r.handle? b m = some h → r.targetAt L h = t)
    (ht : t.Aligned) (hp : 0 ≤ t.pointerSize) (hb : r.handle? b m = some h)
    (hreg : S.RegularBelow b) :
    (r.descriptor h).shape.StartsAtZero ∧
      ∀ l, S.layoutOn t b = .ok l → Spans 0 (r.descriptor h).shape.fields.toList l.size := by
  refine hr.shape_induction (P := fun b s => S.RegularBelow b → s.StartsAtZero ∧
    ∀ l, S.layoutOn t b = .ok l → Spans 0 s.fields.toList l.size) hone ?_ hb hreg
  intro b nested l hl hn hreg
  have hinner : ∀ c, S.Embeds b c → (nested c).StartsAtZero ∧
      ∀ l, S.layoutOn t c = .ok l → Spans 0 (nested c).fields.toList l.size :=
    fun c hc => hn c hc (hreg.embeds hc)
  have hfields : ∀ e ∈ (S.get b).elements, e.isRegular = true ∧ SpansIn S t nested e :=
    fun e he => ⟨hreg b .refl e he, fun c l hc hl => (hinner c ⟨e, he, hc⟩).2 l hl⟩
  have hsizes : ∀ e ∈ (S.get b).elements, 0 ≤ S.bytesOn t e := by
    intro e he
    obtain ⟨v, hv⟩ := Structs.sizeOn_of_layoutOn hl he
    obtain ⟨hregular, hspans⟩ := hfields e he
    rw [Structs.bytesOn_of_ok hv]
    exact (sizeOn_regular ht hp hregular (fun c l hc hl => (hspans c l hc hl).le) hv).1
  refine ⟨expand_startsAtZero ht hl hsizes fun c hc => (hinner c hc).1, fun l hl => ?_⟩
  exact expand_spans ht hp hl hfields

/-! ## Sessions -/

/-- What the entry at an index says about the table. -/
theorem Descriptor.getElem?_of_entry {d : Descriptor} {j : Int} {x : FieldEntry}
    (h : d.entry j = .ok x) : 0 ≤ j ∧ d.shape.fields.toList[j.toNat]? = some x := by
  unfold Descriptor.entry at h
  by_cases hj : 0 ≤ j
  · rw [if_pos hj] at h
    split at h
    · next y hy =>
      cases h
      exact ⟨hj, by rw [Array.getElem?_toList]; exact hy⟩
    · cases h
  · rw [if_neg hj] at h
    cases h

/-- After any run on one target for each name, the entries of a descriptor describe disjoint bytes
of the object, in order: the first one starts at 0, each ends before the next one starts, and all
end within the size of the struct, which is the size of the descriptor unless another one was
set. -/
theorem entries_within_object (σ : AnalysisId → String → Target) {ops : List Operation}
    {s : Session} (h : Runs (fun a m t => t = σ a m) ops s) (a : AnalysisId) {st : StructId}
    {m : String} {i : Nat}
    (hst : (s.analysis a).registry.handle? st m = some i) (ht : (σ a m).Aligned)
    (hp : 0 ≤ (σ a m).pointerSize) (hreg : s.program.structs.RegularBelow st) :
    let d := (s.analysis a).registry.descriptor i
    ∃ size, s.program.structs.sizeOn (σ a m) (.struct st) = .ok size ∧
      (¬ Sized ops a i → d.allocSize = size) ∧
      (d.entry 0).map FieldEntry.offset = .ok 0 ∧
      (∀ j x y, d.entry j = .ok x → d.entry (j + 1) = .ok y → x.offset + x.realSize ≤ y.offset) ∧
      ∀ j x, d.entry j = .ok x → 0 ≤ x.realSize ∧ x.offset + x.realSize ≤ size := by
  intro d
  have hr := h.sound.registries a
  have htarget : (s.analysis a).registry.targetAt s.layouts i = σ a m := h.sound.targets hst
  obtain ⟨l, hl⟩ := hr.lays hst
  rw [htarget] at hl
  obtain ⟨⟨x, hx, hzero⟩, hspans⟩ := hr.spans h.sound.targets ht hp hst hreg
  have hspans : Spans 0 d.shape.fields.toList l.size := hspans l hl
  have hsize := Flatten.sizeOn_struct hl
  refine ⟨l.size, hsize, fun hs => ?_, ?_, fun j x y hj hj' => ?_, fun j x hj => ?_⟩
  · have hderived : d.allocSize = s.program.structs.bytesOn _ (.struct st) :=
      (h.derived a).allocSize hst hs
    rw [hderived, htarget, Structs.bytesOn_of_ok hsize]
  · have hentry : d.entry 0 = .ok x := by
      simp only [Descriptor.entry, Int.le_refl, if_true, Int.toNat_zero]
      rw [hx]
    rw [hentry, ← hzero]
    rfl
  · obtain ⟨hpos, hx⟩ := Descriptor.getElem?_of_entry hj
    obtain ⟨-, hy⟩ := Descriptor.getElem?_of_entry hj'
    have hnext : (j + 1).toNat = j.toNat + 1 := by omega
    rw [hnext] at hy
    exact hspans.le_next hx hy
  · obtain ⟨-, hx⟩ := Descriptor.getElem?_of_entry hj
    exact ⟨hspans.realSize_nonneg hx, hspans.end_le hx⟩

theorem runs_askedSession :
    Runs (fun _ _ t => t = {})
      [.event (.locate ⟨0⟩ ⟨2⟩ ⟨0⟩ none), .event (.addAnalysis none none), .event (.addLayout {}),
        .event (.edit smallProgram)] askedSession :=
  .step (.step (.step (.edit _ smallProgram) (.event (.addLayout {})) trivial)
    (.event (.addAnalysis none none)) ⟨nofun, nofun⟩)
    (.event (.locate ⟨0⟩ ⟨2⟩ ⟨0⟩ none)) ⟨by decide, by decide⟩

/-- The last member of the union in the node ends where the node does. -/
theorem entries_within_object_small :
    ∃ i, (askedSession.analysis ⟨0⟩).registry.handle? ⟨2⟩ "m" = some i ∧
      ((askedSession.analysis ⟨0⟩).registry.descriptor i).allocSize = 56 ∧
      ∀ j x, ((askedSession.analysis ⟨0⟩).registry.descriptor i).entry j = .ok x →
        x.offset + x.realSize ≤ 56 := by
  obtain ⟨i, hi⟩ := handle?_askedSession
  have hregular : ∀ i < smallProgram.structs.size,
      ∀ e ∈ (smallProgram.structs.get ⟨i⟩).elements, e.isRegular = true := by decide
  have hbelow : askedSession.program.structs.RegularBelow ⟨2⟩ := by
    rw [program_askedSession]
    intro x _ e he
    exact hregular x.idx (Structs.lt_size_of_body (Structs.has_body_of_mem he)) e he
  obtain ⟨size, hsize, hset, -, -, hend⟩ := entries_within_object (fun _ _ => {}) runs_askedSession
    ⟨0⟩ hi (by decide) (by decide) hbelow
  have hunset : ¬ Sized [.event (.locate ⟨0⟩ ⟨2⟩ ⟨0⟩ none), .event (.addAnalysis none none),
      .event (.addLayout {}), .event (.edit smallProgram)] ⟨0⟩ i := by
    rintro ⟨size, hmem⟩
    simp at hmem
  rw [program_askedSession] at hsize
  obtain rfl : size = 56 := by
    have hnode : smallProgram.structs.sizeOn {} (.struct ⟨2⟩) = .ok 56 := by decide
    rw [hnode] at hsize
    cases hsize
    rfl
  exact ⟨i, hi, hset hunset, fun j x hj => (hend j x hj).2⟩

end KernelObjects
