import Mathlib.Data.List.Forall2
import Mathlib.Order.Bounds.Basic
import KernelObjects.Proofs.ReadTargets

/-!
# Where fields lie

The rule for the layout of a struct, in terms of the alignments and the sizes of its fields: the
first field starts at 0, each other one at the least multiple of its alignment that is not below the
end of the field before, and the members of a union all start at 0. The struct is aligned like the
most demanding of its fields, and as large as the least multiple of its alignment that holds them.

A layout is computed field by field, from a placement that grows. What holds of it is said once for
the fields that are still to come, and by induction for all.

Results:
* `isLeast_roundUp`: rounding up leaves out no multiple and takes none too many.
* `placeWith_eq_addAll`: fields are placed by their measures alone.
* `addAll_follow`, `addAll_align`, `addAll_union_size`: where fields lie one after the other, and
  what comes of their alignments and of the sizes of members.
* `layoutOn_obeys`: a layout obeys the rule.
* `dvd_allocSizeWith`: objects one after the other are aligned if the first one is.
* `layouts_obey`: both, of all answers that a session gives.
-/
namespace KernelObjects

variable {t : Target} {S : Structs} {a b : StructId}

/-! ## Rounding up -/

theorem dvd_roundUp (value align : Int) : align ∣ roundUp value align :=
  Int.dvd_mul_left ..

theorem dvd_roundUp? {value align x : Int} (h : roundUp? value align = .ok x) : align ∣ x := by
  unfold roundUp? at h
  split at h
  · cases h
  · cases h
    exact dvd_roundUp value align

theorem isLeast_roundUp {value align : Int} (h : 1 ≤ align) :
    IsLeast {x | align ∣ x ∧ value ≤ x} (roundUp value align) := by
  refine ⟨⟨dvd_roundUp value align, le_roundUp h⟩, ?_⟩
  rintro _ ⟨⟨k, rfl⟩, hle⟩
  have hlt : (value + align - 1) / align < k + 1 := by
    rw [Int.ediv_lt_iff_lt_mul (by omega), Int.add_mul, Int.one_mul, Int.mul_comm k]
    omega
  rw [roundUp, Int.fdiv_eq_ediv_of_nonneg _ (by omega), Int.mul_comm align]
  exact Int.mul_le_mul_of_nonneg_right (Int.le_of_lt_add_one hlt) (by omega)

/-! ## Fields by their measures -/

/-- The alignment that a field is placed with, and its size. -/
structure Measure where
  align : Int
  size : Int
  deriving DecidableEq, Repr

/-- Places fields with these measures in order. -/
def Placement.addAll (isUnion : Bool) : Placement → List Measure → Except Fault Placement
  | p, [] => .ok p
  | p, m :: ms => do
    let p ← p.add isUnion m.align m.size
    p.addAll isUnion ms

section

variable {ask : StructId → Except Fault StructLayout} {u packed : Bool} {es : List Ty}
  {p r : Placement} {ms : List Measure}

variable (t S ask packed) in
/-- The measures of a field. -/
def HasMeasure (e : Ty) (m : Measure) : Prop :=
  fieldAlignWith t S ask packed e = .ok m.align ∧ allocSizeWith t S ask e = .ok m.size

theorem placeWith_eq_addAll (hr : placeWith t S ask u packed es p = .ok r) :
    ∃ ms, List.Forall₂ (HasMeasure t S ask packed) es ms ∧ p.addAll u ms = .ok r := by
  induction es generalizing p with
  | nil => exact ⟨[], .nil, hr⟩
  | cons e es ih =>
    simp only [placeWith, bind_eq_ok, orRaise_eq_ok] at hr
    obtain ⟨align, halign, size, hsize, q, hq, hr⟩ := hr
    obtain ⟨ms, hms, hr⟩ := ih hr
    exact ⟨⟨align, size⟩ :: ms, .cons ⟨halign, hsize⟩ hms, bind_eq_ok.2 ⟨q, hq, hr⟩⟩

/-! ## One after the other -/

/-- Fields with these measures start at these offsets, each at the least multiple of its alignment
that is not below the end of the one before; the first one comes after `lo`, and the last one ends
at `hi`. -/
inductive Follow : Int → List Measure → List Int → Int → Prop where
  | nil (lo : Int) : Follow lo [] [] lo
  | cons {lo hi o : Int} {m : Measure} {ms : List Measure} {os : List Int}
      (start : IsLeast {x | m.align ∣ x ∧ lo ≤ x} o) (rest : Follow (o + m.size) ms os hi) :
      Follow lo (m :: ms) (o :: os) hi

theorem addAll_follow (hms : ∀ m ∈ ms, 1 ≤ m.align) (hr : p.addAll false ms = .ok r) :
    ∃ os, r.offsets.toList = p.offsets.toList ++ os ∧ Follow p.size ms os r.size := by
  induction ms generalizing p with
  | nil =>
    cases hr
    exact ⟨[], by simp, .nil _⟩
  | cons m ms ih =>
    obtain ⟨hm, hms⟩ := List.forall_mem_cons.1 hms
    obtain ⟨q, hq, hr⟩ := bind_eq_ok.1 hr
    simp only [Placement.add, Bool.false_eq_true, if_false, roundUp?_eq_ok hm] at hq
    cases hq
    obtain ⟨os, hoffsets, hfollow⟩ := ih hms hr
    refine ⟨roundUp p.size m.align :: os, ?_, .cons (isLeast_roundUp hm) hfollow⟩
    simpa using hoffsets

namespace Follow

variable {lo hi : Int} {os : List Int}

theorem length_eq (h : Follow lo ms os hi) : os.length = ms.length := by
  induction h with
  | nil lo => rfl
  | cons _ _ ih => simp [ih]

theorem head {m : Measure} {o : Int} (h : Follow lo ms os hi) (hm : ms[0]? = some m)
    (ho : os[0]? = some o) : IsLeast {x | m.align ∣ x ∧ lo ≤ x} o := by
  cases h with
  | nil => cases hm
  | cons start _ =>
    cases hm
    cases ho
    exact start

theorem next {m m' : Measure} {o o' : Int} {j : Nat} (h : Follow lo ms os hi)
    (hm : ms[j]? = some m) (hm' : ms[j + 1]? = some m') (ho : os[j]? = some o)
    (ho' : os[j + 1]? = some o') : IsLeast {x | m'.align ∣ x ∧ o + m.size ≤ x} o' := by
  induction h generalizing j with
  | nil => cases hm
  | cons _ rest ih =>
    cases j with
    | zero =>
      cases hm
      cases ho
      exact rest.head hm' ho'
    | succ j => exact ih hm hm' ho ho'

theorem last {m : Measure} {o : Int} (h : Follow lo ms os hi) (hm : ms.getLast? = some m)
    (ho : os.getLast? = some o) : hi = o + m.size := by
  induction h with
  | nil => cases hm
  | cons _ rest ih =>
    cases rest with
    | nil =>
      cases hm
      cases ho
      rfl
    | cons _ _ => exact ih (by simpa using hm) (by simpa using ho)

/-- Each field starts at a multiple of its alignment. -/
theorem dvd {m : Measure} {o : Int} {j : Nat} (h : Follow lo ms os hi) (hm : ms[j]? = some m)
    (ho : os[j]? = some o) : m.align ∣ o := by
  induction h generalizing j with
  | nil => cases hm
  | cons start _ ih =>
    cases j with
    | zero =>
      cases hm
      cases ho
      exact start.1.1
    | succ j => exact ih hm ho

end Follow

/-! ## The most demanding field and the largest member -/

theorem isGreatest_foldl_max (xs : List Int) (x : Int) :
    IsGreatest {y | y = x ∨ y ∈ xs} (xs.foldl max x) := by
  induction xs generalizing x with
  | nil => simp
  | cons z xs ih =>
    obtain ⟨hmem, hupper⟩ := ih (max x z)
    have hmax : max x z ≤ xs.foldl max (max x z) := hupper (.inl rfl)
    constructor
    · rcases hmem with he | hmem
      · rcases max_choice x z with hx | hz
        · exact .inl (he.trans hx)
        · exact .inr (List.mem_cons.2 (.inl (he.trans hz)))
      · exact .inr (List.mem_cons_of_mem _ hmem)
    · rintro y (rfl | hy)
      · exact Int.le_trans (Int.le_max_left ..) hmax
      · rcases List.mem_cons.1 hy with rfl | hy
        · exact Int.le_trans (Int.le_max_right ..) hmax
        · exact hupper (.inr hy)

theorem addAll_align (hr : p.addAll u ms = .ok r) :
    r.align = (ms.map (·.align)).foldl max p.align := by
  induction ms generalizing p with
  | nil => cases hr; rfl
  | cons m ms ih =>
    obtain ⟨q, hq, hr⟩ := bind_eq_ok.1 hr
    have hmax : q.align = max p.align m.align := by
      unfold Placement.add at hq
      split at hq
      · cases hq; rfl
      · split at hq
        · cases hq; rfl
        · cases hq
    rw [ih hr, hmax]
    rfl

theorem addAll_union_offsets (hr : p.addAll true ms = .ok r) :
    r.offsets.toList = p.offsets.toList ++ List.replicate ms.length 0 := by
  induction ms generalizing p with
  | nil =>
    cases hr
    simp
  | cons m ms ih =>
    obtain ⟨q, hq, hr⟩ := bind_eq_ok.1 hr
    cases hq
    rw [ih hr]
    simp [List.replicate_succ]

theorem addAll_union_size (hr : p.addAll true ms = .ok r) :
    r.size = (ms.map (·.size)).foldl max p.size := by
  induction ms generalizing p with
  | nil => cases hr; rfl
  | cons m ms ih =>
    obtain ⟨q, hq, hr⟩ := bind_eq_ok.1 hr
    cases hq
    exact ih hr

end

/-! ## The rule -/

/-- The rule for the layout of a struct whose fields have these measures. -/
structure StructLayout.Obeys (l : StructLayout) (isUnion packed : Bool) (aggregateAlign : Int)
    (ms : List Measure) : Prop where
  count : l.offsets.size = ms.length
  union : isUnion = true → ∀ x ∈ l.offsets, x = 0
  first : isUnion = false → ∀ x, l.offsets[0]? = some x → x = 0
  next : isUnion = false → ∀ j x y m m', l.offsets[j]? = some x → l.offsets[j + 1]? = some y →
    ms[j]? = some m → ms[j + 1]? = some m' → IsLeast {z | m'.align ∣ z ∧ x + m.size ≤ z} y
  alignment : IsGreatest
    {z | z = 1 ∨ (∃ m ∈ ms, m.align = z) ∨ packed = false ∧ z = aggregateAlign} l.alignment
  empty : ms = [] → l.size = 0
  size : isUnion = false → ∀ x m, l.offsets.back? = some x → ms.getLast? = some m →
    IsLeast {z | l.alignment ∣ z ∧ x + m.size ≤ z} l.size
  unionSize : isUnion = true → ms ≠ [] → IsLeast {z | l.alignment ∣ z ∧ ∀ m ∈ ms, m.size ≤ z} l.size

theorem isGreatest_alignment {u : Bool} {ms : List Measure} {r : Placement}
    (hr : Placement.addAll u {} ms = .ok r) (packed : Bool) (aggregateAlign : Int) :
    IsGreatest {z | z = 1 ∨ (∃ m ∈ ms, m.align = z) ∨ packed = false ∧ z = aggregateAlign}
      (r.finish packed aggregateAlign).alignment := by
  have hfields : IsGreatest {z | z = 1 ∨ ∃ m ∈ ms, m.align = z} r.align := by
    rw [addAll_align hr]
    simpa using isGreatest_foldl_max (ms.map (·.align)) 1
  cases packed with
  | true => simpa [Placement.finish] using hfields
  | false =>
    have hall := hfields.union (isGreatest_singleton (a := aggregateAlign))
    have hset : {z | z = 1 ∨ (∃ m ∈ ms, m.align = z) ∨ false = false ∧ z = aggregateAlign} =
        {z | z = 1 ∨ ∃ m ∈ ms, m.align = z} ∪ {aggregateAlign} := by
      ext z
      simp only [Set.mem_ofPred_eq, Set.mem_union, Set.mem_singleton_iff, true_and, or_assoc]
    rw [hset]
    exact hall

/-- Fields one after the other obey the rule. -/
theorem obeys_addAll_struct {ms : List Measure} {r : Placement}
    (hms : ∀ m ∈ ms, 1 ≤ m.align) (hr : Placement.addAll false {} ms = .ok r) (packed : Bool)
    (aggregateAlign : Int) :
    (r.finish packed aggregateAlign).Obeys false packed aggregateAlign ms := by
  obtain ⟨os, hos, hfollow⟩ := addAll_follow hms hr
  have hoffsets : r.offsets.toList = os := hos
  have halign := isGreatest_alignment hr packed aggregateAlign
  have hpos : 1 ≤ (r.finish packed aggregateAlign).alignment := halign.2 (.inl rfl)
  have hget : ∀ {j : Nat} {x : Int}, r.offsets[j]? = some x → os[j]? = some x := by
    intro j x hx
    rw [← hoffsets, Array.getElem?_toList, hx]
  refine ⟨?_, nofun, fun _ x hx => ?_, fun _ j x y m m' hx hy hm hm' => ?_, halign, fun he => ?_,
    fun _ x m hx hm => ?_, nofun⟩
  · rw [← hfollow.length_eq, ← hoffsets]
    rfl
  · have hlt : 0 < ms.length := by
      rw [← hfollow.length_eq]
      exact (List.getElem?_eq_some_iff.1 (hget hx)).1
    have hhead := hfollow.head (List.getElem?_eq_getElem hlt) (hget hx)
    exact Int.le_antisymm (hhead.2 ⟨Int.dvd_zero _, Int.le_refl 0⟩) hhead.1.2
  · exact hfollow.next hm hm' (hget hx) (hget hy)
  · subst he
    cases hr
    exact roundUp_zero hpos
  · have hlast : r.size = x + m.size := hfollow.last hm (by
      rw [← hoffsets, Array.getLast?_toList]
      exact hx)
    rw [← hlast]
    exact isLeast_roundUp hpos

/-- So do members of a union, if none has a negative size. -/
theorem obeys_addAll_union {ms : List Measure} {r : Placement} (hsizes : ∀ m ∈ ms, 0 ≤ m.size)
    (hr : Placement.addAll true {} ms = .ok r) (packed : Bool) (aggregateAlign : Int) :
    (r.finish packed aggregateAlign).Obeys true packed aggregateAlign ms := by
  have hoffsets : r.offsets.toList = List.replicate ms.length 0 := addAll_union_offsets hr
  have halign := isGreatest_alignment hr packed aggregateAlign
  have hpos : 1 ≤ (r.finish packed aggregateAlign).alignment := halign.2 (.inl rfl)
  have hgreatest : IsGreatest {y | y = 0 ∨ y ∈ ms.map (·.size)} r.size := by
    rw [addAll_union_size hr]
    exact isGreatest_foldl_max _ _
  refine ⟨?_, fun _ x hx => ?_, nofun, nofun, halign, fun he => ?_, nofun, fun _ hne => ?_⟩
  · rw [← List.length_replicate (n := ms.length) (a := (0 : Int)), ← hoffsets]
    rfl
  · refine List.eq_of_mem_replicate (n := ms.length) ?_
    rw [← hoffsets]
    exact Array.mem_toList_iff.2 hx
  · subst he
    cases hr
    exact roundUp_zero hpos
  · -- the union holds its largest member if and only if it holds all of them
    have hiff : ∀ z, r.size ≤ z ↔ ∀ m ∈ ms, m.size ≤ z := by
      intro z
      constructor
      · intro hz m hm
        exact Int.le_trans (hgreatest.2 (.inr (List.mem_map_of_mem hm))) hz
      · intro hall
        rcases hgreatest.1 with hzero | hmem
        · obtain ⟨m, hm⟩ := List.exists_mem_of_ne_nil ms hne
          exact hzero ▸ Int.le_trans (hsizes m hm) (hall m hm)
        · obtain ⟨m, hm, he⟩ := List.mem_map.1 hmem
          exact he ▸ hall m hm
    simp only [← hiff]
    exact isLeast_roundUp hpos

theorem exists_of_forall₂_mem {α β : Type} {R : α → β → Prop} {xs : List α} {ys : List β}
    (h : List.Forall₂ R xs ys) {y : β} (hy : y ∈ ys) : ∃ x ∈ xs, R x y := by
  induction h with
  | nil => cases hy
  | @cons x y' xs ys hxy _ ih =>
    rcases List.mem_cons.1 hy with rfl | hy
    · exact ⟨x, List.mem_cons_self .., hxy⟩
    · obtain ⟨x', hx', hr⟩ := ih hy
      exact ⟨x', List.mem_cons_of_mem _ hx', hr⟩

/-- The layout of a struct obeys the rule, if no field has a negative size. -/
theorem layoutOn_obeys (ht : t.Aligned) {l : StructLayout} (hl : S.layoutOn t a = .ok l)
    (hsizes : ∀ e ∈ (S.get a).elements, ∀ v, S.sizeOn t e = .ok v → 0 ≤ v) :
    ∃ ms, List.Forall₂ (HasMeasure t S (S.layoutOn t) (S.get a).packed) (S.get a).elements ms ∧
      l.Obeys (S.get a).isUnion (S.get a).packed t.aggregateAlign ms := by
  obtain ⟨r, hr, rfl⟩ := Structs.layoutOn_eq_ok hl
  obtain ⟨ms, hms, hr⟩ := placeWith_eq_addAll hr
  refine ⟨ms, hms, ?_⟩
  cases hu : (S.get a).isUnion with
  | false =>
    rw [hu] at hr
    refine obeys_addAll_struct (fun m hm => ?_) hr _ _
    obtain ⟨e, -, halign, -⟩ := exists_of_forall₂_mem hms hm
    exact fieldAlignWith_pos ht halign
  | true =>
    rw [hu] at hr
    refine obeys_addAll_union (fun m hm => ?_) hr _ _
    obtain ⟨e, he, -, hsize⟩ := exists_of_forall₂_mem hms hm
    exact hsizes e he _ hsize

/-! ## Objects one after the other -/

theorem dvd_size {l : StructLayout} (hl : S.layoutOn t a = .ok l) : l.alignment ∣ l.size := by
  obtain ⟨r, -, rfl⟩ := Structs.layoutOn_eq_ok hl
  exact dvd_roundUp ..

/-- The distance between objects of a type is a multiple of its alignment. -/
theorem dvd_allocSizeWith {ask : StructId → Except Fault StructLayout} {e : Ty} {align size : Int}
    (hb : ∀ b l, ask b = .ok l → l.alignment ∣ l.size)
    (ha : alignmentWith t S ask e = .ok align) (hs : allocSizeWith t S ask e = .ok size) :
    align ∣ size := by
  induction e using Ty.array_induction generalizing size with
  | array e n ih =>
    obtain ⟨v, hv, hs⟩ := bind_eq_ok.1 hs
    cases hs
    exact Int.dvd_trans (ih ha hv) (Int.dvd_mul_left ..)
  | other e he =>
    cases e with
    | array e n => cases he
    | struct s =>
      obtain ⟨l, hl, ha⟩ := bind_eq_ok.1 ha
      obtain ⟨l', hl', hs⟩ := bind_eq_ok.1 hs
      cases ha
      cases hs
      cases hl.symm.trans hl'
      exact hb s l hl
    | int bits =>
      cases ha
      exact dvd_roundUp? (orRaise_eq_ok.1 hs)
    | ptr _ _ =>
      cases ha
      exact dvd_roundUp? (orRaise_eq_ok.1 hs)
    | unknown => cases ha
    | void => cases ha
    | func _ _ _ => cases ha

/-! ## Sessions -/

/-- A type whose objects have a size: integers, pointers and well-formed structs, and arrays of
these. -/
def Structs.SizedType (S : Structs) (type : Ty) : Prop :=
  (type.embedded? = none → type.stripArrays.isScalar = true) ∧
    ∀ b, type.embedded? = some b → S.WellFormed b

theorem Structs.WellFormed.sizedType (hw : S.WellFormed a) {e : Ty} (he : e ∈ (S.get a).elements) :
    S.SizedType e :=
  ⟨hw.scalar he, fun _ hb => hw.embeds ⟨e, he, hb⟩⟩

theorem Structs.WellFormed.sizedStruct (hw : S.WellFormed a) : S.SizedType (.struct a) :=
  ⟨nofun, fun _ hb => Option.some.inj hb ▸ hw⟩

theorem Structs.SizedType.founded {type : Ty} (h : S.SizedType type) {b : StructId}
    (hb : type.embedded? = some b) : S.Founded b :=
  (h.2 b hb).founded

/-- What a type of a size is asked for, and how the answers go together. -/
theorem Structs.SizedType.plain (ht : t.Aligned) {type : Ty} (h : S.SizedType type) :
    ∃ align store size : Int, LayoutQuestion.plain t S (.alignment type) = .ok align ∧
      LayoutQuestion.plain t S (.storeSize type) = .ok store ∧
      LayoutQuestion.plain t S (.allocSize type) = .ok size ∧ align ∣ size ∧ store ≤ size := by
  have hinner : ∀ b, type.embedded? = some b → ∃ l, S.layoutOn t b = .ok l ∧ 1 ≤ l.alignment := by
    intro b hb
    obtain ⟨l, hl⟩ := exists_layoutOn ht (h.2 b hb)
    exact ⟨l, hl, alignment_pos hl⟩
  obtain ⟨⟨size, hsize⟩, align, halign, -⟩ := exists_alloc_and_align (S := S) ht h.1 hinner
  have hdvd := dvd_allocSizeWith (fun _ _ => dvd_size) halign hsize
  cases type with
  | int bits =>
    have hpos := ht.intAlign_pos bits
    rw [allocSizeWith, roundUp?_eq_ok hpos] at hsize
    cases hsize
    exact ⟨align, _, _, halign, rfl, orRaise_eq_ok.2 (roundUp?_eq_ok hpos), hdvd, le_roundUp hpos⟩
  | ptr pointee space =>
    rw [allocSizeWith, roundUp?_eq_ok ht.pointer] at hsize
    cases hsize
    exact ⟨align, _, _, halign, rfl, orRaise_eq_ok.2 (roundUp?_eq_ok ht.pointer), hdvd,
      le_roundUp ht.pointer⟩
  | _ => exact ⟨align, size, size, halign, hsize, hsize, hdvd, Int.le_refl _⟩

/-- A layout of the session answers a question with `x`. -/
def Session.Tells (s : Session) (id : LayoutId) (q : LayoutQuestion) (x : q.Answer) : Prop :=
  ∃ s', Work.askLayout id (fun t S => q.ask t S) s = .ok x s'

theorem Runs.tells_iff {policy : AnalysisId → String → Target → Prop} {ops : List Operation}
    {s : Session} (h : Runs policy ops s) {id : LayoutId} (q : LayoutQuestion)
    (hf : ∀ st, q.struct? = some st → s.program.structs.Founded st) {x : q.Answer} :
    s.Tells id q x ↔ q.plain (s.layouts.targetOf id) s.program.structs = .ok x := by
  obtain ⟨s', hask⟩ := h.askLayout_eq id hf
  rw [Session.Tells, hask]
  cases q.plain (s.layouts.targetOf id) s.program.structs with
  | error e => simp
  | ok y => simp

/-- After any run, a layout whose alignments are at least 1 answers for every well-formed struct
without fields of negative size, and what it says obeys the rule for the alignments and the sizes
that it says the fields have. For every type of a size it says an alignment and sizes such that
objects at this distance are all aligned if one is, and have room for a value. -/
theorem layouts_obey {policy : AnalysisId → String → Target → Prop} {ops : List Operation}
    {s : Session} (h : Runs policy ops s) (id : LayoutId) (ht : (s.layouts.targetOf id).Aligned) :
    let S := s.program.structs
    (∀ st, S.WellFormed st →
      (∀ e ∈ (S.get st).elements, ∀ size, s.Tells id (.allocSize e) size → 0 ≤ size) →
      ∃ l ms, s.Tells id (.layout st) l ∧
        List.Forall₂ (fun e m =>
          (if (S.get st).packed then m.align = 1 else s.Tells id (.alignment e) m.align) ∧
            s.Tells id (.allocSize e) m.size) (S.get st).elements ms ∧
        l.Obeys (S.get st).isUnion (S.get st).packed (s.layouts.targetOf id).aggregateAlign ms) ∧
    ∀ type, S.SizedType type → ∃ align store size : Int,
      s.Tells id (.alignment type) align ∧ s.Tells id (.storeSize type) store ∧
      s.Tells id (.allocSize type) size ∧ align ∣ size ∧ store ≤ size ∧
      ∀ base k : Int, align ∣ base → align ∣ base + k * size := by
  intro S
  refine ⟨fun st hw hsizes => ?_, fun type htype => ?_⟩
  · obtain ⟨l, hl⟩ := Structs.exists_layoutOn ht hw
    obtain ⟨ms, hms, hobeys⟩ := layoutOn_obeys ht hl fun e he size hsize =>
      hsizes e he size ((h.tells_iff (.allocSize e) fun _ => (hw.sizedType he).founded).2 hsize)
    refine ⟨l, ms, (h.tells_iff (.layout st) fun _ => hw.sizedStruct.founded).2 hl, ?_, hobeys⟩
    refine ((List.forall₂_and_left _ _).2 ⟨fun e he => hw.sizedType he, hms⟩).imp ?_
    rintro e m ⟨hsized, halign, hsize⟩
    refine ⟨?_, (h.tells_iff (.allocSize e) fun _ => hsized.founded).2 hsize⟩
    unfold fieldAlignWith at halign
    split
    · next hpacked =>
      rw [if_pos hpacked] at halign
      exact (Except.ok.inj halign).symm
    · next hpacked =>
      rw [if_neg hpacked] at halign
      exact (h.tells_iff (.alignment e) fun _ => hsized.founded).2 halign
  · obtain ⟨align, store, size, halign, hstore, hsize, hdvd, hle⟩ := htype.plain ht
    refine ⟨align, store, size, (h.tells_iff (.alignment type) fun _ => htype.founded).2 halign,
      (h.tells_iff (.storeSize type) fun _ => htype.founded).2 hstore,
      (h.tells_iff (.allocSize type) fun _ => htype.founded).2 hsize, hdvd, hle,
      fun base k hbase => ?_⟩
    exact Int.dvd_add hbase (Int.dvd_trans hdvd (Int.dvd_mul_left ..))

theorem runs_smallSession (policy : AnalysisId → String → Target → Prop) :
    Runs policy [.event (.addAnalysis none none), .event (.addLayout {}),
      .event (.edit smallProgram)] smallSession :=
  .step (.step (.edit _ smallProgram) (.event (.addLayout {})) trivial)
    (.event (.addAnalysis none none)) ⟨nofun, nofun⟩

/-- A node of an integer, two pairs and a union. -/
theorem layouts_obey_node :
    smallSession.Tells ⟨0⟩ (.layout ⟨2⟩) ⟨#[0, 8, 40], 56, 8⟩ ∧
    (∃ ms, ms.length = 3 ∧ StructLayout.Obeys ⟨#[0, 8, 40], 56, 8⟩ false false 1 ms) ∧
    ∃ align store size : Int, smallSession.Tells ⟨0⟩ (.alignment (.array (.struct ⟨2⟩) 3)) align ∧
      smallSession.Tells ⟨0⟩ (.storeSize (.array (.struct ⟨2⟩) 3)) store ∧
      smallSession.Tells ⟨0⟩ (.allocSize (.array (.struct ⟨2⟩) 3)) size ∧ align ∣ size ∧
      store ≤ size := by
  have hrun := runs_smallSession fun _ _ _ => True
  have hw := wellFormed_smallProgram
  obtain ⟨hlayouts, htypes⟩ := layouts_obey hrun ⟨0⟩ (by decide)
  have hlayout : smallProgram.structs.layoutOn {} ⟨2⟩ = .ok ⟨#[0, 8, 40], 56, 8⟩ := by decide
  have hbytes : ∀ e ∈ (smallProgram.structs.get ⟨2⟩).elements,
      0 ≤ smallProgram.structs.bytesOn {} e := by decide
  obtain ⟨l, ms, hl, hms, hobeys⟩ := hlayouts ⟨2⟩ hw fun e he size hsize => by
    have hsize : smallProgram.structs.sizeOn {} e = .ok size :=
      (hrun.tells_iff (.allocSize e) fun _ => (hw.sizedType he).founded).1 hsize
    have hnonneg := hbytes e he
    rwa [Structs.bytesOn_of_ok hsize] at hnonneg
  have hplain := (hrun.tells_iff (.layout ⟨2⟩) fun _ => hw.sizedStruct.founded).1 hl
  cases hplain.symm.trans hlayout
  obtain ⟨align, store, size, halign, hstore, hsize, hdvd, hle, -⟩ :=
    htypes (.array (.struct ⟨2⟩) 3) hw.sizedStruct
  exact ⟨hl, ⟨ms, hms.length_eq.symm, hobeys⟩, align, store, size, halign, hstore, hsize, hdvd, hle⟩

end KernelObjects
