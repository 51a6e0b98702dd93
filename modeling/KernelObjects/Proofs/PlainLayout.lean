import KernelObjects.Layout
import KernelObjects.Proofs.ByValue

/-!
# Layouts without a memo

The layout of a struct as a function of the target and of the bodies alone. It is the second side
of every statement on sizes and offsets.

Results:
* `layoutOn_eq`: where there are no cycles, the layout of a struct is that of its body.
* `layoutOn_grows`: a layout outlives new bodies of opaque structs.
* `wellFormed_of_layoutOn`, `exists_layoutOn`: only well-formed structs have a layout, and they have
  one if alignments are positive.
* `offsetOn_union`, `offsetOn_zero`: the members of a union and the first field of a struct start
  at 0.
-/
namespace KernelObjects

/-- The layout of a struct from its body. The first argument bounds how deep structs are nested. -/
def plainLayoutTo (t : Target) (S : Structs) : Nat → StructId → Except Fault StructLayout
  | 0, _ => .error .endless
  | n + 1, st =>
    if (S.get st).isOpaque then .error (.worded (.opaqueType · .layOut) (S.label st))
    else do
      let p ← placeWith t S (plainLayoutTo t S n) (S.get st).isUnion (S.get st).packed
        (S.get st).elements {}
      return p.finish (S.get st).packed t.aggregateAlign

namespace Structs

/-- The layout of a struct on a target. -/
def layoutOn (S : Structs) (t : Target) (st : StructId) : Except Fault StructLayout :=
  plainLayoutTo t S (S.size + 1) st

/-- The distance between consecutive objects of a type on a target. -/
def sizeOn (S : Structs) (t : Target) (type : Ty) : Except Fault Int :=
  allocSizeWith t S (S.layoutOn t) type

/-- The offset of a field on a target; 0 if there is no such field. -/
def offsetOn (S : Structs) (t : Target) (st : StructId) (i : Nat) : Int :=
  ((S.layoutOn t st).toOption.bind (·.offsets[i]?)).getD 0

end Structs

theorem Ty.stripArrays_array (e : Ty) (n : Int) : (Ty.array e n).stripArrays = e.stripArrays := rfl

variable {t : Target} {S S' : Structs} {a b : StructId}

/-! ## What a query looks at -/

section Asking

variable {m : Type → Type} [Monad m] [MonadExceptOf Fault m] {ask ask' : StructId → m StructLayout}

theorem alignmentWith_congr {e : Ty} (h : ∀ b, e.embedded? = some b → ask b = ask' b) :
    alignmentWith t S ask e = alignmentWith t S ask' e := by
  induction e using Ty.array_induction with
  | array e n ih => exact ih h
  | other e he =>
    cases e with
    | array e n => cases he
    | struct s => simp only [alignmentWith, h s rfl]
    | _ => rfl

theorem allocSizeWith_congr {e : Ty} (h : ∀ b, e.embedded? = some b → ask b = ask' b) :
    allocSizeWith t S ask e = allocSizeWith t S ask' e := by
  induction e using Ty.array_induction with
  | array e n ih => simp only [allocSizeWith, ih h]
  | other e he =>
    cases e with
    | array e n => cases he
    | struct s => simp only [allocSizeWith, h s rfl]
    | _ => rfl

theorem placeWith_congr {u p : Bool} {es : List Ty} {q : Placement}
    (h : ∀ e ∈ es, ∀ b, e.embedded? = some b → ask b = ask' b) :
    placeWith t S ask u p es q = placeWith t S ask' u p es q := by
  induction es generalizing q with
  | nil => rfl
  | cons e es ih =>
    have he := h e (List.mem_cons_self ..)
    simp only [placeWith, fieldAlignWith, alignmentWith_congr he, allocSizeWith_congr he,
      ih fun e' he' => h e' (List.mem_cons_of_mem _ he')]

end Asking

section Monotone

variable {ask ask' : StructId → Except Fault StructLayout}

theorem alignmentWith_mono {e : Ty} {v : Int}
    (h : ∀ b l, e.embedded? = some b → ask b = .ok l → ask' b = .ok l)
    (hv : alignmentWith t S ask e = .ok v) : alignmentWith t S' ask' e = .ok v := by
  induction e using Ty.array_induction with
  | array e n ih => exact ih h hv
  | other e he =>
    cases e with
    | array e n => cases he
    | struct s =>
      obtain ⟨l, hl, hv⟩ := bind_eq_ok.1 hv
      exact bind_eq_ok.2 ⟨l, h s l rfl hl, hv⟩
    | int _ => exact hv
    | ptr _ _ => exact hv
    | unknown => cases hv
    | void => cases hv
    | func _ _ _ => cases hv

theorem allocSizeWith_mono {e : Ty} {v : Int}
    (h : ∀ b l, e.embedded? = some b → ask b = .ok l → ask' b = .ok l)
    (hv : allocSizeWith t S ask e = .ok v) : allocSizeWith t S' ask' e = .ok v := by
  induction e using Ty.array_induction generalizing v with
  | array e n ih =>
    obtain ⟨w, hw, hv⟩ := bind_eq_ok.1 hv
    exact bind_eq_ok.2 ⟨w, ih h hw, hv⟩
  | other e he =>
    cases e with
    | array e n => cases he
    | struct s =>
      obtain ⟨l, hl, hv⟩ := bind_eq_ok.1 hv
      exact bind_eq_ok.2 ⟨l, h s l rfl hl, hv⟩
    | int _ => exact hv
    | ptr _ _ => exact hv
    | unknown => cases hv
    | void => cases hv
    | func _ _ _ => cases hv

theorem placeWith_mono {u p : Bool} {es : List Ty} {q r : Placement}
    (h : ∀ e ∈ es, ∀ b l, e.embedded? = some b → ask b = .ok l → ask' b = .ok l)
    (hr : placeWith t S ask u p es q = .ok r) : placeWith t S' ask' u p es q = .ok r := by
  induction es generalizing q with
  | nil => exact hr
  | cons e es ih =>
    have he := h e (List.mem_cons_self ..)
    simp only [placeWith, bind_eq_ok] at hr ⊢
    obtain ⟨align, ha, size, hs, q', hq, hr⟩ := hr
    refine ⟨align, ?_, size, allocSizeWith_mono he hs, q', hq,
      ih (fun e' he' => h e' (List.mem_cons_of_mem _ he')) hr⟩
    unfold fieldAlignWith at ha ⊢
    split
    · simpa [*] using ha
    · simp only [*] at ha
      exact alignmentWith_mono he ha

end Monotone

/-! ## Depth -/

theorem plainLayoutTo_succ (t : Target) (S : Structs) (n : Nat) (st : StructId) :
    plainLayoutTo t S (n + 1) st =
      if (S.get st).isOpaque then .error (.worded (.opaqueType · .layOut) (S.label st))
      else do
        let p ← placeWith t S (plainLayoutTo t S n) (S.get st).isUnion (S.get st).packed
          (S.get st).elements {}
        return p.finish (S.get st).packed t.aggregateAlign := rfl

/-- More depth and more bodies keep a layout. -/
theorem plainLayoutTo_mono {n n' : Nat} {l : StructLayout} (h : S.Grows S') (hn : n ≤ n')
    (hl : plainLayoutTo t S n a = .ok l) : plainLayoutTo t S' n' a = .ok l := by
  induction n generalizing n' a l with
  | zero => cases hl
  | succ n ih =>
    obtain ⟨n', rfl⟩ : ∃ k, n' = k + 1 := ⟨n' - 1, by omega⟩
    rw [plainLayoutTo_succ] at hl ⊢
    split at hl
    · cases hl
    · next ho =>
      have hg := h.get_eq a (Bool.eq_false_iff.2 ho)
      rw [hg, if_neg ho]
      obtain ⟨p, hp, hl⟩ := bind_eq_ok.1 hl
      exact bind_eq_ok.2 ⟨p, placeWith_mono (fun _ _ b l' _ hb => ih (by omega) hb) hp, hl⟩

/-- Where there are no cycles, a depth of as many structs as are reached is enough. -/
theorem plainLayoutTo_eq_of_rank_lt {n n' : Nat} (hf : S.Founded a) (hn : S.rank a < n)
    (hn' : S.rank a < n') : plainLayoutTo t S n a = plainLayoutTo t S n' a := by
  induction hf generalizing n n' with
  | intro a hacc ih =>
    obtain ⟨n, rfl⟩ : ∃ k, n = k + 1 := ⟨n - 1, by omega⟩
    obtain ⟨n', rfl⟩ : ∃ k, n' = k + 1 := ⟨n' - 1, by omega⟩
    rw [plainLayoutTo_succ, plainLayoutTo_succ, placeWith_congr]
    intro e he b hb
    have hlt : S.rank b < S.rank a :=
      Structs.rank_lt ⟨e, he, hb⟩ (Structs.Founded.not_holds_self (.intro a hacc))
    exact ih b ⟨e, he, hb⟩ (by omega) (by omega)

namespace Structs

theorem layoutOn_eq (hf : S.Founded a) :
    S.layoutOn t a =
      if (S.get a).isOpaque then .error (.worded (.opaqueType · .layOut) (S.label a))
      else do
        let p ← placeWith t S (S.layoutOn t) (S.get a).isUnion (S.get a).packed
          (S.get a).elements {}
        return p.finish (S.get a).packed t.aggregateAlign := by
  rw [layoutOn, plainLayoutTo_succ, placeWith_congr]
  intro e he b hb
  have hlt : S.rank b < S.rank a := rank_lt ⟨e, he, hb⟩ hf.not_holds_self
  have := rank_le_size (S := S) a
  exact plainLayoutTo_eq_of_rank_lt (hf.embeds ⟨e, he, hb⟩) (by omega) (by omega)

theorem layoutOn_grows {l : StructLayout} (h : S.Grows S') (hl : S.layoutOn t a = .ok l) :
    S'.layoutOn t a = .ok l :=
  plainLayoutTo_mono h (Nat.succ_le_succ h.size_le) hl

theorem sizeOn_grows {e : Ty} {v : Int} (h : S.Grows S') (hv : S.sizeOn t e = .ok v) :
    S'.sizeOn t e = .ok v :=
  allocSizeWith_mono (fun _ _ _ hb => layoutOn_grows h hb) hv

end Structs

/-! ## Which structs have a layout -/

section

variable {ask : StructId → Except Fault StructLayout}

theorem allocSizeWith_eq_ok {e : Ty} {v : Int} (hv : allocSizeWith t S ask e = .ok v) :
    (∃ b l, e.embedded? = some b ∧ ask b = .ok l) ∨
      (e.embedded? = none ∧ e.stripArrays.isScalar = true) := by
  induction e using Ty.array_induction generalizing v with
  | array e n ih =>
    obtain ⟨w, hw, -⟩ := bind_eq_ok.1 hv
    exact ih hw
  | other e he =>
    cases e with
    | array e n => cases he
    | struct s =>
      obtain ⟨l, hl, -⟩ := bind_eq_ok.1 hv
      exact .inl ⟨s, l, rfl, hl⟩
    | int _ => exact .inr ⟨rfl, rfl⟩
    | ptr _ _ => exact .inr ⟨rfl, rfl⟩
    | unknown => cases hv
    | void => cases hv
    | func _ _ _ => cases hv

theorem placeWith_eq_ok {u p : Bool} {es : List Ty} {q r : Placement}
    (hr : placeWith t S ask u p es q = .ok r) {e : Ty} (he : e ∈ es) :
    ∃ v, allocSizeWith t S ask e = .ok v := by
  induction es generalizing q with
  | nil => cases he
  | cons e' es ih =>
    simp only [placeWith, bind_eq_ok] at hr
    obtain ⟨-, -, size, hs, q', -, hr⟩ := hr
    rcases List.mem_cons.1 he with rfl | he
    · exact ⟨size, hs⟩
    · exact ih hr he

end

theorem wellFormed_of_plainLayoutTo {n : Nat} {l : StructLayout}
    (hl : plainLayoutTo t S n a = .ok l) : S.WellFormed a := by
  induction n generalizing a l with
  | zero => cases hl
  | succ n ih =>
    rw [plainLayoutTo_succ] at hl
    split at hl
    · cases hl
    · next ho =>
      obtain ⟨p, hp, -⟩ := bind_eq_ok.1 hl
      refine .mk (Bool.eq_false_iff.2 ho) (fun e he hn => ?_) ?_
      · obtain ⟨v, hv⟩ := placeWith_eq_ok hp he
        rcases allocSizeWith_eq_ok hv with ⟨b, l', hb, -⟩ | ⟨-, hs⟩
        · rw [hn] at hb; cases hb
        · exact hs
      · rintro b ⟨e, he, hb⟩
        obtain ⟨v, hv⟩ := placeWith_eq_ok hp he
        rcases allocSizeWith_eq_ok hv with ⟨b', l', hb', hl'⟩ | ⟨hn, -⟩
        · rw [hb] at hb'; cases hb'; exact ih hl'
        · rw [hb] at hn; cases hn

namespace Structs

theorem wellFormed_of_layoutOn {l : StructLayout} (hl : S.layoutOn t a = .ok l) : S.WellFormed a :=
  wellFormed_of_plainLayoutTo hl

/-- The layout of a struct that has one: its fields placed one after the other. -/
theorem layoutOn_eq_ok {l : StructLayout} (hl : S.layoutOn t a = .ok l) :
    ∃ p, placeWith t S (S.layoutOn t) (S.get a).isUnion (S.get a).packed (S.get a).elements {} =
      .ok p ∧ l = p.finish (S.get a).packed t.aggregateAlign := by
  have hw := wellFormed_of_layoutOn hl
  rw [layoutOn_eq hw.founded, hw.has_body] at hl
  obtain ⟨p, hp, hl⟩ := bind_eq_ok.1 hl
  cases hl
  exact ⟨p, hp, rfl⟩

theorem sizeOn_of_layoutOn {l : StructLayout} (hl : S.layoutOn t a = .ok l) {e : Ty}
    (he : e ∈ (S.get a).elements) : ∃ v, S.sizeOn t e = .ok v := by
  obtain ⟨p, hp, -⟩ := layoutOn_eq_ok hl
  exact placeWith_eq_ok hp he

end Structs

/-! ## Positive alignments -/

/-- All alignments of the target are at least 1. -/
structure Target.Aligned (t : Target) : Prop where
  pointer : 1 ≤ t.pointerAlign
  ints : ∀ p ∈ t.intAligns.entries, 1 ≤ p.2
  aggregate : 1 ≤ t.aggregateAlign

instance (t : Target) : Decidable t.Aligned :=
  decidable_of_iff
    (1 ≤ t.pointerAlign ∧ (∀ p ∈ t.intAligns.entries, 1 ≤ p.2) ∧ 1 ≤ t.aggregateAlign)
    ⟨fun h => ⟨h.1, h.2.1, h.2.2⟩, fun h => ⟨h.pointer, h.ints, h.aggregate⟩⟩

theorem Target.Aligned.intAlign_pos (h : t.Aligned) (bits : Int) : 1 ≤ t.intAlign bits := by
  unfold Target.intAlign
  cases hw : (t.governingWidth bits).bind t.intAligns.get? with
  | none => simp
  | some align =>
    obtain ⟨width, -, hg⟩ := Option.bind_eq_some_iff.1 hw
    exact h.ints (width, align) (Table.mem_of_find hg)

theorem roundUp?_eq_ok {value align : Int} (h : 1 ≤ align) :
    roundUp? value align = .ok (roundUp value align) := by
  rw [roundUp?, if_neg (by omega)]

theorem Placement.add_align_le {p q : Placement} {u : Bool} {align size : Int}
    (h : p.add u align size = .ok q) : p.align ≤ q.align := by
  unfold Placement.add at h
  split at h
  · cases h; exact Int.le_max_left ..
  · split at h
    · cases h; exact Int.le_max_left ..
    · cases h

theorem placeWith_align_le {ask : StructId → Except Fault StructLayout} {u p : Bool} {es : List Ty}
    {q r : Placement} (hr : placeWith t S ask u p es q = .ok r) : q.align ≤ r.align := by
  induction es generalizing q with
  | nil => cases hr; exact Int.le_refl _
  | cons e es ih =>
    simp only [placeWith, bind_eq_ok, orRaise_eq_ok] at hr
    obtain ⟨_, _, _, _, q', hq, hr⟩ := hr
    exact Int.le_trans (Placement.add_align_le hq) (ih hr)

theorem alignment_pos {l : StructLayout} (hl : S.layoutOn t a = .ok l) : 1 ≤ l.alignment := by
  obtain ⟨p, hp, rfl⟩ := Structs.layoutOn_eq_ok hl
  have h : (1 : Int) ≤ p.align := placeWith_align_le hp
  unfold Placement.finish
  dsimp only
  split
  · exact h
  · exact Int.le_trans h (Int.le_max_left ..)

section

variable {ask : StructId → Except Fault StructLayout}

/-- A type has a size and a positive alignment if the struct in it has. -/
theorem exists_alloc_and_align (ht : t.Aligned) {e : Ty}
    (hs : e.embedded? = none → e.stripArrays.isScalar = true)
    (ha : ∀ b, e.embedded? = some b → ∃ l, ask b = .ok l ∧ 1 ≤ l.alignment) :
    (∃ v, allocSizeWith t S ask e = .ok v) ∧ ∃ v, alignmentWith t S ask e = .ok v ∧ 1 ≤ v := by
  induction e using Ty.array_induction with
  | array e n ih =>
    obtain ⟨⟨v, hv⟩, w, hw, hpos⟩ := ih hs ha
    exact ⟨⟨n * v, bind_eq_ok.2 ⟨v, hv, rfl⟩⟩, w, hw, hpos⟩
  | other e he =>
    cases e with
    | array e n => cases he
    | struct s =>
      obtain ⟨l, hl, hpos⟩ := ha s rfl
      exact ⟨⟨l.size, bind_eq_ok.2 ⟨l, hl, rfl⟩⟩, l.alignment, bind_eq_ok.2 ⟨l, hl, rfl⟩, hpos⟩
    | int bits =>
      have hpos := ht.intAlign_pos bits
      exact ⟨⟨_, orRaise_eq_ok.2 (roundUp?_eq_ok hpos)⟩, _, rfl, hpos⟩
    | ptr _ _ => exact ⟨⟨_, orRaise_eq_ok.2 (roundUp?_eq_ok ht.pointer)⟩, _, rfl, ht.pointer⟩
    | unknown => cases hs rfl
    | void => cases hs rfl
    | func _ _ _ => cases hs rfl

/-- A type that is neither a struct nor a scalar has no alignment. -/
theorem alignmentWith_bad {e : Ty} (hn : e.embedded? = none) (hs : e.stripArrays.isScalar = false) :
    alignmentWith t S ask e = .error (.worded .noAlignment (S.text e.stripArrays)) := by
  induction e using Ty.array_induction with
  | array e n ih => exact ih hn hs
  | other e he =>
    cases e with
    | array e n => cases he
    | struct s => cases hn
    | int _ => cases hs
    | ptr _ _ => cases hs
    | _ => rfl

/-- Nor has it a size. -/
theorem allocSizeWith_bad {e : Ty} (hn : e.embedded? = none) (hs : e.stripArrays.isScalar = false) :
    (e.stripArrays = .unknown ∧ allocSizeWith t S ask e = .error .unknownType) ∨
      allocSizeWith t S ask e = .error (.worded .notSized (S.text e.stripArrays)) := by
  induction e using Ty.array_induction with
  | array e n ih =>
    rw [Ty.stripArrays_array]
    rcases ih hn hs with ⟨hu, he⟩ | he
    · exact .inl ⟨hu, by rw [allocSizeWith, he]; rfl⟩
    · exact .inr (by rw [allocSizeWith, he]; rfl)
  | other e he =>
    cases e with
    | array e n => cases he
    | struct s => cases hn
    | int _ => cases hs
    | ptr _ _ => cases hs
    | unknown => exact .inl ⟨rfl, rfl⟩
    | void => exact .inr rfl
    | func _ _ _ => exact .inr rfl

/-- A field that has a size and an alignment can be placed. -/
theorem placeWith_cons (ht : t.Aligned) {e : Ty}
    (hs : e.embedded? = none → e.stripArrays.isScalar = true)
    (ha : ∀ b, e.embedded? = some b → ∃ l, ask b = .ok l ∧ 1 ≤ l.alignment) (u p : Bool)
    (es : List Ty) (q : Placement) :
    ∃ q', placeWith t S ask u p (e :: es) q = placeWith t S ask u p es q' := by
  obtain ⟨⟨size, hsize⟩, align, halign, hpos⟩ := exists_alloc_and_align (S := S) ht hs ha
  obtain ⟨align', halign', hpos'⟩ : ∃ v, fieldAlignWith t S ask p e = .ok v ∧ 1 ≤ v := by
    unfold fieldAlignWith
    split
    · exact ⟨1, rfl, Int.le_refl _⟩
    · exact ⟨align, halign, hpos⟩
  obtain ⟨q', hq'⟩ : ∃ q', q.add u align' size = .ok q' := by
    unfold Placement.add
    split
    · exact ⟨_, rfl⟩
    · rw [roundUp?_eq_ok hpos']; exact ⟨_, rfl⟩
  refine ⟨q', ?_⟩
  simp only [placeWith, halign', hsize, bind, Except.bind, hq']
  rfl

theorem exists_placeWith (ht : t.Aligned) {u p : Bool} {es : List Ty} (q : Placement)
    (hs : ∀ e ∈ es, e.embedded? = none → e.stripArrays.isScalar = true)
    (ha : ∀ e ∈ es, ∀ b, e.embedded? = some b → ∃ l, ask b = .ok l ∧ 1 ≤ l.alignment) :
    ∃ r, placeWith t S ask u p es q = .ok r := by
  induction es generalizing q with
  | nil => exact ⟨q, rfl⟩
  | cons e es ih =>
    obtain ⟨q', hq'⟩ := placeWith_cons (S := S) ht (hs e (List.mem_cons_self ..))
      (ha e (List.mem_cons_self ..)) u p es q
    rw [hq']
    exact ih q' (fun e' he' => hs e' (List.mem_cons_of_mem _ he'))
      (fun e' he' => ha e' (List.mem_cons_of_mem _ he'))

variable (S) in
/-- What a field says that is neither a struct nor a scalar. -/
def FieldFault (e : Ty) (f : Fault) : Prop :=
  e.embedded? = none ∧ e.stripArrays.isScalar = false ∧
    (f = .worded .noAlignment (S.text e.stripArrays) ∨
      f = .worded .notSized (S.text e.stripArrays) ∨ (f = .unknownType ∧ e.stripArrays = .unknown))

theorem placeWith_eq_error (ht : t.Aligned) {u p : Bool} {es : List Ty} {q : Placement} {f : Fault}
    (ha : ∀ e ∈ es, ∀ b, e.embedded? = some b → ∃ l, ask b = .ok l ∧ 1 ≤ l.alignment)
    (hf : placeWith t S ask u p es q = .error f) : ∃ e ∈ es, FieldFault S e f := by
  induction es generalizing q with
  | nil => cases hf
  | cons e es ih =>
    by_cases hs : e.embedded? = none → e.stripArrays.isScalar = true
    · obtain ⟨q', hq'⟩ := placeWith_cons (S := S) ht hs (ha e (List.mem_cons_self ..)) u p es q
      rw [hq'] at hf
      obtain ⟨e', he', hfault⟩ := ih (fun e' he' => ha e' (List.mem_cons_of_mem _ he')) hf
      exact ⟨e', List.mem_cons_of_mem _ he', hfault⟩
    · obtain ⟨hn, hns⟩ := Classical.not_imp.1 hs
      have hns : e.stripArrays.isScalar = false := by simpa using hns
      refine ⟨e, List.mem_cons_self .., hn, hns, ?_⟩
      have halign :
          alignmentWith t S ask e = .error (.worded .noAlignment (S.text e.stripArrays)) :=
        alignmentWith_bad hn hns
      rw [placeWith, fieldAlignWith, halign] at hf
      cases p with
      | false => cases hf; exact .inl rfl
      | true =>
        have hsize : _ ∨ allocSizeWith t S ask e = _ := allocSizeWith_bad hn hns
        rcases hsize with ⟨hu, hsize⟩ | hsize
        · rw [hsize] at hf; cases hf; exact .inr (.inr ⟨rfl, hu⟩)
        · rw [hsize] at hf; cases hf; exact .inr (.inl rfl)

end

theorem Structs.exists_layoutOn (ht : t.Aligned) (hw : S.WellFormed a) :
    ∃ l, S.layoutOn t a = .ok l := by
  induction hw with
  | @mk a body scalars inner ih =>
    have hf : S.Founded a := (WellFormed.mk body scalars inner).founded
    have ha : ∀ e ∈ (S.get a).elements, ∀ b, e.embedded? = some b →
        ∃ l, S.layoutOn t b = .ok l ∧ 1 ≤ l.alignment := by
      intro e he b hb
      obtain ⟨l, hl⟩ := ih b ⟨e, he, hb⟩
      exact ⟨l, hl, alignment_pos hl⟩
    obtain ⟨r, hr⟩ := exists_placeWith (S := S) (u := (S.get a).isUnion) (p := (S.get a).packed) ht
      {} scalars ha
    refine ⟨r.finish (S.get a).packed t.aggregateAlign, ?_⟩
    rw [layoutOn_eq hf, body]
    exact bind_eq_ok.2 ⟨r, hr, rfl⟩

/-- A struct all of whose inner structs have layouts lacks one only for the type of a field. -/
theorem Structs.layoutOn_eq_error (ht : t.Aligned) (hbody : (S.get a).isOpaque = false)
    (hinner : ∀ b, S.Embeds a b → S.WellFormed b) {f : Fault}
    (hl : S.layoutOn t a = .error f) : ∃ e ∈ (S.get a).elements, FieldFault S e f := by
  have hfounded : S.Founded a := .intro a fun b hb => (hinner b hb).founded
  rw [layoutOn_eq hfounded, hbody] at hl
  cases hp : placeWith t S (S.layoutOn t) (S.get a).isUnion (S.get a).packed
      (S.get a).elements {} with
  | ok p => rw [hp] at hl; cases hl
  | error f' =>
    rw [hp] at hl
    cases hl
    refine placeWith_eq_error ht (fun e he b hb => ?_) hp
    obtain ⟨l, hl⟩ := exists_layoutOn ht (hinner b ⟨e, he, hb⟩)
    exact ⟨l, hl, alignment_pos hl⟩

/-! ## Offsets -/

theorem Placement.add_offsets {p q : Placement} {u : Bool} {align size : Int}
    (h : p.add u align size = .ok q) :
    ∃ start, q.offsets = p.offsets.push start ∧
      (if u then start = 0 else align ≠ 0 ∧ start = roundUp p.size align) := by
  unfold Placement.add at h
  split at h
  · next hu => cases h; exact ⟨0, rfl, by simp [hu]⟩
  · next hu =>
    unfold roundUp? at h
    split at h
    · next start hs =>
      cases h
      refine ⟨start, rfl, ?_⟩
      split at hs
      · cases hs
      · next hz => cases hs; simp [hu, hz]
    · cases h

section

variable {ask : StructId → Except Fault StructLayout}

theorem size_offsets_placeWith {u p : Bool} {es : List Ty} {q r : Placement}
    (hr : placeWith t S ask u p es q = .ok r) : r.offsets.size = q.offsets.size + es.length := by
  induction es generalizing q with
  | nil => cases hr; rfl
  | cons e es ih =>
    simp only [placeWith, bind_eq_ok, orRaise_eq_ok] at hr
    obtain ⟨_, _, _, _, q', hq, hr⟩ := hr
    obtain ⟨start, ho, -⟩ := Placement.add_offsets hq
    rw [ih hr, ho, Array.size_push, List.length_cons]
    omega

theorem getElem?_offsets_placeWith {u p : Bool} {es : List Ty} {q r : Placement} {i : Nat}
    (hr : placeWith t S ask u p es q = .ok r) (hi : i < q.offsets.size) :
    r.offsets[i]? = q.offsets[i]? := by
  induction es generalizing q with
  | nil => cases hr; rfl
  | cons e es ih =>
    simp only [placeWith, bind_eq_ok, orRaise_eq_ok] at hr
    obtain ⟨_, _, _, _, q', hq, hr⟩ := hr
    obtain ⟨start, ho, -⟩ := Placement.add_offsets hq
    rw [ih hr (by rw [ho, Array.size_push]; omega), ho, Array.getElem?_push_lt hi,
      Array.getElem?_eq_getElem hi]

theorem offsets_placeWith_union {p : Bool} {es : List Ty} {q r : Placement}
    (hr : placeWith t S ask true p es q = .ok r) (hq : ∀ x ∈ q.offsets, x = 0) :
    ∀ x ∈ r.offsets, x = 0 := by
  induction es generalizing q with
  | nil => cases hr; exact hq
  | cons e es ih =>
    simp only [placeWith, bind_eq_ok, orRaise_eq_ok] at hr
    obtain ⟨_, _, _, _, q', hq', hr⟩ := hr
    obtain ⟨start, ho, hs⟩ := Placement.add_offsets hq'
    refine ih hr fun x hx => ?_
    rw [ho, Array.mem_push] at hx
    rcases hx with hx | rfl
    · exact hq x hx
    · simpa using hs

theorem alignmentWith_pos (ht : t.Aligned) (ha : ∀ b l, ask b = .ok l → 1 ≤ l.alignment) {e : Ty}
    {v : Int} (hv : alignmentWith t S ask e = .ok v) : 1 ≤ v := by
  induction e using Ty.array_induction with
  | array e n ih => exact ih hv
  | other e he =>
    cases e with
    | array e n => cases he
    | struct s =>
      obtain ⟨l, hl, hv⟩ := bind_eq_ok.1 hv
      cases hv
      exact ha s l hl
    | int bits => cases hv; exact ht.intAlign_pos bits
    | ptr _ _ => cases hv; exact ht.pointer
    | unknown => cases hv
    | void => cases hv
    | func _ _ _ => cases hv

end

theorem fieldAlignWith_pos (ht : t.Aligned) {p : Bool} {e : Ty} {align : Int}
    (ha : fieldAlignWith t S (S.layoutOn t) p e = .ok align) : 1 ≤ align := by
  unfold fieldAlignWith at ha
  split at ha
  · cases ha
    exact Int.le_refl _
  · exact alignmentWith_pos ht (fun b l => alignment_pos) ha

theorem roundUp_zero {align : Int} (h : 1 ≤ align) : roundUp 0 align = 0 := by
  have : (0 + align - 1).fdiv align = 0 := by
    rw [Int.fdiv_eq_ediv_of_nonneg _ (by omega)]
    exact Int.ediv_eq_zero_of_lt (by omega) (by omega)
  rw [roundUp, this, Int.zero_mul]

theorem le_roundUp {value align : Int} (h : 1 ≤ align) : value ≤ roundUp value align := by
  have hlt := Int.lt_ediv_add_one_mul_self (value + align - 1) (show 0 < align by omega)
  rw [Int.add_mul, Int.one_mul] at hlt
  rw [roundUp, Int.fdiv_eq_ediv_of_nonneg _ (by omega)]
  omega

theorem Target.intBytes_nonneg {bits : Int} (h : 0 ≤ bits) : 0 ≤ Target.intBytes bits := by
  rw [Target.intBytes, Int.fdiv_eq_ediv_of_nonneg _ (by omega)]
  omega

namespace Structs

theorem size_offsets {l : StructLayout} (hl : S.layoutOn t a = .ok l) :
    l.offsets.size = (S.get a).elements.length := by
  obtain ⟨p, hp, rfl⟩ := layoutOn_eq_ok hl
  simpa [Placement.finish] using size_offsets_placeWith hp

/-- What a layout says about the position of a field. -/
theorem offsetAt_eq {l : StructLayout} (hl : S.layoutOn t a = .ok l) {i : Nat}
    (hi : i < (S.get a).elements.length) : l.offsetAt i = .ok (S.offsetOn t a i) := by
  have hi' : i < l.offsets.size := by rw [size_offsets hl]; exact hi
  rw [StructLayout.offsetAt, itemAt_ofNat _ _ hi']
  simp [offsetOn, hl, Except.toOption, hi']

theorem offsetOn_union {l : StructLayout} (hl : S.layoutOn t a = .ok l)
    (hu : (S.get a).isUnion = true) (i : Nat) : S.offsetOn t a i = 0 := by
  obtain ⟨p, hp, rfl⟩ := layoutOn_eq_ok hl
  rw [hu] at hp
  have hz := offsets_placeWith_union hp (by simp)
  simp only [offsetOn, hl, Except.toOption, Option.bind_some, Placement.finish]
  cases hx : p.offsets[i]? with
  | none => rfl
  | some x => exact hz x (Array.mem_of_getElem? hx)

theorem offsetOn_zero (ht : t.Aligned) {l : StructLayout} (hl : S.layoutOn t a = .ok l) :
    S.offsetOn t a 0 = 0 := by
  by_cases hu : (S.get a).isUnion = true
  · exact offsetOn_union hl hu 0
  obtain ⟨p, hp, rfl⟩ := layoutOn_eq_ok hl
  simp only [offsetOn, hl, Except.toOption, Option.bind_some, Placement.finish]
  cases hes : (S.get a).elements with
  | nil =>
    rw [hes] at hp
    cases hp
    rfl
  | cons e es =>
    simp only [hes, placeWith, bind_eq_ok, orRaise_eq_ok] at hp
    obtain ⟨align, ha, size, _, q, hq, hp⟩ := hp
    obtain ⟨start, ho, hs⟩ := Placement.add_offsets hq
    rw [if_neg hu] at hs
    rw [getElem?_offsets_placeWith hp (by simp [ho]), ho, hs.2,
      roundUp_zero (fieldAlignWith_pos ht ha)]
    rfl

end Structs

end KernelObjects
