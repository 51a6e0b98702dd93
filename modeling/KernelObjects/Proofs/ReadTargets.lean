import KernelObjects.Proofs.Operations
import KernelObjects.Target.Spec

/-!
# Layouts on a target that was read

A specification gives sizes and alignments in bits, and any number will do. Whatever it says, an
integer is aligned to a byte or more. The alignment of pointers is taken as it is given, so a
pointer may be aligned to no byte at all, and then it has no size either. A size of pointers below
zero cannot be said, since a hyphen ends a token.

What does not lie in memory by value has no part in a layout. So a type without pointers in it is
laid out on every target that was read, and every type is if pointers are in order.

Results:
* `readToken_proper`, `parse_proper`: one token, and so a whole specification, leaves integers
  aligned to a byte or more, and pointers of no negative size.
* `exists_measures`, `exists_placeWith_proper`, `Structs.exists_proper`: no fault and no negative
  number, from the types of fields up to structs.
* `parse_lays_out`: a target that was read lays out all measured types exactly if pointers are
  aligned.
* `parse_unaligned_pointer`: a specification after which they are not.
-/
namespace KernelObjects

/-! ## What a specification cannot say -/

/-- Integers of all widths are aligned to a byte or more. -/
def Target.IntsAligned (t : Target) : Prop :=
  ∀ p ∈ t.intAligns.entries, 1 ≤ p.2

/-- Pointers are aligned to a byte or more, and take up no negative number of bytes. -/
def Target.PointersInOrder (t : Target) : Prop :=
  1 ≤ t.pointerAlign ∧ 0 ≤ t.pointerSize

theorem Target.IntsAligned.intAlign_pos {t : Target} (h : t.IntsAligned) (bits : Int) :
    1 ≤ t.intAlign bits := by
  -- the alignment of an integer does not depend on anything else that the target says
  have haligned : Target.Aligned { t with pointerAlign := 1, aggregateAlign := 1 } :=
    ⟨Int.le_refl 1, h, Int.le_refl 1⟩
  exact haligned.intAlign_pos bits

/-- What holds of a target that was read: integers of all widths are aligned to a byte or more, and
pointers take up no negative number of bytes. -/
structure Target.Proper (t : Target) : Prop where
  ints : t.IntsAligned
  pointerSize : 0 ≤ t.pointerSize

namespace Target.Spec

/-- An alignment of integers is a byte or more, and a size of pointers is not negative. -/
def Setting.Proper : Setting → Prop
  | .integer _ align => 1 ≤ align
  | .pointer size _ => 0 ≤ size
  | _ => True

theorem reading_eq_sets {o : Option Setting} {s : Setting} (h : reading o = .sets s) :
    o = some s := by
  cases o with
  | none => cases h
  | some s' => cases h; rfl

theorem readFields_proper {head : List Char} {fs : List (List Char)} {s : Setting}
    (hfs : ∀ f ∈ fs, '-' ∉ f) (h : readFields head fs = .sets s) : s.Proper := by
  unfold readFields at h
  split at h
  · split at h
    · obtain ⟨size, hread, h⟩ := Option.bind_eq_some_iff.1 (reading_eq_sets h)
      obtain ⟨align, -, h⟩ := Option.bind_eq_some_iff.1 h
      cases h
      -- a number without a minus is not negative, nor is it in whole bytes
      have hbits : 0 ≤ size := Text.Numeral.read?_nonneg (hfs _ (List.mem_cons_self ..)) hread
      exact Int.fdiv_nonneg hbits (by decide)
    · cases h
  · split at h
    · obtain ⟨width, -, h⟩ := Option.bind_eq_some_iff.1 (reading_eq_sets h)
      obtain ⟨align, -, h⟩ := Option.bind_eq_some_iff.1 h
      cases h
      exact Int.le_max_left ..
    · cases h
  · split at h
    · cases h
    · obtain ⟨align, -, h⟩ := Option.bind_eq_some_iff.1 (reading_eq_sets h)
      cases h
      trivial
  · cases h

/-- A token without a hyphen sets nothing improper. -/
theorem readToken_proper {token : List Char} {s : Setting} (ht : '-' ∉ token)
    (h : readToken token = .sets s) : s.Proper := by
  unfold readToken at h
  split at h
  · cases h; trivial
  · split at h
    · cases h; trivial
    · refine readFields_proper (fun f hf hminus => ht (Text.cut_snd_subset ':' token ?_)) h
      unfold fields at hf
      split at hf
      · cases hf
      · exact Text.subset_of_mem_splitOn hf hminus

theorem apply_proper {t : Target} {s : Setting} (ht : t.Proper) (hs : s.Proper) :
    (apply t s).Proper := by
  cases s with
  | endian little => exact ⟨ht.ints, ht.pointerSize⟩
  | pointer size align => exact ⟨ht.ints, hs⟩
  | integer bits align =>
    refine ⟨fun p hp => ?_, ht.pointerSize⟩
    rcases Table.mem_put hp with rfl | hp
    · exact hs
    · exact ht.ints p hp
  | aggregate align => exact ⟨ht.ints, ht.pointerSize⟩

theorem readTokens_proper {ts : List (List Char)} {t t' : Target} (hts : ∀ token ∈ ts, '-' ∉ token)
    (ht : t.Proper) (h : (readTokens t ts).result = .ok t') : t'.Proper := by
  fun_induction readTokens t ts with
  | case1 t => cases h; exact ht
  | case2 t token rest s hs ih =>
    obtain ⟨htoken, hrest⟩ := List.forall_mem_cons.1 hts
    exact ih hrest (apply_proper ht (readToken_proper htoken hs)) h
  | case3 => cases h
  | case4 t token rest _ ih => exact ih (List.forall_mem_cons.1 hts).2 ht h
  | case5 t token rest _ o ih => exact ih (List.forall_mem_cons.1 hts).2 ht h

theorem parse_proper {spec : String} {t : Target} (h : (parse spec).result = .ok t) : t.Proper := by
  have hdefault : ({ spec } : Target).Proper := by
    refine ⟨?_, (by decide : (0 : Int) ≤ 8)⟩
    show ∀ p ∈ defaultIntAligns.entries, 1 ≤ p.2
    decide
  -- tokens stand between hyphens
  exact readTokens_proper
    (fun token ht => Text.not_mem_of_mem_splitOn (List.mem_filter.1 ht).1) hdefault h

end Target.Spec

/-! ## Measured types -/

/-- A type of no negative extent: integers of a positive width, pointers if `pointers`, arrays of no
negative count. -/
def Ty.Measured (pointers : Prop) : Ty → Prop
  | .int bits => 0 < bits
  | .ptr .. => pointers
  | .array e n => 0 ≤ n ∧ e.Measured pointers
  | .struct _ => True
  | _ => False

theorem Ty.Measured.mono {p q : Prop} (hpq : p → q) {e : Ty} (h : e.Measured p) :
    e.Measured q := by
  induction e using Ty.array_induction with
  | array e n ih => exact ⟨h.1, ih h.2⟩
  | other e he =>
    cases e with
    | array e n => cases he
    | ptr _ _ => exact hpq h
    | _ => exact h

namespace Structs

/-- Every struct that is reached has a body, does not hold itself, and has fields of measured
types. -/
def MeasuredBelow (S : Structs) (pointers : Prop) (a : StructId) : Prop :=
  ∀ x, S.Reaches a x → (S.get x).isOpaque = false ∧ ¬ S.Holds x x ∧
    ∀ e ∈ (S.get x).elements, e.Measured pointers

/-- A type that is measured, with all structs that lie in it. -/
def Measured (S : Structs) (pointers : Prop) (type : Ty) : Prop :=
  type.Measured pointers ∧ ∀ st, type.embedded? = some st → S.MeasuredBelow pointers st

variable {S : Structs} {p q : Prop} {a b : StructId} {type : Ty}

theorem MeasuredBelow.embeds (h : S.MeasuredBelow p a) (hb : S.Embeds a b) :
    S.MeasuredBelow p b :=
  fun x hx => h x (.head hb hx)

theorem MeasuredBelow.founded (h : S.MeasuredBelow p a) : S.Founded a :=
  founded_of_not_holds fun x hx => (h x hx).2.1

theorem Measured.mono (hpq : p → q) (h : S.Measured p type) : S.Measured q type := by
  refine ⟨h.1.mono hpq, fun st hst x hx => ?_⟩
  obtain ⟨hbody, hcycle, hfields⟩ := h.2 st hst x hx
  exact ⟨hbody, hcycle, fun e he => (hfields e he).mono hpq⟩

end Structs

/-! ## No fault and no negative number -/

/-- An alignment of a byte or more, and no negative size or offset. -/
structure StructLayout.Proper (l : StructLayout) : Prop where
  alignment : 1 ≤ l.alignment
  size : 0 ≤ l.size
  offsets : ∀ x ∈ l.offsets, 0 ≤ x

/-- The same of fields that have been placed. -/
structure Placement.Proper (p : Placement) : Prop where
  align : 1 ≤ p.align
  size : 0 ≤ p.size
  offsets : ∀ x ∈ p.offsets, 0 ≤ x

theorem Placement.Proper.push {p : Placement} (h : p.Proper) {align size start : Int}
    (hstart : 0 ≤ start) (hsize : 0 ≤ size) :
    Placement.Proper ⟨p.offsets.push start, size, max p.align align⟩ where
  align := Int.le_trans h.align (Int.le_max_left ..)
  size := hsize
  offsets x hx := by
    rcases Array.mem_push.1 hx with hx | rfl
    · exact h.offsets x hx
    · exact hstart

theorem Placement.Proper.add {p : Placement} (h : p.Proper) (u : Bool) {align size : Int}
    (halign : 1 ≤ align) (hsize : 0 ≤ size) : ∃ q, p.add u align size = .ok q ∧ q.Proper := by
  have hp := h.size
  unfold Placement.add
  split
  · exact ⟨_, rfl, h.push (Int.le_refl 0) (by omega)⟩
  · have hstart : 0 ≤ roundUp p.size align := Int.le_trans hp (le_roundUp halign)
    rw [roundUp?_eq_ok halign]
    exact ⟨_, rfl, h.push hstart (by omega)⟩

theorem Placement.Proper.finish {p : Placement} (h : p.Proper) (packed : Bool)
    (aggregateAlign : Int) : (p.finish packed aggregateAlign).Proper := by
  have halign : 1 ≤ if packed then p.align else max p.align aggregateAlign := by
    have := h.align
    split <;> omega
  exact ⟨halign, Int.le_trans h.size (le_roundUp halign), h.offsets⟩

section

variable {t : Target} {S : Structs} {ask : StructId → Except Fault StructLayout}

/-- A measured type has a size and an alignment if the struct in it is laid out. -/
theorem exists_measures (ht : t.IntsAligned) {e : Ty} (he : e.Measured t.PointersInOrder)
    (ha : ∀ b, e.embedded? = some b → ∃ l, ask b = .ok l ∧ l.Proper) :
    (∃ v, allocSizeWith t S ask e = .ok v ∧ 0 ≤ v) ∧
      ∃ v, alignmentWith t S ask e = .ok v ∧ 1 ≤ v := by
  induction e using Ty.array_induction with
  | array e n ih =>
    obtain ⟨⟨v, hv, hle⟩, halign⟩ := ih he.2 ha
    exact ⟨⟨n * v, bind_eq_ok.2 ⟨v, hv, rfl⟩, Int.mul_nonneg he.1 hle⟩, halign⟩
  | other e hother =>
    cases e with
    | array e n => cases hother
    | struct s =>
      obtain ⟨l, hl, hproper⟩ := ha s rfl
      exact ⟨⟨l.size, bind_eq_ok.2 ⟨l, hl, rfl⟩, hproper.size⟩,
        l.alignment, bind_eq_ok.2 ⟨l, hl, rfl⟩, hproper.alignment⟩
    | int bits =>
      have hpos := ht.intAlign_pos bits
      have hbytes : 0 ≤ Target.intBytes bits := Target.intBytes_nonneg (Int.le_of_lt he)
      exact ⟨⟨_, orRaise_eq_ok.2 (roundUp?_eq_ok hpos), Int.le_trans hbytes (le_roundUp hpos)⟩,
        _, rfl, hpos⟩
    | ptr _ _ =>
      obtain ⟨halign, hsize⟩ : t.PointersInOrder := he
      exact ⟨⟨_, orRaise_eq_ok.2 (roundUp?_eq_ok halign),
        Int.le_trans hsize (le_roundUp halign)⟩, _, rfl, halign⟩
    | unknown => cases he
    | void => cases he
    | func _ _ _ => cases he

theorem exists_placeWith_proper (ht : t.IntsAligned) (u packed : Bool) {es : List Ty}
    {p : Placement} (hp : p.Proper) (hes : ∀ e ∈ es, e.Measured t.PointersInOrder)
    (ha : ∀ e ∈ es, ∀ b, e.embedded? = some b → ∃ l, ask b = .ok l ∧ l.Proper) :
    ∃ r, placeWith t S ask u packed es p = .ok r ∧ r.Proper := by
  induction es generalizing p with
  | nil => exact ⟨p, rfl, hp⟩
  | cons e es ih =>
    obtain ⟨⟨size, hsize, hnonneg⟩, align, halign, hpos⟩ := exists_measures (S := S) ht
      (hes e (List.mem_cons_self ..)) (ha e (List.mem_cons_self ..))
    obtain ⟨align', halign', hpos'⟩ : ∃ v, fieldAlignWith t S ask packed e = .ok v ∧ 1 ≤ v := by
      unfold fieldAlignWith
      split
      · exact ⟨1, rfl, Int.le_refl 1⟩
      · exact ⟨align, halign, hpos⟩
    obtain ⟨q, hadd, hq⟩ := hp.add u hpos' hnonneg
    obtain ⟨r, hr, hproper⟩ := ih hq (fun e' he' => hes e' (List.mem_cons_of_mem _ he'))
      fun e' he' => ha e' (List.mem_cons_of_mem _ he')
    refine ⟨r, ?_, hproper⟩
    rw [placeWith]
    exact bind_eq_ok.2 ⟨align', halign', bind_eq_ok.2 ⟨size, hsize,
      bind_eq_ok.2 ⟨q, orRaise_eq_ok.2 hadd, hr⟩⟩⟩

/-- The layout of a struct of measured types: from those of the structs in it, by induction from the
innermost ones outwards. -/
theorem Structs.exists_proper (ht : t.IntsAligned) {a : StructId}
    (ha : S.MeasuredBelow t.PointersInOrder a) : ∃ l, S.layoutOn t a = .ok l ∧ l.Proper := by
  have hf := ha.founded
  induction hf with
  | intro a hacc ih =>
    obtain ⟨hbody, -, hfields⟩ := ha a .refl
    have hinner : ∀ e ∈ (S.get a).elements, ∀ b, e.embedded? = some b →
        ∃ l, S.layoutOn t b = .ok l ∧ l.Proper :=
      fun e he b hb => ih b ⟨e, he, hb⟩ (ha.embeds ⟨e, he, hb⟩)
    have hempty : Placement.Proper {} := ⟨Int.le_refl 1, Int.le_refl 0, by simp⟩
    obtain ⟨r, hr, hproper⟩ := exists_placeWith_proper (S := S) ht (S.get a).isUnion
      (S.get a).packed hempty hfields hinner
    refine ⟨_, ?_, hproper.finish (S.get a).packed t.aggregateAlign⟩
    rw [layoutOn_eq (.intro a hacc), hbody]
    exact bind_eq_ok.2 ⟨r, hr, rfl⟩

end

/-! ## Questions -/

namespace LayoutQuestion

/-- The type that a question is about. -/
def type : LayoutQuestion → Ty
  | .layout st => .struct st
  | .alignment type | .storeSize type | .allocSize type => type

/-- An answer without an alignment below a byte, or a negative size or offset. -/
def Proper : (q : LayoutQuestion) → q.Answer → Prop
  | .layout _, l => StructLayout.Proper l
  | .alignment _, align => (1 : Int) ≤ align
  | .storeSize _, size | .allocSize _, size => (0 : Int) ≤ size

theorem embedded?_type (q : LayoutQuestion) : q.type.embedded? = q.struct? := by
  cases q <;> rfl

variable {t : Target} {S : Structs}

theorem plain_proper (ht : t.IntsAligned) {q : LayoutQuestion}
    (hq : S.Measured t.PointersInOrder q.type) : ∃ x, q.plain t S = .ok x ∧ q.Proper x := by
  obtain ⟨htype, hbelow⟩ := hq
  obtain ⟨hsize, halign⟩ := exists_measures (S := S) ht htype
    fun b hb => Structs.exists_proper ht (hbelow b hb)
  cases q with
  | layout st => exact Structs.exists_proper ht (hbelow st rfl)
  | alignment type => exact halign
  | allocSize type => exact hsize
  | storeSize type =>
    cases type with
    | int bits => exact ⟨_, rfl, Target.intBytes_nonneg (Int.le_of_lt htype)⟩
    | ptr _ _ => exact ⟨_, rfl, htype.2⟩
    | _ => exact hsize

end LayoutQuestion

/-- The question is answered, and properly. -/
def Session.LaysOut (s : Session) (id : LayoutId) (q : LayoutQuestion) : Prop :=
  ∃ x s', Work.askLayout id (fun t S => q.ask t S) s = .ok x s' ∧ q.Proper x

theorem Runs.askLayout_eq {policy : AnalysisId → String → Target → Prop} {ops : List Operation}
    {s : Session} (h : Runs policy ops s) (id : LayoutId) {q : LayoutQuestion}
    (hf : ∀ st, q.struct? = some st → s.program.structs.Founded st) :
    ∃ s', Work.askLayout id (fun t S => q.ask t S) s =
      match q.plain (s.layouts.targetOf id) s.program.structs with
      | .ok x => .ok x s'
      | .error e => .error e s' := by
  obtain ⟨memo, -, hask⟩ := q.answers (t := s.layouts.targetOf id) hf _ (h.sound.memos id)
  refine ⟨{ s with layouts := s.layouts.setMemo id memo }, ?_⟩
  simp only [Work.askLayout, onPart, Layouts.onTarget_eq]
  rw [hask]
  cases q.plain (s.layouts.targetOf id) s.program.structs <;> rfl

theorem Runs.lays_out {policy : AnalysisId → String → Target → Prop} {ops : List Operation}
    {s : Session} (h : Runs policy ops s) {id : LayoutId} {t : Target}
    (hid : s.layouts.targetOf id = t) (ht : t.IntsAligned) {q : LayoutQuestion}
    (hq : s.program.structs.Measured t.PointersInOrder q.type) : s.LaysOut id q := by
  obtain ⟨s', hask⟩ := h.askLayout_eq id fun st hst =>
    (hq.2 st (q.embedded?_type.trans hst)).founded
  obtain ⟨x, hx, hproper⟩ := LayoutQuestion.plain_proper ht hq
  rw [hid, hx] at hask
  exact ⟨x, s', hask, hproper⟩

/-- After any run, a layout on the target answers every question about a measured type. -/
def Target.LaysOut (t : Target) (pointers : Prop) : Prop :=
  ∀ ops s id, Runs (fun _ _ _ => True) ops s → s.layouts.targetOf id = t →
    ∀ q : LayoutQuestion, s.program.structs.Measured pointers q.type → s.LaysOut id q

/-- A target that was read lays out all measured types without pointers in them. It lays out all
measured types exactly if pointers are aligned to a byte or more. -/
theorem parse_lays_out {spec : String} {t : Target}
    (ht : (Target.Spec.parse spec).result = .ok t) :
    t.LaysOut False ∧ (t.LaysOut True ↔ 1 ≤ t.pointerAlign) := by
  have hproper := Target.Spec.parse_proper ht
  refine ⟨?_, ?_, ?_⟩
  · intro ops s id hrun hid q hq
    exact hrun.lays_out hid hproper.ints (hq.mono False.elim)
  · intro hall
    -- a pointer is all it takes: its alignment is what the target says
    have hrun : Runs (fun _ _ _ => True) [.event (.addLayout t)] ((Event.addLayout t).exec {}) :=
      .step .init (.event (.addLayout t)) trivial
    have hptr : ∀ S : Structs, S.Measured True (.ptr .unknown 0) := fun S => ⟨trivial, nofun⟩
    obtain ⟨align, s₁, halign, hpos⟩ :=
      hall _ _ ⟨0⟩ hrun rfl (.alignment (.ptr .unknown 0)) (hptr _)
    cases halign
    exact hpos
  · intro hp ops s id hrun hid q hq
    exact hrun.lays_out hid hproper.ints (hq.mono fun _ => ⟨hp, hproper.pointerSize⟩)

/-- A program with a pair of integers, on a target. -/
def pairOn (t : Target) : Session :=
  (Event.addLayout t).exec ((Event.edit lenderProgram).exec {})

theorem measuredBelow_pair : lenderProgram.structs.MeasuredBelow False ⟨0⟩ := by
  intro x hx
  obtain rfl := Structs.eq_of_reaches (by decide) hx
  refine ⟨rfl, (Structs.founded_of_earlier (by decide) _).not_holds_self, ?_⟩
  show ∀ e ∈ [Ty.int 8, Ty.int 64], e.Measured False
  simp [Ty.Measured]

/-- Pointers of no alignment do not matter to a pair of integers. -/
theorem parse_lays_out_pair :
    (∃ t, (Target.Spec.parse "E-p:32:32-i64:32").result = .ok t ∧ t.LaysOut True) ∧
    ∃ t, (Target.Spec.parse "p:64:0-i64:8").result = .ok t ∧ ¬ t.LaysOut True ∧
      (pairOn t).LaysOut ⟨0⟩ (.layout ⟨0⟩) := by
  have hrun : ∀ t, Runs (fun _ _ _ => True) [.event (.addLayout t), .event (.edit lenderProgram)]
      (pairOn t) := fun t => .step (.edit _ lenderProgram) (.event (.addLayout t)) trivial
  have hread : (Target.Spec.parse "E-p:32:32-i64:32").result = .ok _ := rfl
  have hread' : (Target.Spec.parse "p:64:0-i64:8").result = .ok _ := rfl
  refine ⟨⟨_, hread, (parse_lays_out hread).2.2 (by decide)⟩, _, hread', ?_, ?_⟩
  · exact fun hall => absurd ((parse_lays_out hread').2.1 hall) (by decide)
  · exact (parse_lays_out hread').1 _ _ ⟨0⟩ (hrun _) rfl (.layout ⟨0⟩)
      ⟨trivial, fun st hst => by cases hst; exact measuredBelow_pair⟩

/-- Read from this specification, a target has no size for pointers. -/
theorem parse_unaligned_pointer :
    ∃ t, (Target.Spec.parse "p:64:0").result = .ok t ∧
      let s := (Event.addLayout t).exec {}
      (∃ s', Work.askLayout ⟨0⟩ (fun t S => alignment t S (.ptr .unknown 0)) s = .ok 0 s') ∧
      ∃ s', Work.askLayout ⟨0⟩ (fun t S => allocSize t S (.ptr .unknown 0)) s =
        .error .zeroAlignment s' :=
  ⟨_, rfl, ⟨_, rfl⟩, _, rfl⟩

end KernelObjects
