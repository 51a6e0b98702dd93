import Mathlib.Order.WellFounded
import KernelObjects.Proofs.History

/-!
# Requests for a struct

On a layout with positive alignments a request for a struct is met exactly if the struct is well
formed and each struct within reach can be named or has its descriptor already. If it is not well
formed, the fault names the mistake: an opaque struct or a cycle within reach, or a field that
cannot be laid out. If something within reach cannot be written, the fault may be about that.

Results:
* `not_forall_turn`: no work list takes turns forever.
* `Excuse.refutes`, `Excuse.blames`: what an excuse tells about the struct.
* `Session.Sound.handleOf`: when a request is met.
* `handleOf_exact`: all of it, for a session after any history.
* `handleOf_endless`: a well-formed struct that cannot be named, and a cycle that cannot be written.
-/
namespace KernelObjects

/-- A fault that is a caller's mistake. -/
def Fault.isContract : Fault → Bool
  | .noAlignment _ | .notSized _ | .opaqueType .. | .embedsItself _ | .definedNowhere _
  | .sourceNotStruct _ | .sourceNotConstant _ | .fieldIndex .. | .duplicateSite ..
  | .tableFinished _ => true
  | _ => false

namespace Flatten

variable {cx : FlattenContext} {s s' : FlattenState} {root : StructId} {t : Target} {e : Fault}

/-! ## Turns come to an end -/

theorem not_forall_turn (f : Nat → WorkList × FlattenState) :
    ¬ ∀ n, (f n).1.stack ≠ [] ∧ turn cx (f n).1 (f n).2 = .ok (f (n + 1)).1 (f (n + 1)).2 := by
  intro h
  have hwf : WellFounded (Prod.Lex (· < ·) (· < ·) : Nat × Nat → Nat × Nat → Prop) :=
    (Prod.lex Nat.lt_wfRel Nat.lt_wfRel).wf
  refine (wellFounded_iff_isEmpty_descending_chain.1 hwf).false
    ⟨fun n => (unstarted cx (f n).1 (f n).2, (f n).1.stack.length), fun n => ?_⟩
  exact unstarted_turn cx (h n).1 (h n).2

/-! ## Excuses -/

/-- All that a struct holds, and the struct itself, can be named or has its descriptor already. -/
def Named (cx : FlattenContext) (s : FlattenState) (root : StructId) : Prop :=
  ∀ x, cx.structs.Reaches root x → Known cx s x ∨ cx.structs.Nameable x

/-- A struct that has been built was named then, or has been there before. -/
theorem Advances.named_of_known (ho : Orderly cx s') (ha : Advances cx s s')
    (hroot : Known cx s' root) : Named cx s root := by
  obtain ⟨n, hn⟩ := hroot
  exact fun x hx => ha.named (ho.consistent.reaches hn hx)

/-- The only excuse for a well-formed struct is one that cannot be named. -/
theorem Excuse.unnamed_of_wellFormed (ht : t.Aligned) (h : Excuse cx s t root e)
    (hw : cx.structs.WellFormed root) :
    ∃ x, cx.structs.Reaches root x ∧ ¬ Known cx s x ∧ cx.structs.label x = .error e := by
  cases h with
  | cycle reach cycle => exact absurd cycle (hw.reaches reach).founded.not_holds_self
  | noBody reach noBody =>
    have hbody := (hw.reaches reach).has_body
    rw [noBody] at hbody
    cases hbody
  | @unnamed x e reach fresh unnamed => exact ⟨x, reach, fresh, unnamed⟩
  | noLayout reach body inner noLayout =>
    obtain ⟨l, hl⟩ := Structs.exists_layoutOn ht (hw.reaches reach)
    rw [noLayout] at hl
    cases hl

theorem Excuse.refutes (ht : t.Aligned) (h : Excuse cx s t root e) :
    ¬ (cx.structs.WellFormed root ∧ Named cx s root) := by
  rintro ⟨hw, hn⟩
  obtain ⟨x, hx, hfresh, hlabel⟩ := h.unnamed_of_wellFormed ht hw
  obtain ⟨name, hname⟩ := (hn x hx).resolve_left hfresh
  rw [hlabel] at hname
  cases hname

/-- What a fault tells about the struct that was asked for. -/
structure Blames (S : Structs) (root : StructId) (e : Fault) : Prop where
  /-- The fault is one of the contract, or it is about the name of a struct within reach, or the
  type of a field, that cannot be written. -/
  contract : e.isContract = true ∨ (e.isWriting = true ∧ ∃ x, S.Reaches root x ∧
    (S.label x = .error e ∨ ∃ ty ∈ (S.get x).elements, S.text ty.stripArrays = .error e))
  cycle : ∀ text, e = .embedsItself text →
    ∃ x, S.Reaches root x ∧ S.Holds x x ∧ S.structText x = .ok text
  noBody : ∀ name action, e = .opaqueType name action →
    ∃ x, S.Reaches root x ∧ (S.get x).isOpaque = true ∧ S.label x = .ok name

/-- A fault of writing tells that there is something that cannot be written. -/
theorem Blames.of_writing {S : Structs} {x : StructId} (hw : e.isWriting = true)
    (hx : S.Reaches root x) (he : S.label x = .error e ∨
      ∃ ty ∈ (S.get x).elements, S.text ty.stripArrays = .error e) : Blames S root e where
  contract := .inr ⟨hw, x, hx, he⟩
  cycle text h := by rw [h] at hw; cases hw
  noBody name action h := by rw [h] at hw; cases hw

theorem Blames.of_unnamed {S : Structs} {x : StructId} (hx : S.Reaches root x)
    (he : S.label x = .error e) : Blames S root e :=
  .of_writing (S.label_writes x e he) hx (.inl he)

/-- A fault about a field says which type it has, if that can be written. -/
theorem Blames.of_field {S : Structs} {x : StructId} {ty : Ty} (hx : S.Reaches root x)
    (hty : ty ∈ (S.get x).elements) {fault : String → Fault}
    (hc : ∀ text, (fault text).isContract = true)
    (hcycle : ∀ text text', fault text ≠ .embedsItself text')
    (hbody : ∀ text name action, fault text ≠ .opaqueType name action) :
    Blames S root (.worded fault (S.text ty.stripArrays)) := by
  cases h : S.text ty.stripArrays with
  | ok text =>
    rw [Fault.worded_ok]
    exact ⟨.inl (hc text), fun text' he => absurd he (hcycle text text'),
      fun name action he => absurd he (hbody text name action)⟩
  | error e => exact .of_writing (S.text_writes _ e h) hx (.inr ⟨ty, hty, h⟩)

theorem Excuse.blames (ht : t.Aligned) (hty : ∀ x, cx.structs.Reaches root x →
      ∀ ty ∈ (cx.structs.get x).elements, ty.stripArrays ≠ .unknown)
    (h : Excuse cx s t root e) : Blames cx.structs root e := by
  cases h with
  | @cycle x reach cycle =>
    cases hx : cx.structs.structText x with
    | ok text => exact ⟨.inl rfl, fun _ he => by cases he; exact ⟨x, reach, cycle, hx⟩, nofun⟩
    | error e => exact .of_unnamed reach (Structs.label_eq_error_iff.2 hx)
  | @noBody x reach noBody =>
    cases hx : cx.structs.label x with
    | ok name =>
      exact ⟨.inl rfl, nofun, fun _ _ he => by cases he; exact ⟨x, reach, noBody, hx⟩⟩
    | error e => exact .of_unnamed reach hx
  | unnamed reach fresh unnamed => exact .of_unnamed reach unnamed
  | @noLayout x e reach body inner noLayout =>
    obtain ⟨ty, hmem, -, -, rfl | rfl | ⟨-, hu⟩⟩ :=
      Structs.layoutOn_eq_error ht body inner noLayout
    · exact .of_field reach hmem (fun _ => rfl) nofun nofun
    · exact .of_field reach hmem (fun _ => rfl) nofun nofun
    · exact absurd hu (hty x reach ty hmem)

/-- Where no struct within reach has a text that comes to an end, and each one is well formed or
holds itself, neither does the excuse. -/
theorem Excuse.eq_endless (ht : t.Aligned) (h : Excuse cx s t root e)
    (hlabel : ∀ x, cx.structs.Reaches root x → cx.structs.label x = .error .endless)
    (hself : ∀ x, cx.structs.Reaches root x → cx.structs.WellFormed x ∨ cx.structs.Holds x x) :
    e = .endless := by
  cases h with
  | @cycle x reach cycle => rw [Structs.label_eq_error_iff.1 (hlabel x reach), Fault.worded_error]
  | @noBody x reach noBody => rw [hlabel x reach, Fault.worded_error]
  | @unnamed x e reach fresh unnamed =>
    rw [hlabel x reach] at unnamed
    cases unnamed
    rfl
  | @noLayout x e reach body inner noLayout =>
    rcases hself x reach with hw | hx
    · obtain ⟨l, hl⟩ := Structs.exists_layoutOn ht hw
      rw [noLayout] at hl
      cases hl
    · have hfounded : cx.structs.Founded x := .intro x fun b hb => (inner b hb).founded
      exact absurd hx hfounded.not_holds_self

end Flatten

/-! ## Sessions -/

/-- A request of a session is met with the position of a well-formed struct all of which could be
named, or there is an excuse. -/
theorem Session.Sound.handleOf {policy : AnalysisId → String → Target → Prop} {s : Session}
    (hs : s.Sound policy) (a : AnalysisId) (root : StructId) (home : ModuleId)
    (layout : Option LayoutId)
    (hl : (layout.getD (s.program.module home).layout).idx < s.layouts.all.size) :
    let cx := Work.contextFor s a home layout
    let f := after (Flatten.handleOf cx root) (Work.stateFor s a)
    (∃ n, Work.handleOf a root home layout s = .ok n (Work.takeOver a f s) ∧
      f.registry.handle? root (s.program.module home).name = some n ∧
      s.program.structs.WellFormed root ∧ Flatten.Named cx (Work.stateFor s a) root) ∨
    (∃ e, Work.handleOf a root home layout s = .error e (Work.takeOver a f s) ∧
      Flatten.Excuse cx (Work.stateFor s a) (s.layouts.targetOf cx.layout) root e) := by
  intro cx f
  rcases Flatten.handleOf_spec (hs.orderly a home layout hl) root with
    ⟨n, f', he, ho', ha, hn⟩ | ⟨e, f', he, -, -, hx⟩
  · obtain rfl : f = f' := after_ok he
    refine .inl ⟨n, ?_, hn, ho'.consistent.wellFormed hn, ha.named_of_known ho' ⟨n, hn⟩⟩
    simp only [Work.handleOf, Work.flatten, onPart, he]
  · obtain rfl : f = f' := after_error he
    refine .inr ⟨e, ?_, hx⟩
    simp only [Work.handleOf, Work.flatten, onPart, he]

/-- A request on a layout with positive alignments is met for a well-formed struct that can be
named, and so can all that it holds. -/
theorem Session.Sound.handleOf_met {policy : AnalysisId → String → Target → Prop} {s : Session}
    (hs : s.Sound policy) (a : AnalysisId) (root : StructId) (home : ModuleId)
    (layout : Option LayoutId)
    (hl : (layout.getD (s.program.module home).layout).idx < s.layouts.all.size)
    (ht : (s.layouts.targetOf (layout.getD (s.program.module home).layout)).Aligned)
    (hw : s.program.structs.WellFormed root)
    (hn : Flatten.Named (Work.contextFor s a home layout) (Work.stateFor s a) root) :
    let f := after (Flatten.handleOf (Work.contextFor s a home layout) root) (Work.stateFor s a)
    ∃ n, Work.handleOf a root home layout s = .ok n (Work.takeOver a f s) ∧
      f.registry.handle? root (s.program.module home).name = some n := by
  rcases hs.handleOf a root home layout hl with ⟨n, he, hroot, -⟩ | ⟨e, -, hx⟩
  · exact ⟨n, he, hroot⟩
  · exact absurd ⟨hw, hn⟩ (hx.refutes ht)

/-- What a client can rely on when it asks for a struct. -/
structure Session.Request (s : Session) (a : AnalysisId) (root : StructId) (home : ModuleId)
    (layout : Option LayoutId) : Prop where
  /-- The work list comes to an end. -/
  ends : ¬ ∃ run : Nat → Flatten.WorkList × FlattenState,
    run 0 = (.start root, Work.stateFor s a) ∧ ∀ n, (run n).1.stack ≠ [] ∧
      Flatten.turn (Work.contextFor s a home layout) (run n).1 (run n).2 =
        .ok (run (n + 1)).1 (run (n + 1)).2
  /-- The request is met exactly if no opaque struct, no cycle and no field that is neither a struct
  nor a scalar is within reach, and what is within reach can be named or has been built. -/
  met_iff : (∃ n s', Work.handleOf a root home layout s = .ok n s') ↔
    ((∀ x, s.program.structs.Reaches root x → (s.program.structs.get x).isOpaque = false) ∧
      (∀ x, s.program.structs.Reaches root x → ¬ s.program.structs.Holds x x) ∧
      (∀ x, s.program.structs.Reaches root x → ∀ ty ∈ (s.program.structs.get x).elements,
        ty.embedded? = none → ty.stripArrays.isScalar = true)) ∧
    ∀ x, s.program.structs.Reaches root x →
      (∃ i, (s.analysis a).registry.handle? x (s.program.module home).name = some i) ∨
        s.program.structs.Nameable x
  /-- What is returned is the position of the descriptor. -/
  handle : ∀ n s', Work.handleOf a root home layout s = .ok n s' →
    (after (Flatten.handleOf (Work.contextFor s a home layout) root)
      (Work.stateFor s a)).registry.handle? root (s.program.module home).name = some n
  blames : ∀ e s', Work.handleOf a root home layout s = .error e s' →
    Flatten.Blames s.program.structs root e
  /-- It is only asked how a struct is laid out if there is no cycle below and all that the struct
  holds has been built. -/
  asked : ∀ q ∈ (after (Flatten.handleOf (Work.contextFor s a home layout) root)
      (Work.stateFor s a)).asked,
    (∀ x, s.program.structs.Reaches q.struct x → ¬ s.program.structs.Holds x x) ∧
      ∀ b, s.program.structs.Holds q.struct b → ∃ i < q.built,
        (after (Flatten.handleOf (Work.contextFor s a home layout) root)
          (Work.stateFor s a)).registry.handle? b (s.program.module home).name = some i

/-- After any history, this holds of every request on a layout with positive alignments. -/
theorem handleOf_exact {s : Session} (h : Reachable (fun _ _ _ => True) s) (a : AnalysisId)
    (root : StructId) (home : ModuleId) (layout : Option LayoutId)
    (hl : (layout.getD (s.program.module home).layout).idx < s.layouts.all.size)
    (ht : (s.layouts.targetOf (layout.getD (s.program.module home).layout)).Aligned)
    (hty : ∀ x, s.program.structs.Reaches root x →
      ∀ ty ∈ (s.program.structs.get x).elements, ty.stripArrays ≠ .unknown) :
    s.Request a root home layout where
  ends := fun ⟨run, _, hrun⟩ => Flatten.not_forall_turn run hrun
  met_iff := by
    rw [← Structs.wellFormed_iff]
    constructor
    · rintro ⟨n, s', hok⟩
      rcases h.sound.handleOf a root home layout hl with ⟨_, -, -, hw, hn⟩ | ⟨e, he, -⟩
      · exact ⟨hw, hn⟩
      · rw [he] at hok
        cases hok
    · rintro ⟨hw, hn⟩
      obtain ⟨n, he, -⟩ := h.sound.handleOf_met a root home layout hl ht hw hn
      exact ⟨n, _, he⟩
  handle n s' hok := by
    rcases h.sound.handleOf a root home layout hl with ⟨n', he, hn, -⟩ | ⟨e, he, -⟩
    · rw [he] at hok
      cases hok
      exact hn
    · rw [he] at hok
      cases hok
  blames e s' herr := by
    rcases h.sound.handleOf a root home layout hl with ⟨n, he, -⟩ | ⟨e', he, hx⟩
    · rw [he] at herr
      cases herr
    · rw [he] at herr
      cases herr
      have hblames := hx.blames ht
      exact hblames hty
  asked q hq := by
    have ho := h.sound.orderly a home layout hl
    rcases (Flatten.Safe.handleOf root _ ho).2.asked q hq with hq | ⟨hfounded, hbuilt⟩
    · cases hq
    · refine ⟨fun x hx => (hfounded.reaches hx).not_holds_self, fun b hb => ?_⟩
      obtain ⟨i, hi, hlt⟩ := hbuilt b hb
      exact ⟨i, hlt, hi⟩

/-! ## Requests of the small session -/

/-- The small session after a request for its largest struct. -/
def askedSession : Session :=
  (Event.locate ⟨0⟩ ⟨2⟩ ⟨0⟩ none).exec smallSession

theorem reachable_askedSession : Reachable (fun _ _ t => t = {}) askedSession :=
  .step (reachable_smallSession _) (.locate ⟨0⟩ ⟨2⟩ ⟨0⟩ none) ⟨by decide, by decide⟩

theorem program_askedSession : askedSession.program = smallProgram := by
  rw [askedSession, Event.exec, Work.handleOf, Session.after_flatten]
  rfl

theorem nameable_smallProgram (x : StructId) : smallProgram.structs.Nameable x :=
  Structs.nameable_of_forall_named (by decide) x

theorem typed_smallProgram (x : StructId) :
    ∀ ty ∈ (smallProgram.structs.get x).elements, ty.stripArrays ≠ .unknown := by
  rcases Nat.lt_or_ge x.idx smallProgram.structs.size with hlt | hle
  · have hall : ∀ i < smallProgram.structs.size,
        ∀ ty ∈ (smallProgram.structs.get ⟨i⟩).elements, ty.stripArrays ≠ .unknown := by decide
    exact hall x.idx hlt
  · intro ty hty
    have hget : smallProgram.structs.get x = {} := by
      simp only [Structs.get, Array.getD_eq_getD_getElem?, Array.getElem?_eq_none hle]
      rfl
    rw [hget] at hty
    cases hty

theorem met_smallSession :
    ∃ n, Work.handleOf ⟨0⟩ ⟨2⟩ ⟨0⟩ none smallSession = .ok n askedSession ∧
      (askedSession.analysis ⟨0⟩).registry.handle? ⟨2⟩ "m" = some n := by
  have hs : smallSession.Sound fun _ _ _ => True := (reachable_smallSession _).sound
  obtain ⟨n, he, hn⟩ := hs.handleOf_met ⟨0⟩ ⟨2⟩ ⟨0⟩ none (by decide) (by decide)
    wellFormed_smallProgram fun x _ => .inr (nameable_smallProgram x)
  have hasked : askedSession = _ := after_ok he
  refine ⟨n, hasked ▸ he, ?_⟩
  rw [hasked, Session.analysis_takeOver, if_pos (by decide)]
  exact hn

theorem handle?_askedSession :
    ∃ n, (askedSession.analysis ⟨0⟩).registry.handle? ⟨2⟩ "m" = some n := by
  obtain ⟨n, -, hn⟩ := met_smallSession
  exact ⟨n, hn⟩

theorem handleOf_exact_small :
    (∃ n s', Work.handleOf ⟨0⟩ ⟨2⟩ ⟨0⟩ none smallSession = .ok n s') ∧
      ¬ ∃ n s', Work.handleOf ⟨0⟩ ⟨4⟩ ⟨0⟩ none smallSession = .ok n s' := by
  have hloop : smallProgram.structs.Holds ⟨4⟩ ⟨4⟩ :=
    .single ((Structs.mem_embedded _).1 (by decide))
  constructor
  · exact (handleOf_exact (reachable_smallSession _) ⟨0⟩ ⟨2⟩ ⟨0⟩ none (by decide) (by decide)
      fun x _ => typed_smallProgram x).met_iff.2
      ⟨Structs.wellFormed_iff.1 wellFormed_smallProgram, fun x _ => .inr (nameable_smallProgram x)⟩
  · intro hok
    exact ((handleOf_exact (reachable_smallSession _) ⟨0⟩ ⟨4⟩ ⟨0⟩ none (by decide) (by decide)
      fun x _ => typed_smallProgram x).met_iff.1 hok).1.2.1 ⟨4⟩ .refl hloop

/-! ## Structs that cannot be named -/

/-- Two structs without names: one holds a pointer to itself, the other one holds itself. -/
def knotProgram : Program :=
  let linked : StructDef := { body := some [.pointerTo (.struct ⟨0⟩)] }
  let nested : StructDef := { body := some [.struct ⟨1⟩] }
  { structs := ⟨#[linked, nested]⟩
    modules := #[{ name := "m", layout := ⟨0⟩, sourceFile := "m" }] }

def knotSession : Session :=
  (Event.addAnalysis none none).exec ((Event.addLayout {}).exec ((Event.edit knotProgram).exec {}))

theorem sound_knotSession : knotSession.Sound fun _ _ _ => True :=
  (Reachable.step (.step (.step .init (.edit knotProgram) (Structs.grows_empty _)) (.addLayout {})
    trivial) (.addAnalysis none none) trivial).sound

theorem wellFormed_knotProgram : knotProgram.structs.WellFormed ⟨0⟩ := by
  have hinner : knotProgram.structs.embedded ⟨0⟩ = [] := by decide
  refine .mk rfl (by decide) fun b hb => ?_
  rw [← Structs.mem_embedded, hinner] at hb
  cases hb

theorem holds_knotProgram : knotProgram.structs.Holds ⟨1⟩ ⟨1⟩ :=
  .single ((Structs.mem_embedded _).1 (by decide))

theorem label_knotProgram {st x : StructId} (hst : st = ⟨0⟩ ∨ st = ⟨1⟩)
    (hx : knotProgram.structs.Reaches st x) :
    knotProgram.structs.label x = .error .endless ∧
      (knotProgram.structs.WellFormed x ∨ knotProgram.structs.Holds x x) := by
  rcases hst with rfl | rfl
  · obtain rfl := Structs.eq_of_reaches (by decide) hx
    exact ⟨rfl, .inl wellFormed_knotProgram⟩
  · obtain rfl := Structs.eq_of_reaches (by decide) hx
    exact ⟨rfl, .inr holds_knotProgram⟩

theorem endless_knotSession {st : StructId} (hst : st = ⟨0⟩ ∨ st = ⟨1⟩) :
    ∃ s', Work.handleOf ⟨0⟩ st ⟨0⟩ none knotSession = .error .endless s' := by
  rcases sound_knotSession.handleOf ⟨0⟩ st ⟨0⟩ none (by decide) with
    ⟨n, -, -, -, hnamed⟩ | ⟨e, he, hx⟩
  · -- nothing has a descriptor yet
    rcases hnamed st .refl with ⟨i, hi⟩ | ⟨name, hname⟩
    · rcases hst with rfl | rfl <;> cases hi
    · cases ((label_knotProgram hst .refl).1.symm.trans hname)
  · obtain rfl := hx.eq_endless (by decide) (fun x hx => (label_knotProgram hst hx).1)
      fun x hx => (label_knotProgram hst hx).2
    exact ⟨_, he⟩

/-- The first struct is well formed, but the request for it fails; the second one holds itself, but
the fault does not say so. -/
theorem handleOf_endless :
    knotProgram.structs.WellFormed ⟨0⟩ ∧
    (∃ s', Work.handleOf ⟨0⟩ ⟨0⟩ ⟨0⟩ none knotSession = .error .endless s') ∧
    knotProgram.structs.Holds ⟨1⟩ ⟨1⟩ ∧
    ∃ s', Work.handleOf ⟨0⟩ ⟨1⟩ ⟨0⟩ none knotSession = .error .endless s' :=
  ⟨wellFormed_knotProgram, endless_knotSession (.inl rfl), holds_knotProgram,
    endless_knotSession (.inr rfl)⟩

end KernelObjects
