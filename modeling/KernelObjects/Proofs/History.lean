import KernelObjects.Proofs.Turns
import KernelObjects.Session.Analysis

/-!
# Histories of a session

A client edits the program, makes layouts and analyses, and asks for descriptors, in any order; what
fails leaves its traces. Two things are asked of the client: a struct is given a body only while it
is opaque, and a request names a layout that there is. A policy can restrict the targets on which
requests may be made, by analysis and module name.

Results:
* `Reachable.sound`: after every history, memos are sound and registries are consistent, and the
  descriptors are on targets that the policy admits.
-/
namespace KernelObjects

namespace Flatten

variable {cx : FlattenContext} {α β : Type}

/-! ## Actions that keep order -/

/-- The action keeps a state in order and only advances it, failed or not. -/
def Safe (cx : FlattenContext) (act : Flatten α) : Prop :=
  ∀ s, Orderly cx s → Orderly cx (after act s) ∧ Advances cx s (after act s)

namespace Safe

theorem pure (a : α) : Safe cx (Pure.pure a) :=
  fun s ho => ⟨ho, .refl cx s⟩

theorem get : Safe cx MonadState.get :=
  fun s ho => ⟨ho, .refl cx s⟩

theorem bind {x : Flatten α} {f : α → Flatten β} (hx : Safe cx x) (hf : ∀ a, Safe cx (f a)) :
    Safe cx (x >>= f) := by
  intro s ho
  obtain ⟨ho₁, ha₁⟩ := hx s ho
  cases he : x s with
  | ok a s₁ =>
    rw [after_ok he] at ho₁ ha₁
    obtain ⟨ho₂, ha₂⟩ := hf a s₁ ho₁
    have hb : after (x >>= f) s = after (f a) s₁ := by
      simp only [after, bind_ok (f := f) he]
    rw [hb]
    exact ⟨ho₂, .trans ho₁ ha₁ ha₂⟩
  | error e s₁ =>
    rw [after_error he] at ho₁ ha₁
    rw [after_error (bind_error he)]
    exact ⟨ho₁, ha₁⟩

theorem forM {xs : List β} {f : β → Flatten PUnit} (hf : ∀ b, Safe cx (f b)) :
    Safe cx (xs.forM f) := by
  induction xs with
  | nil => exact pure _
  | cons b bs ih => exact bind (hf b) fun _ => ih

theorem emit (level : Level) (message : String) : Safe cx (emit level message) :=
  fun s ho => ⟨⟨ho.sound, ho.consistent, ho.layout⟩, { Advances.refl cx s with }⟩

/-- Names do not matter to what is in a registry. -/
theorem registerName (st : StructId) :
    Safe cx (onRegistry fun r => r.registerName cx.structs st cx.home cx.module) := by
  intro s ho
  have hh := fun b => s.registry.handle?_registerName cx.structs st b cx.home cx.module
  have hd := s.registry.descriptor_registerName cx.structs st cx.home cx.module
  have hs := s.registry.size_registerName cx.structs st cx.home cx.module
  have he : after (onRegistry fun r => r.registerName cx.structs st cx.home cx.module) s =
      { s with registry := s.registry.registerName cx.structs st cx.home cx.module } := rfl
  rw [he]
  generalize s.registry.registerName cx.structs st cx.home cx.module = r at hh hd hs
  refine ⟨⟨ho.sound, ?_, ho.layout⟩, ⟨.refl _, ?_, ?_, ?_, ?_, ?_, fun _ => .inl⟩⟩
  · exact ho.consistent.congr hs hh fun h => by simp only [hd]; exact ⟨rfl, rfl, rfl, fun _ => .rfl⟩
  · exact fun {b m h} hb => (hh b m).trans hb
  · exact fun {b m h} hb => .inl ((hh b m).symm.trans hb)
  · exact fun {b} ⟨h, hb⟩ => .inl ⟨h, (hh b _).symm.trans hb⟩
  · exact fun _ => by simp only [hd, and_self]
  · exact Nat.le_of_eq hs.symm

theorem handleOf (st : StructId) : Safe cx (handleOf cx st) := by
  intro s ho
  rcases handleOf_spec ho st with ⟨n, s', he, ho', ha, -⟩ | ⟨e, s', he, ho', ha, -⟩
  · rw [after_ok he]; exact ⟨ho', ha⟩
  · rw [after_error he]; exact ⟨ho', ha⟩

theorem meet (st : StructId) : Safe cx (meet cx st) := by
  refine bind (registerName st) fun _ => ?_
  split
  · exact emit _ _
  · exact bind (handleOf st) fun _ => pure _

theorem run : Safe cx (run cx) :=
  bind get fun _ => bind (forM meet) fun _ => bind get fun _ => bind (emit _ _) fun _ => pure _

end Safe

end Flatten

/-! ## Sessions -/

/-- What holds of a session after every history. -/
structure Session.Sound (policy : AnalysisId → String → Target → Prop) (s : Session) : Prop where
  memos : s.layouts.Sound s.program.structs
  registries : ∀ a, (s.analysis a).registry.Consistent s.program.structs s.layouts
  targets : ∀ {a b m h}, (s.analysis a).registry.handle? b m = some h →
    policy a m ((s.analysis a).registry.targetAt s.layouts h)

namespace Session

variable {policy : AnalysisId → String → Target → Prop} {s : Session} {a : AnalysisId}

theorem registry_empty (a : AnalysisId) : (({} : Session).analysis a).registry = {} := by
  have ha : ({} : Session).analysis a = default := by simp [analysis]
  rw [ha]
  rfl

theorem analysis_modify (s : Session) (a a' : AnalysisId) (f : Analysis → Analysis) :
    Session.analysis { s with analyses := s.analyses.modify a.idx f } a' =
      if a' = a ∧ a.idx < s.analyses.size then f (s.analysis a) else s.analysis a' := by
  simp only [analysis, Array.getD_eq_getD_getElem?, Array.getElem?_modify]
  by_cases h : a.idx = a'.idx
  · obtain rfl : a' = a := by cases a; cases a'; simp_all
    by_cases hlt : a'.idx < s.analyses.size
    · simp [hlt]
    · simp [hlt]
  · have : ¬ a' = a := fun he => h (he ▸ rfl)
    simp [h, this]

theorem analysis_takeOver (s : Session) (a a' : AnalysisId) (f : FlattenState) :
    (Work.takeOver a f s).analysis a' =
      if a' = a ∧ a.idx < s.analyses.size then { s.analysis a with registry := f.registry }
      else s.analysis a' :=
  s.analysis_modify a a' fun x => { x with registry := f.registry }

theorem after_flatten {α : Type} (s : Session) (a : AnalysisId) (home : ModuleId)
    (layout : Option LayoutId) (act : FlattenContext → Flatten α) :
    after (Work.flatten a home layout act) s =
      Work.takeOver a (after (act (Work.contextFor s a home layout)) (Work.stateFor s a)) s := by
  simp only [after, Work.flatten, onPart]
  cases act (Work.contextFor s a home layout) (Work.stateFor s a) <;> rfl

namespace Sound

theorem empty (policy : AnalysisId → String → Target → Prop) : Sound policy {} where
  memos id := by
    have hm : (({} : Layouts).get id).memo = ∅ := by simp [Layouts.get]
    exact hm ▸ .empty _ _
  registries a := by rw [registry_empty]; exact .empty _ _
  targets {a b m h} hb := by
    rw [registry_empty] at hb
    simp [Registry.handle?] at hb

/-- A request on a layout that there is finds a state in order. -/
theorem orderly (hs : s.Sound policy) (a : AnalysisId) (home : ModuleId) (layout : Option LayoutId)
    (hl : (layout.getD (s.program.module home).layout).idx < s.layouts.all.size) :
    Flatten.Orderly (Work.contextFor s a home layout) (Work.stateFor s a) :=
  ⟨hs.memos, hs.registries a, hl⟩

theorem takeOver (hs : s.Sound policy) {cx : FlattenContext} (hcx : cx.structs = s.program.structs)
    {f : FlattenState} (ho : Flatten.Orderly cx f)
    (ha : Flatten.Advances cx (Work.stateFor s a) f)
    (hp : policy a cx.module.name (f.layouts.targetOf cx.layout)) :
    (Work.takeOver a f s).Sound policy where
  memos := by
    have := ho.sound
    rwa [hcx] at this
  registries a' := by
    rw [analysis_takeOver]
    split
    · have := ho.consistent
      rwa [hcx] at this
    · exact (hs.registries a').layouts ha.layouts
  targets {a' b m h} hb := by
    rw [analysis_takeOver] at hb ⊢
    split at hb
    · next he =>
      rw [if_pos he, he.1]
      rcases ha.new hb with hold | ⟨rfl, hl⟩
      · have hlt := (hs.registries a).lt hold
        have htgt : f.registry.targetAt f.layouts h =
            (s.analysis a).registry.targetAt s.layouts h := by
          rw [Registry.targetAt, (ha.frame hlt).1]
          exact ha.layouts.targets _ ((hs.registries a).layout hold)
        exact htgt ▸ hs.targets hold
      · have htgt : f.registry.targetAt f.layouts h = f.layouts.targetOf cx.layout := by
          rw [Registry.targetAt, hl]
        exact htgt ▸ hp
    · next he =>
      rw [if_neg he]
      have htgt : (s.analysis a').registry.targetAt f.layouts h =
          (s.analysis a').registry.targetAt s.layouts h :=
        ha.layouts.targets _ ((hs.registries a').layout hb)
      exact htgt ▸ hs.targets hb

theorem flatten {α : Type} (hs : s.Sound policy) {home : ModuleId} {layout : Option LayoutId}
    {act : FlattenContext → Flatten α} (hact : ∀ cx, Flatten.Safe cx (act cx))
    (hl : (layout.getD (s.program.module home).layout).idx < s.layouts.all.size)
    (hp : policy a (s.program.module home).name
      (s.layouts.targetOf (layout.getD (s.program.module home).layout))) :
    (after (Work.flatten a home layout act) s).Sound policy := by
  obtain ⟨ho, ha⟩ := hact _ _ (hs.orderly a home layout hl)
  rw [after_flatten]
  refine hs.takeOver rfl ho ha ?_
  have ht := ha.layouts.targets (Work.contextFor s a home layout).layout hl
  exact ht ▸ hp

theorem edit (hs : s.Sound policy) {P : Program} (hP : s.program.structs.Grows P.structs) :
    Sound policy { s with program := P } where
  memos id := (hs.memos id).grows hP
  registries a := (hs.registries a).grows hP
  targets := hs.targets

theorem addLayout (hs : s.Sound policy) (t : Target) :
    (after (Work.addLayout t) s).Sound policy := by
  have hext : s.layouts.Extends (s.layouts.define t).2 := s.layouts.extends_define t
  refine ⟨Layouts.Sound.define hs.memos t, fun a => (hs.registries a).layouts hext,
    fun {a b m h} hb => ?_⟩
  have htgt : (s.analysis a).registry.targetAt (s.layouts.define t).2 h =
      (s.analysis a).registry.targetAt s.layouts h :=
    hext.targets _ ((hs.registries a).layout hb)
  exact htgt ▸ hs.targets hb

/-- Settings, trackers and the log do not matter, nor does a new analysis. -/
theorem congr (hs : s.Sound policy) {s' : Session} (hP : s'.program = s.program)
    (hL : s'.layouts = s.layouts)
    (hr : ∀ a, (s'.analysis a).registry = (s.analysis a).registry) : s'.Sound policy := by
  refine ⟨?_, fun a => ?_, fun {a b m h} hb => ?_⟩
  · rw [hP, hL]; exact hs.memos
  · rw [hP, hL, hr]; exact hs.registries a
  · rw [hr] at hb ⊢; rw [hL]; exact hs.targets hb

end Sound

end Session

/-- A new analysis knows as little as one that there is not. -/
theorem Session.registry_push (s : Session) (x : Analysis) (hx : x.registry = {}) (a : AnalysisId) :
    (Session.analysis { s with analyses := s.analyses.push x } a).registry =
      (s.analysis a).registry := by
  simp only [analysis, Array.getD_eq_getD_getElem?, Array.getElem?_push]
  split
  · next h => rw [h, Array.getElem?_eq_none (Nat.le_refl _)]; exact hx
  · rfl

/-! ## Events -/

/-- What a client does. -/
inductive Event where
  | edit (P : Program)
  | addLayout (t : Target)
  | addSettings (x : Settings)
  | addAllocator (id : SettingsId) (family : Family) (name : String)
  | addTracker
  | addAnalysis (settings : Option SettingsId) (tracker : Option TrackerId)
  | describe (a : AnalysisId) (st : StructId) (home : ModuleId) (layout : Option LayoutId)
  | locate (a : AnalysisId) (st : StructId) (home : ModuleId) (layout : Option LayoutId)
  | run (a : AnalysisId) (home : ModuleId) (layout : Option LayoutId)

namespace Event

/-- The session after an event, also if it fails. -/
def exec (s : Session) : Event → Session
  | .edit P => { s with program := P }
  | .addLayout t => after (Work.addLayout t) s
  | .addSettings x => after (Work.addSettings x) s
  | .addAllocator id family name => after (Work.addAllocator id family name) s
  | .addTracker => after Work.addTracker s
  | .addAnalysis settings tracker => after (Work.addAnalysis settings tracker) s
  | .describe a st home layout => after (Work.descriptorOf a st home layout) s
  | .locate a st home layout => after (Work.handleOf a st home layout) s
  | .run a home layout => after (Work.run a home layout) s

/-- A request may be made on a layout: it is one of the session, and the policy admits its
target. -/
def Admits (policy : AnalysisId → String → Target → Prop) (s : Session) (a : AnalysisId)
    (home : ModuleId) (layout : Option LayoutId) : Prop :=
  let id := layout.getD (s.program.module home).layout
  id.idx < s.layouts.all.size ∧ policy a (s.program.module home).name (s.layouts.targetOf id)

/-- What is asked of the client. -/
def Allowed (policy : AnalysisId → String → Target → Prop) (s : Session) : Event → Prop
  | .edit P => s.program.structs.Grows P.structs
  | .describe a _ home layout | .locate a _ home layout | .run a home layout =>
    Admits policy s a home layout
  | _ => True

end Event

/-- The sessions that a history leads to. -/
inductive Reachable (policy : AnalysisId → String → Target → Prop) : Session → Prop where
  | init : Reachable policy {}
  | step {s : Session} (h : Reachable policy s) (e : Event) (ha : e.Allowed policy s) :
      Reachable policy (e.exec s)

variable {policy : AnalysisId → String → Target → Prop} {s : Session}

theorem after_descriptorOf (a : AnalysisId) (st : StructId) (home : ModuleId)
    (layout : Option LayoutId) (s : Session) :
    after (Work.descriptorOf a st home layout) s = after (Work.handleOf a st home layout) s := by
  simp only [after, Work.descriptorOf, bind, EStateM.bind]
  cases Work.handleOf a st home layout s <;> rfl

theorem Session.Sound.exec (hs : s.Sound policy) {e : Event} (ha : e.Allowed policy s) :
    (e.exec s).Sound policy := by
  cases e with
  | edit P => exact hs.edit ha
  | addLayout t => exact hs.addLayout t
  | addSettings x => exact hs.congr rfl rfl fun _ => rfl
  | addAllocator id family name => exact hs.congr rfl rfl fun _ => rfl
  | addTracker => exact hs.congr rfl rfl fun _ => rfl
  | addAnalysis settings tracker =>
    cases settings <;> cases tracker <;>
      exact hs.congr rfl rfl fun a => s.registry_push _ rfl a
  | describe a st home layout =>
    rw [Event.exec, after_descriptorOf]
    exact hs.flatten (fun _ => .handleOf st) ha.1 ha.2
  | locate a st home layout => exact hs.flatten (fun _ => .handleOf st) ha.1 ha.2
  | run a home layout => exact hs.flatten (fun _ => .run) ha.1 ha.2

theorem Reachable.sound (h : Reachable policy s) : s.Sound policy := by
  induction h with
  | init => exact .empty policy
  | step _ e ha ih => exact ih.exec ha

/-! ## A small history

A program with a struct, a union and a struct that holds both, one struct that is opaque and one
that holds itself; one layout and one analysis. -/

def smallProgram : Program :=
  let pair : StructDef := { name := "struct.pair", body := some [.int 32, .pointerTo (.int 8)] }
  let value : StructDef := { name := "union.value", body := some [.int 8, .struct ⟨0⟩] }
  let node : StructDef :=
    { name := "struct.node", body := some [.int 16, .array (.struct ⟨0⟩) 2, .struct ⟨1⟩] }
  let hidden : StructDef := { name := "struct.hidden" }
  let loop : StructDef := { name := "struct.loop", body := some [.array (.struct ⟨4⟩) 1] }
  { structs := ⟨#[pair, value, node, hidden, loop]⟩
    modules := #[{ name := "m", layout := ⟨0⟩, sourceFile := "m" }] }

def smallSession : Session :=
  (Event.addAnalysis none none).exec ((Event.addLayout {}).exec ((Event.edit smallProgram).exec {}))

/-- A client starts with any structs. -/
theorem Structs.grows_empty (S : Structs) : ({} : Session).program.structs.Grows S := by
  refine ⟨Nat.zero_le _, fun a ha => ?_⟩
  simp [Structs.get, StructDef.isOpaque] at ha

theorem reachable_smallSession (policy : AnalysisId → String → Target → Prop) :
    Reachable policy smallSession :=
  .step (.step (.step .init (.edit smallProgram) (Structs.grows_empty _)) (.addLayout {}) trivial)
    (.addAnalysis none none) trivial

theorem wellFormed_smallProgram : smallProgram.structs.WellFormed ⟨2⟩ := by
  have hpair : smallProgram.structs.WellFormed ⟨0⟩ := by
    refine .mk rfl (by decide) fun b hb => ?_
    have hinner : smallProgram.structs.embedded ⟨0⟩ = [] := by decide
    rw [← Structs.mem_embedded, hinner] at hb
    cases hb
  have hvalue : smallProgram.structs.WellFormed ⟨1⟩ := by
    refine .mk rfl (by decide) fun b hb => ?_
    have hinner : smallProgram.structs.embedded ⟨1⟩ = [⟨0⟩] := by decide
    rw [← Structs.mem_embedded, hinner, List.mem_singleton] at hb
    exact hb ▸ hpair
  refine .mk rfl (by decide) fun b hb => ?_
  have hinner : smallProgram.structs.embedded ⟨2⟩ = [⟨0⟩, ⟨1⟩] := by decide
  rw [← Structs.mem_embedded, hinner, List.mem_pair] at hb
  rcases hb with rfl | rfl
  · exact hpair
  · exact hvalue

end KernelObjects
