import KernelObjects.Proofs.Containers
import KernelObjects.Proofs.Derived

/-!
# Failed requests

A request that fails leaves a registry in which all is as it should be: what it added is finished,
and what was there before has at most gained containers, all of them new. Once the missing bodies
are given, the request can be made again. It is met if it would be met had nothing been asked
before, and then it ends in the same way. It is met besides if all that cannot be named had its
descriptor before.

Results:
* `Consistent.shape_unique`: on one target, all registries have the same shape of a struct.
* `Flatten.handleOf_remains`: what a failed request leaves of a registry.
* `Session.retry`: a request of two analyses that know different structs.
* `handleOf_failed`: all of it, for a session after any run.
* `handleOf_failed_unnamed`: a struct that could be named once, and was.
-/
namespace KernelObjects

/-! ## Shapes -/

theorem Registry.Consistent.shape_unique {S : Structs} {L L' : Layouts} {r r' : Registry}
    {m m' : String} {b : StructId} {h h' : Nat} {t : Target} (hr : r.Consistent S L)
    (hr' : r'.Consistent S L')
    (ht : ∀ {b h}, r.handle? b m = some h → r.targetAt L h = t)
    (ht' : ∀ {b h}, r'.handle? b m' = some h → r'.targetAt L' h = t)
    (hb : r.handle? b m = some h) (hb' : r'.handle? b m' = some h') :
    (r'.descriptor h').shape = (r.descriptor h).shape := by
  refine hr.shape_induction
    (P := fun b s => ∀ h', r'.handle? b m' = some h' → (r'.descriptor h').shape = s) ht
    (fun b nested l _ hn h' hb' => ?_) hb h' hb'
  rw [hr'.shape hb', ht' hb']
  refine Structs.expand_congr rfl (fun _ _ => rfl) rfl fun c hbc => ⟨?_, rfl⟩
  obtain ⟨k, hk, -⟩ := hr'.inner hb' hbc
  rw [shapeIn_of_handle hk]
  exact hn c hbc k hk

namespace Flatten

/-! ## What remains -/

/-- What a failed request for `root` makes of a registry `r`. -/
structure Remains (cx : FlattenContext) (t : Target) (root : StructId) (r r' : Registry) :
    Prop where
  fresh : r'.handle? root cx.module.name = none
  added : ∀ n, r.size ≤ n → n < r'.size → ∃ b, r'.handle? b cx.module.name = some n ∧
    cx.structs.Reaches root b ∧ cx.structs.WellFormed b ∧ (r'.descriptor n).finished = true ∧
    r'.descriptor n = { assembled cx t (r'.under cx.module.name) b with
      containers := (r'.descriptor n).containers }
  handles : ∀ {b m n}, r.handle? b m = some n → r'.handle? b m = some n
  contents : ∀ n < r.size, r'.descriptor n =
    { r.descriptor n with containers := (r'.descriptor n).containers }
  containers : ∀ n < r.size, ∀ p ∈ (r.descriptor n).containers, p ∈ (r'.descriptor n).containers
  gained : ∀ n < r.size, ∀ p ∈ (r'.descriptor n).containers, p ∈ (r.descriptor n).containers ∨
    ∃ k, r.size ≤ k ∧ k < r'.size ∧ r'.handle? p.1 cx.module.name = some k
  named : ∀ {b m n}, r'.handle? b m = some n → ∀ p ∈ (r'.descriptor n).containers,
    ∃ k, r'.handle? p.1 m = some k

variable {cx : FlattenContext} {s s' : FlattenState} {t : Target} {root : StructId} {e : Fault}

/-- The containers of an old descriptor that were there before are those that have descriptors. -/
theorem Advances.containers_old (ho : Orderly cx s) (ho' : Orderly cx s') (ha : Advances cx s s')
    {b c : StructId} {m : String} {n k : Nat} (hb : s.registry.handle? b m = some n)
    (hc : s.registry.handle? c m = some k) (o : Int) :
    (c, o) ∈ (s'.registry.descriptor n).containers ↔
      (c, o) ∈ (s.registry.descriptor n).containers := by
  have hoff : ∀ x, cx.structs.Reaches c x → s'.registry.offsetIn cx.structs s'.layouts m x =
      s.registry.offsetIn cx.structs s.layouts m x := by
    -- all that the container holds had a descriptor too, and keeps its target
    intro x hx
    obtain ⟨i, hi⟩ := ho.consistent.reaches hc hx
    rw [Registry.offsetIn_of_handle hi, Registry.offsetIn_of_handle (ha.old hi),
      ha.targetAt_old ho hi]
  rw [ho.consistent.containers hb, ho'.consistent.containers (ha.old hb)]
  simp only [hc, ha.old hc, Option.isSome_some, true_and]
  exact ⟨fun hp => hp.congr hoff, fun hp => hp.congr fun x hx => (hoff x hx).symm⟩

/-- No descriptor loses a container. -/
theorem Advances.containers_kept (ho : Orderly cx s) (ho' : Orderly cx s') (ha : Advances cx s s')
    {n : Nat} (hlt : n < s.registry.size) {p : StructId × Int}
    (hp : p ∈ (s.registry.descriptor n).containers) :
    p ∈ (s'.registry.descriptor n).containers := by
  obtain ⟨b, m, hb⟩ := ho.consistent.keyed n hlt
  obtain ⟨k, hk⟩ := Option.isSome_iff_exists.1 ((ho.consistent.containers hb p).1 hp).1
  exact (ha.containers_old ho ho' hb hk p.2).2 hp

theorem handleOf_remains (ht : OnTarget cx t s) (hfail : handleOf cx root s = .error e s') :
    Remains cx t root s.registry s'.registry := by
  have ho := ht.orderly
  have hafter : after (handleOf cx root) s = s' := after_error hfail
  obtain ⟨ho', ha⟩ : Orderly cx s' ∧ Advances cx s s' := hafter ▸ Safe.handleOf root s ho
  have hadds : Adds cx s s' := hafter ▸ (Additive.handleOf root).adds s ho
  have hbuilds : ¬ cx.structs.Builds t (Known cx s) root := by
    have := handleOf_builds ht (.start cx s) root
    rwa [hfail] at this
  refine ⟨?_, fun n hle hlt => ?_, ha.old, hadds.kept, fun n hlt p hp => ?_, fun n hlt p hp => ?_,
    fun {b m n} hb p hp => ?_⟩
  · rw [Option.eq_none_iff_forall_ne_some]
    exact fun n hn =>
      hbuilds (Known.builds ⟨n, hn⟩ (ha.onTarget ho' ht) (ha.since (.start cx s)))
  · obtain ⟨b, hb, hmade⟩ := hadds.made n hle hlt
    have hgets := handleOf_gets ht (.start cx s) root b
    rw [hafter] at hgets
    rw [ht.target] at hmade
    refine ⟨b, hb, ?_, ho'.consistent.wellFormed hb, by rw [hmade]; rfl, hmade⟩
    -- had it been known before, it would have kept a position below `n`
    obtain ⟨k, hk⟩ | ⟨d, hd⟩ := hgets.1 ⟨n, hb⟩
    · have hkeep := ha.old hk
      rw [hb] at hkeep
      cases hkeep
      exact absurd (ho.consistent.lt hk) (Nat.not_lt.2 hle)
    · exact Structs.reaches_of_getsTo hd
  · exact ha.containers_kept ho ho' hlt hp
  · obtain ⟨b, m, hb⟩ := ho.consistent.keyed n hlt
    obtain ⟨k, hk⟩ :=
      Option.isSome_iff_exists.1 ((ho'.consistent.containers (ha.old hb) p).1 hp).1
    rcases hadds.old_or_made ho ho' ha hk with ⟨-, hold⟩ | ⟨hle, rfl, -⟩
    · exact .inl ((ha.containers_old ho ho' hb hold p.2).1 hp)
    · exact .inr ⟨k, hle, ho'.consistent.lt hk, hk⟩
  · exact Option.isSome_iff_exists.1 ((ho'.consistent.containers hb p).1 hp).1

end Flatten

/-! ## Requests -/

theorem Event.Admits.congr {policy : AnalysisId → String → Target → Prop} {s s' : Session}
    {a : AnalysisId} {home : ModuleId} {layout : Option LayoutId}
    (h : Admits policy s a home layout)
    (hm : s'.program.module home = s.program.module home) (hL : s.layouts.Extends s'.layouts) :
    Admits policy s' a home layout := by
  obtain ⟨hlt, hp⟩ := h
  simp only [Admits, hm, hL.targets _ hlt]
  exact ⟨Nat.lt_of_lt_of_le hlt hL.size_le, hp⟩

namespace Session

section

variable {s s' : Session} {a : AnalysisId} {root : StructId} {home : ModuleId}
  {layout : Option LayoutId} {t : Target}

theorem tracker_takeOver (h : (s.analysis a).tracker.idx < s.trackers.size) (f : FlattenState) :
    (Work.takeOver a f s).tracker (s.analysis a).tracker = f.tracker := by
  simp [Session.tracker, Work.takeOver, Array.getD_eq_getD_getElem?, Array.getElem_modify, h]

theorem handleOf_met_iff (root : StructId)
    (ht : Flatten.OnTarget (Work.contextFor s a home layout) t (Work.stateFor s a)) :
    (∃ n s', Work.handleOf a root home layout s = .ok n s') ↔ s.program.structs.Lays t root ∧
      ∀ x, s.program.structs.Reaches root x →
        s.Has a x (s.program.module home).name ∨ s.program.structs.Nameable x := by
  have hbuilds := Flatten.handleOf_builds ht (.start _ _) root
  rw [handleOf_eq]
  cases he : Flatten.handleOf (Work.contextFor s a home layout) root (Work.stateFor s a) with
  | ok n f =>
    rw [he] at hbuilds
    exact ⟨fun _ => ⟨hbuilds.lays, hbuilds.named⟩, fun _ => ⟨n, _, rfl⟩⟩
  | error e f =>
    rw [he] at hbuilds
    refine ⟨?_, fun hl => absurd ⟨hl.1, hl.2⟩ hbuilds⟩
    rintro ⟨n, s', hok⟩
    cases hok

/-- A request that is met leaves a consistent registry on the one target. -/
theorem handleOf_met (ht : Flatten.OnTarget (Work.contextFor s a home layout) t (Work.stateFor s a))
    (ha : a.idx < s.analyses.size) {n : Nat}
    (hmet : Work.handleOf a root home layout s = .ok n s') :
    (s'.analysis a).registry.handle? root (s.program.module home).name = some n ∧
    (s'.analysis a).registry.Consistent s.program.structs s'.layouts ∧
    ∀ {b h}, (s'.analysis a).registry.handle? b (s.program.module home).name = some h →
      (s'.analysis a).registry.targetAt s'.layouts h = t := by
  rw [handleOf_eq] at hmet
  rcases Flatten.handleOf_spec ht.orderly root with ⟨n', f, he, ho', hadv, hn⟩ | ⟨e, f, he, -⟩
  · rw [he] at hmet
    cases hmet
    rw [registry_takeOver ha]
    exact ⟨hn, ho'.consistent, (hadv.onTarget ho' ht).all⟩
  · rw [he] at hmet
    cases hmet

/-- How a request of an analysis `a` compares with the same request of `a₀`, which knows nothing. -/
structure Retry (s : Session) (a : AnalysisId) (s₀ : Session) (a₀ : AnalysisId) (root : StructId)
    (home : ModuleId) (layout : Option LayoutId) (t : Target) : Prop where
  /-- The one is met if the struct has a layout, and what is within reach can be named or has been
  built. -/
  again : (∃ n s', Work.handleOf a root home layout s = .ok n s') ↔ s.program.structs.Lays t root ∧
    ∀ x, s.program.structs.Reaches root x →
      s.Has a x (s.program.module home).name ∨ s.program.structs.Nameable x
  /-- The other one is met if the struct has a layout, and what is within reach can be named. -/
  fresh : (∃ n s', Work.handleOf a₀ root home layout s₀ = .ok n s') ↔
    s.program.structs.Lays t root ∧
      ∀ x, s.program.structs.Reaches root x → s.program.structs.Nameable x
  retries : (∃ n s', Work.handleOf a₀ root home layout s₀ = .ok n s') →
    ∃ n s', Work.handleOf a root home layout s = .ok n s'
  /-- They are met together unless what has been built cannot be named any more. -/
  agree : (∀ x, s.program.structs.Reaches root x → s.Has a x (s.program.module home).name →
      s.program.structs.Nameable x) →
    ((∃ n s', Work.handleOf a root home layout s = .ok n s') ↔
      ∃ n s', Work.handleOf a₀ root home layout s₀ = .ok n s')
  shape : ∀ n s' n₀ s₀', Work.handleOf a root home layout s = .ok n s' →
    Work.handleOf a₀ root home layout s₀ = .ok n₀ s₀' →
    ((s'.analysis a).registry.descriptor n).shape =
      ((s₀'.analysis a₀).registry.descriptor n₀).shape

/-- On one target, requests for a struct find the same shape, whatever the registries know. -/
theorem retry (root : StructId) {s₀ : Session} {a₀ : AnalysisId}
    (ht : Flatten.OnTarget (Work.contextFor s a home layout) t (Work.stateFor s a))
    (ht₀ : Flatten.OnTarget (Work.contextFor s₀ a₀ home layout) t (Work.stateFor s₀ a₀))
    (ha : a.idx < s.analyses.size) (ha₀ : a₀.idx < s₀.analyses.size)
    (hP : s₀.program = s.program) (hnew : (s₀.analysis a₀).registry = {}) :
    Retry s a s₀ a₀ root home layout t := by
  have hagain := handleOf_met_iff root ht
  have hfresh : (∃ n s', Work.handleOf a₀ root home layout s₀ = .ok n s') ↔
      s.program.structs.Lays t root ∧
        ∀ x, s.program.structs.Reaches root x → s.program.structs.Nameable x := by
    have hnone : ∀ x m, ¬ s₀.Has a₀ x m := by
      rintro x m ⟨i, hi⟩
      rw [hnew] at hi
      simp [Registry.handle?] at hi
    rw [handleOf_met_iff root ht₀, hP]
    simp only [hnone, false_or]
  refine ⟨hagain, hfresh, ?_, fun hbuilt => ?_, fun n s' n₀ s₀' hmet hmet₀ => ?_⟩
  · rw [hagain, hfresh]
    exact fun h => ⟨h.1, fun x hx => .inr (h.2 x hx)⟩
  · rw [hagain, hfresh]
    exact and_congr_right fun _ => forall₂_congr fun x hx => or_iff_right_of_imp (hbuilt x hx)
  · obtain ⟨hn, hr, hall⟩ := handleOf_met ht ha hmet
    obtain ⟨hn₀, hr₀, hall₀⟩ := handleOf_met ht₀ ha₀ hmet₀
    rw [hP] at hr₀
    exact hr₀.shape_unique hr hall₀ hall hn₀ hn

end

theorem addAnalysis_ok {s s' : Session} {settings : Option SettingsId} {tracker : Option TrackerId}
    {a : AnalysisId} (h : Work.addAnalysis settings tracker s = .ok a s') :
    s'.program = s.program ∧ s'.layouts = s.layouts ∧ a.idx < s'.analyses.size ∧
      (s'.analysis a).registry = {} := by
  cases settings <;> cases tracker <;> cases h <;> simp [analysis]

/-- A new analysis knows nothing, so all that it knows is on the target. -/
theorem onTarget_addAnalysis {s s' : Session} {a a' : AnalysisId} {home : ModuleId}
    {layout : Option LayoutId} {t : Target} {settings : Option SettingsId}
    {tracker : Option TrackerId}
    (ht : Flatten.OnTarget (Work.contextFor s a home layout) t (Work.stateFor s a))
    (hnew : Work.addAnalysis settings tracker s = .ok a' s') :
    Flatten.OnTarget (Work.contextFor s' a' home layout) t (Work.stateFor s' a') := by
  obtain ⟨hP, hL, -, hr⟩ := addAnalysis_ok hnew
  have hlayouts : (Work.stateFor s' a').layouts = s.layouts := hL
  have hregistry : (Work.stateFor s' a').registry = {} := hr
  have hstructs : (Work.contextFor s' a' home layout).structs = s.program.structs := by
    rw [← hP]
    rfl
  have hid : (Work.contextFor s' a' home layout).layout =
      (Work.contextFor s a home layout).layout := by
    simp only [Work.contextFor, hP]
  refine ⟨⟨?_, ?_, ?_⟩, ?_, fun {b h} hb => ?_⟩
  · rw [hlayouts, hstructs]
    exact ht.orderly.sound
  · rw [hregistry]
    exact .empty _ _
  · rw [hlayouts, hid]
    exact ht.orderly.layout
  · rw [hlayouts, hid]
    exact ht.target
  · rw [hregistry] at hb
    simp [Registry.handle?] at hb

end Session

/-- What a failed request leaves of a session. -/
structure Session.Failure (σ : AnalysisId → String → Target) (s s' : Session) (a : AnalysisId)
    (root : StructId) (home : ModuleId) (layout : Option LayoutId) : Prop where
  remains : Flatten.Remains (Work.contextFor s a home layout) (σ a (s.program.module home).name)
    root (s.analysis a).registry (s'.analysis a).registry
  others : ∀ a', a' ≠ a → s'.analysis a' = s.analysis a'
  /-- The tracker was offered what the request added. -/
  offered : s'.tracker (s.analysis a).tracker =
    Flatten.offered (s'.analysis a).registry (s.analysis a).registry.size
      ((s'.analysis a).registry.size - (s.analysis a).registry.size)
      (s.tracker (s.analysis a).tracker)
  /-- Once opaque structs are given bodies, the request compares like this with one of a new
  analysis on the same layout. -/
  retry : ∀ P, s.program.structs.Grows P.structs → P.module home = s.program.module home →
    ∀ settings tracker a₀ s₀,
      Work.addAnalysis settings tracker ((Event.edit P).exec s') = .ok a₀ s₀ →
      Retry ((Event.edit P).exec s') a s₀ a₀ root home layout (σ a (s.program.module home).name)

/-- After any run, this is what a request leaves that fails. -/
theorem handleOf_failed (σ : AnalysisId → String → Target) {ops : List Operation} {s s' : Session}
    (h : Runs (fun a m t => t = σ a m) ops s) {a : AnalysisId} {root : StructId} {home : ModuleId}
    {layout : Option LayoutId} {e : Fault} (ha : a.idx < s.analyses.size)
    (hadm : Event.Admits (fun a m t => t = σ a m) s a home layout)
    (hfail : Work.handleOf a root home layout s = .error e s') :
    s.Failure σ s' a root home layout := by
  have hs' : s' = (Event.locate a root home layout).exec s := (after_error hfail).symm
  have hsound : s'.Sound fun a m t => t = σ a m :=
    hs' ▸ (h.step (.event (.locate a root home layout)) hadm).sound
  have ht := h.sound.onTarget hadm
  rw [Session.handleOf_eq] at hfail
  cases he : Flatten.handleOf (Work.contextFor s a home layout) root (Work.stateFor s a) with
  | ok n f =>
    rw [he] at hfail
    cases hfail
  | error e f =>
    rw [he] at hfail
    cases hfail
    have hr' : ((Work.takeOver a f s).analysis a).registry = f.registry :=
      Session.registry_takeOver ha f
    have hadds := (Flatten.Additive.handleOf root).adds _ ht.orderly
    have hadv := (Flatten.Safe.handleOf root _ ht.orderly).2
    rw [after_error he] at hadds hadv
    refine ⟨?_, fun a' hne => ?_, ?_, ?_⟩
    · rw [hr']
      exact Flatten.handleOf_remains ht he
    · rw [Session.analysis_takeOver, if_neg fun h => hne h.1]
    · rw [hr', Session.tracker_takeOver (h.wired a ha).2]
      exact hadds.tracker
    · intro P hP hmodule settings tracker a₀ s₀ hnew
      have ht' := (hsound.edit hP).onTarget (hadm.congr hmodule hadv.layouts)
      obtain ⟨hprogram, -, ha₀, hempty⟩ := Session.addAnalysis_ok hnew
      have hname : σ a (P.module home).name = σ a (s.program.module home).name := by rw [hmodule]
      have ht₀ := Session.onTarget_addAnalysis ht' hnew
      refine hname ▸ Session.retry root ht' ht₀ ?_ ha₀ hprogram hempty
      rw [Event.exec, Work.takeOver]
      simpa using ha

/-- The lender with an analysis of its own. -/
def lendingSession : Session :=
  (Event.addAnalysis none none).exec lenderSession

/-- The program in which the opaque struct has got a body. -/
def settledProgram : Program :=
  lenderProgram.setBody ⟨1⟩ [.int 32] false

theorem runs_lendingSession (policy : AnalysisId → String → Target → Prop) :
    Runs policy
      [.event (.addAnalysis none none), .event (.addLayout {}), .event (.edit lenderProgram)]
      lendingSession :=
  .step (runs_lenderSession policy) (.event (.addAnalysis none none)) ⟨nofun, nofun⟩

theorem not_lays_lenderProgram : ¬ lenderProgram.structs.Lays {} ⟨2⟩ := by
  intro hl
  have hembeds : lenderProgram.structs.Embeds ⟨2⟩ ⟨1⟩ := (Structs.mem_embedded _).1 (by decide)
  exact absurd (hl.embeds hembeds).wellFormed.has_body (by decide)

theorem lays_settledProgram : settledProgram.structs.Lays {} ⟨2⟩ :=
  ⟨{ offsets := #[0, 16], size := 24, alignment := 8 }, by decide +kernel⟩

theorem nameable_settledProgram (x : StructId) : settledProgram.structs.Nameable x :=
  Structs.nameable_of_forall_named (by decide) x

/-- The lender is asked for before and after the opaque struct in it gets a body. -/
theorem handleOf_failed_lender :
    ∃ e s', Work.handleOf ⟨0⟩ ⟨2⟩ ⟨0⟩ none lendingSession = .error e s' ∧
      (s'.analysis ⟨0⟩).registry.handle? ⟨2⟩ "m" = none ∧
      ∃ a₀ s₀ n s₁ n₀ s₂,
        Work.addAnalysis none none ((Event.edit settledProgram).exec s') = .ok a₀ s₀ ∧
        Work.handleOf ⟨0⟩ ⟨2⟩ ⟨0⟩ none ((Event.edit settledProgram).exec s') = .ok n s₁ ∧
        Work.handleOf a₀ ⟨2⟩ ⟨0⟩ none s₀ = .ok n₀ s₂ ∧
        ((s₁.analysis ⟨0⟩).registry.descriptor n).shape =
          ((s₂.analysis a₀).registry.descriptor n₀).shape := by
  have hrun := runs_lendingSession fun _ _ t => t = {}
  have hadm : Event.Admits (fun _ _ t => t = {}) lendingSession ⟨0⟩ ⟨0⟩ none :=
    ⟨by decide, by decide⟩
  cases hfail : Work.handleOf ⟨0⟩ ⟨2⟩ ⟨0⟩ none lendingSession with
  | ok n s' =>
    have hmet := (Session.handleOf_met_iff ⟨2⟩ (hrun.sound.onTarget hadm)).1 ⟨n, s', hfail⟩
    exact absurd hmet.1 not_lays_lenderProgram
  | error e s' =>
    have hfailure := handleOf_failed (fun _ _ => {}) hrun (by decide) hadm hfail
    have hretry :=
      hfailure.retry settledProgram (Structs.grows_setBody rfl _ _) rfl none none _ _ rfl
    obtain ⟨n₀, s₂, hn₀⟩ :=
      hretry.fresh.2 ⟨lays_settledProgram, fun x _ => nameable_settledProgram x⟩
    obtain ⟨n, s₁, hn⟩ := hretry.retries ⟨n₀, s₂, hn₀⟩
    have hname : (Work.contextFor lendingSession ⟨0⟩ ⟨0⟩ none).module.name = "m" := by decide
    have hroot := hfailure.remains.fresh
    rw [hname] at hroot
    exact ⟨e, s', rfl, hroot, _, _, n, s₁, n₀, s₂, rfl, hn, hn₀, hretry.shape n s₁ n₀ s₂ hn hn₀⟩

/-! ## A name that is lost -/

/-- A struct without a name, which holds a pointer to an opaque one, in a struct that cannot be
flattened yet. -/
def owingProgram : Program :=
  let hidden : StructDef := {}
  let holder : StructDef := { body := some [.pointerTo (.struct ⟨0⟩)] }
  let later : StructDef := { name := "struct.later" }
  let owing : StructDef := { name := "struct.owing", body := some [.struct ⟨1⟩, .struct ⟨2⟩] }
  { structs := ⟨#[hidden, holder, later, owing]⟩
    modules := #[{ name := "m", layout := ⟨0⟩, sourceFile := "m" }] }

def owingSession : Session :=
  (Event.addAnalysis none none).exec ((Event.addLayout {}).exec ((Event.edit owingProgram).exec {}))

/-- The program in which the opaque structs have bodies: the one that the pointer leads to has a
pointer to itself. -/
def paidProgram : Program :=
  (owingProgram.setBody ⟨0⟩ [.pointerTo (.struct ⟨0⟩)] false).setBody ⟨2⟩ [.int 32] false

theorem grows_paidProgram : owingProgram.structs.Grows paidProgram.structs :=
  (Structs.grows_setBody rfl _ _).trans (Structs.grows_setBody rfl _ _)

theorem sound_owingSession : owingSession.Sound fun _ _ t => t = {} :=
  (Reachable.step (.step (.step .init (.edit owingProgram) (Structs.grows_empty _)) (.addLayout {})
    trivial) (.addAnalysis none none) trivial).sound

theorem admits_owingSession :
    Event.Admits (fun _ _ t => t = {}) owingSession ⟨0⟩ ⟨0⟩ none :=
  ⟨by decide, by decide⟩

theorem builds_owingProgram (K : StructId → Prop) : owingProgram.structs.Builds {} K ⟨1⟩ where
  lays := ⟨_, rfl⟩
  named x hx := by
    obtain rfl := Structs.eq_of_reaches (by decide) hx
    exact .inr ⟨"\x7b \x7b  \x7d* \x7d", rfl⟩

/-- The request for the largest struct fails, but the struct without a name is built. -/
theorem has_owingSession :
    ((Event.locate ⟨0⟩ ⟨3⟩ ⟨0⟩ none).exec owingSession).Has ⟨0⟩ ⟨1⟩ "m" := by
  have hembedded : owingProgram.structs.embedded ⟨3⟩ = [⟨1⟩, ⟨2⟩] := by decide
  refine (sound_owingSession.exec_has (.refl _) (e := .locate ⟨0⟩ ⟨3⟩ ⟨0⟩ none) rfl
    admits_owingSession).2 (.inr ⟨⟨rfl, by decide, rfl⟩, 2, .inr ?_⟩)
  have hprogram : owingSession.program.structs = owingProgram.structs := rfl
  rw [hprogram, hembedded]
  exact .inl (.inl ⟨builds_owingProgram _, rfl⟩)

theorem not_lays_owingProgram : ¬ owingProgram.structs.Lays {} ⟨3⟩ := by
  intro hl
  have hembeds : owingProgram.structs.Embeds ⟨3⟩ ⟨2⟩ := (Structs.mem_embedded _).1 (by decide)
  exact absurd (hl.embeds hembeds).wellFormed.has_body (by decide)

theorem lays_paidProgram : paidProgram.structs.Lays {} ⟨3⟩ :=
  ⟨{ offsets := #[0, 8], size := 16, alignment := 8 }, by decide +kernel⟩

theorem nameable_paidProgram {x : StructId} (hx : paidProgram.structs.Reaches ⟨3⟩ x) :
    x = ⟨1⟩ ∨ paidProgram.structs.Nameable x := by
  have hmem := Structs.mem_of_reaches [⟨3⟩, ⟨1⟩, ⟨2⟩] (by decide) (by decide) hx
  simp only [List.mem_cons, List.not_mem_nil, or_false] at hmem
  rcases hmem with rfl | rfl | rfl
  · exact .inr (.of_named (by decide))
  · exact .inl rfl
  · exact .inr (.of_named (by decide))

theorem not_nameable_paidProgram : ¬ paidProgram.structs.Nameable ⟨1⟩ := by
  have hlabel : paidProgram.structs.label ⟨1⟩ = .error .endless := rfl
  rintro ⟨name, hname⟩
  rw [hlabel] at hname
  cases hname

/-- Once the bodies are given, the analysis that was asked before meets the request, and a new one
does not. -/
theorem handleOf_failed_unnamed :
    ∃ e s' a₀ s₀, Work.handleOf ⟨0⟩ ⟨3⟩ ⟨0⟩ none owingSession = .error e s' ∧
      owingProgram.structs.Grows paidProgram.structs ∧
      Work.addAnalysis none none ((Event.edit paidProgram).exec s') = .ok a₀ s₀ ∧
      (∃ n s₁, Work.handleOf ⟨0⟩ ⟨3⟩ ⟨0⟩ none ((Event.edit paidProgram).exec s') = .ok n s₁) ∧
      ¬ ∃ n s₂, Work.handleOf a₀ ⟨3⟩ ⟨0⟩ none s₀ = .ok n s₂ := by
  have ht := sound_owingSession.onTarget admits_owingSession
  cases hfail : Work.handleOf ⟨0⟩ ⟨3⟩ ⟨0⟩ none owingSession with
  | ok n s' =>
    have hmet := (Session.handleOf_met_iff ⟨3⟩ ht).1 ⟨n, s', hfail⟩
    exact absurd hmet.1 not_lays_owingProgram
  | error e s' =>
    have hs' : (Event.locate ⟨0⟩ ⟨3⟩ ⟨0⟩ none).exec owingSession = s' := after_error hfail
    have hbuilt := has_owingSession
    have hsteady := sound_owingSession.exec_steady (e := .locate ⟨0⟩ ⟨3⟩ ⟨0⟩ none) rfl
      admits_owingSession
    have hsound := sound_owingSession.exec (e := .locate ⟨0⟩ ⟨3⟩ ⟨0⟩ none) admits_owingSession
    rw [hs'] at hbuilt hsteady hsound
    have hgrows : s'.program.structs.Grows paidProgram.structs := by
      rw [hsteady.program]
      exact grows_paidProgram
    have hadm : Event.Admits (fun _ _ t => t = {}) ((Event.edit paidProgram).exec s')
        ⟨0⟩ ⟨0⟩ none := admits_owingSession.congr rfl hsteady.layouts
    have ht' := (hsound.edit hgrows).onTarget hadm
    obtain ⟨a₀, s₀, hnew⟩ : ∃ a₀ s₀,
        Work.addAnalysis none none ((Event.edit paidProgram).exec s') = .ok a₀ s₀ := ⟨_, _, rfl⟩
    obtain ⟨hprogram, -, ha₀, hempty⟩ := Session.addAnalysis_ok hnew
    have ha : (⟨0⟩ : AnalysisId).idx < ((Event.edit paidProgram).exec s').analyses.size := by
      have hsize : ((Event.edit paidProgram).exec s').analyses.size = s'.analyses.size := rfl
      rw [hsize, hsteady.size]
      decide
    have hretry :=
      Session.retry ⟨3⟩ ht' (Session.onTarget_addAnalysis ht' hnew) ha ha₀ hprogram hempty
    refine ⟨e, s', a₀, s₀, rfl, grows_paidProgram, hnew, ?_, fun hmet => ?_⟩
    · refine hretry.again.2 ⟨lays_paidProgram, fun x hx => ?_⟩
      rcases nameable_paidProgram hx with rfl | hname
      · exact .inl hbuilt
      · exact .inr hname
    · have hembeds : paidProgram.structs.Embeds ⟨3⟩ ⟨1⟩ := (Structs.mem_embedded _).1 (by decide)
      exact not_nameable_paidProgram ((hretry.fresh.1 hmet).2 ⟨1⟩ (.single hembeds))

end KernelObjects
