import KernelObjects.Proofs.Containers
import KernelObjects.Proofs.Derived

/-!
# Flattening a struct twice

Two runs that build the descriptor of one struct, each after a history of its own, find the same if
they have the same structs and the same settings, and if the struct and all structs that it holds
are on the same targets in both. The reference counters are the same too, unless some were marked in
the structs that it holds before it was built.

Results:
* `Registry.Derived.agrees_twice`: what two registries find about one struct.
* `Runs.lt_of_noted`: notes are about descriptors that there are.
* `findings_repeatable`: what two runs find when they build a struct.
* `Session.Sound.locate`: what a request for a struct without a descriptor adds.
* `findings_not_repeatable`: on other targets, or with marked counters, they find something else.
-/
namespace KernelObjects

namespace Registry

variable {L L' : Layouts} {r r' : Registry} {cx cx' : FlattenContext}
  {marked marked' sized sized' : Nat → Prop} {b : StructId} {m m' : String} {h h' : Nat}

/-- The target of the descriptor that a struct has under a name. -/
def target? (L : Layouts) (r : Registry) (b : StructId) (m : String) : Option Target :=
  (r.handle? b m).map (r.targetAt L)

theorem target?_of_handle (hb : r.handle? b m = some h) :
    r.target? L b m = some (r.targetAt L h) := by
  simp only [target?, hb, Option.map_some]

theorem Unmarked.embeds {S : Structs} {c : StructId} (hu : r.Unmarked S marked m b)
    (hbc : S.Embeds b c) : r.Unmarked S marked m c :=
  fun x hx => hu x (.head hbc hx)

/-- Two registries on the same structs and settings find the same about a struct that is, with all
that it holds, on the same targets in both. -/
theorem Derived.agrees_twice (hr : r.Consistent cx.structs L) (hr' : r'.Consistent cx'.structs L')
    (hd : r.Derived L cx marked sized) (hd' : r'.Derived L' cx' marked' sized')
    (hS : cx'.structs = cx.structs) (hmarks : cx'.settings.marks = cx.settings.marks)
    (ht : ∀ x, cx.structs.Reaches b x → r'.target? L' x m' = r.target? L x m)
    (hb : r.handle? b m = some h) (hb' : r'.handle? b m' = some h') :
    Descriptor.Agrees
      (r.Unmarked cx.structs marked m b ∧ r'.Unmarked cx'.structs marked' m' b)
      (r.descriptor h) (r'.descriptor h') := by
  have hf := (hr.wellFormed hb).founded
  induction hf generalizing h h' with
  | intro b _ ih =>
    have htarget : r'.targetAt L' h' = r.targetAt L h := by
      have := ht b .refl
      rw [target?_of_handle hb, target?_of_handle hb'] at this
      exact Option.some.inj this
    have hold := (hd.agrees hb).symm
    have hnew := hd'.agrees hb'
    rw [htarget] at hnew
    simp only [Settings.marks, Prod.mk.injEq] at hmarks
    -- both are assembled on the same target, from parts that agree by induction
    refine ((hold.mono And.left).trans (.assembled (.of_structs hS hmarks.1 hmarks.2 _ b)
      fun c hbc => ?_)).trans (hnew.mono And.right)
    have hbc' : cx'.structs.Embeds b c := hS ▸ hbc
    obtain ⟨k, hk, -⟩ := hr.inner hb hbc
    obtain ⟨k', hk', -⟩ := hr'.inner hb' hbc'
    rw [under_of_handle hk, under_of_handle hk']
    exact (ih c hbc (fun x hx => ht x (.head hbc hx)) hk hk').mono
      fun hu => ⟨hu.1.embeds hbc, hu.2.embeds hbc'⟩

end Registry

/-! ## What stays -/

namespace Session

variable {policy : AnalysisId → String → Target → Prop} {s s' : Session} {op : Operation}

theorem Change.size_le (hs : s.Sound policy) (hc : Change policy s op s') (a : AnalysisId) :
    (s.analysis a).registry.size ≤ (s'.analysis a).registry.size := by
  cases hc with
  | edited evolves => exact Nat.le_refl _
  | @flattened _ _ a' home layout _ admits additive =>
    rw [after_flatten, analysis_takeOver]
    split
    · next he =>
      rw [he.1]
      exact ((additive _).safe _ (hs.orderly a' home layout admits.1)).2.size_le
    · exact Nat.le_refl _
  | retained retains => exact Nat.le_of_eq (retains.size a).symm

theorem Change.handle?_old (hs : s.Sound policy) (hc : Change policy s op s') {a : AnalysisId}
    {b : StructId} {m : String} {h : Nat} (hb : (s.analysis a).registry.handle? b m = some h) :
    (s'.analysis a).registry.handle? b m = some h := by
  cases hc with
  | edited evolves => exact hb
  | @flattened _ _ a' home layout _ admits additive =>
    rw [after_flatten, analysis_takeOver]
    split
    · next he =>
      rw [he.1] at hb
      exact ((additive _).safe _ (hs.orderly a' home layout admits.1)).2.old hb
    · exact hb
  | retained retains => rw [retains.handles]; exact hb

end Session

theorem Runs.lt_of_noted {policy : AnalysisId → String → Target → Prop} {ops : List Operation}
    {s : Session} (hrun : Runs policy ops s) {a : AnalysisId} {h : Nat} {n : Note}
    (hmem : .note (.listed a h) n ∈ ops) : h < (s.analysis a).registry.size := by
  induction hrun with
  | init => cases hmem
  | step hrun op ha ih =>
    refine Nat.lt_of_lt_of_le ?_ ((Session.exec_change ha).size_le hrun.sound a)
    rcases List.mem_cons.1 hmem with rfl | hmem
    · exact ha
    · exact ih hmem

/-! ## Two runs -/

/-- A run whose last operation builds the descriptor of a struct, at the position `h`. -/
structure LastBuilds (op : Operation) (ops : List Operation) (s : Session) (a : AnalysisId)
    (b : StructId) (m : String) (h : Nat) : Prop where
  run : Runs (fun _ _ _ => True) ops s
  allowed : op.Allowed (fun _ _ _ => True) s
  fresh : (s.analysis a).registry.handle? b m = none
  built : ((op.exec s).analysis a).registry.handle? b m = some h

namespace LastBuilds

variable {op : Operation} {ops : List Operation} {s : Session} {a : AnalysisId} {b : StructId}
  {m : String} {h : Nat}

theorem size_le (hb : LastBuilds op ops s a b m h) : (s.analysis a).registry.size ≤ h := by
  -- a position that was taken before still belongs to the struct that it was taken for
  refine Nat.le_of_not_lt fun hlt => ?_
  have hs := hb.run.sound
  obtain ⟨c, m', hc⟩ := (hs.registries a).keyed h hlt
  have hkept := (Session.exec_change hb.allowed).handle?_old hs hc
  obtain ⟨rfl, rfl⟩ := ((hb.run.step op hb.allowed).sound.registries a).unique hb.built hkept
  have hfresh := hb.fresh
  rw [hc] at hfresh
  cases hfresh

/-- Nothing was noted about a descriptor before it was built. -/
theorem not_marked (hb : LastBuilds op ops s a b m h) : ¬ Marked (op :: ops) a h := by
  rintro ⟨offset, hmem⟩
  refine Nat.not_lt.2 hb.size_le ?_
  rcases List.mem_cons.1 hmem with rfl | hmem
  · exact hb.allowed
  · exact hb.run.lt_of_noted hmem

theorem unmarked (hb : LastBuilds op ops s a b m h) {S : Structs}
    (hm : ∀ x, S.Holds b x → ∀ k, ((op.exec s).analysis a).registry.handle? x m = some k →
      ¬ Marked (op :: ops) a k) :
    ((op.exec s).analysis a).registry.Unmarked S (Marked (op :: ops) a) m b := by
  intro x hx k hk
  rcases Relation.reflTransGen_iff_eq_or_transGen.1 hx with rfl | hx
  · have hbuilt := hb.built
    rw [hk] at hbuilt
    cases hbuilt
    exact hb.not_marked
  · exact hm x hx k hk

end LastBuilds

/-- Two runs that build a struct, with the same structs and settings and the same targets of all
that it reaches, find the same table, offset map, element types, credentials and function pointers,
whatever was asked and noted before; and they find the same reference counters if none were marked
in what the struct holds. -/
theorem findings_repeatable {op₁ op₂ : Operation} {ops₁ ops₂ : List Operation} {s₁ s₂ : Session}
    {a₁ a₂ : AnalysisId} {b : StructId} {m₁ m₂ : String} {i₁ i₂ : Nat}
    (h₁ : LastBuilds op₁ ops₁ s₁ a₁ b m₁ i₁) (h₂ : LastBuilds op₂ ops₂ s₂ a₂ b m₂ i₂)
    (hS : (op₂.exec s₂).program.structs = (op₁.exec s₁).program.structs)
    (hconfig : (op₂.exec s₂).config a₂ = (op₁.exec s₁).config a₁) :
    let S := (op₁.exec s₁).program.structs
    let r₁ := ((op₁.exec s₁).analysis a₁).registry
    let r₂ := ((op₂.exec s₂).analysis a₂).registry
    (∀ x, S.Reaches b x →
      r₂.target? (op₂.exec s₂).layouts x m₂ = r₁.target? (op₁.exec s₁).layouts x m₁) →
    (r₂.descriptor i₂).findings = (r₁.descriptor i₁).findings ∧
    ((∀ x, S.Holds b x → ∀ k, r₁.handle? x m₁ = some k → ¬ Marked (op₁ :: ops₁) a₁ k) →
      (∀ x, S.Holds b x → ∀ k, r₂.handle? x m₂ = some k → ¬ Marked (op₂ :: ops₂) a₂ k) →
      (r₂.descriptor i₂).counters = (r₁.descriptor i₁).counters) := by
  intro S r₁ r₂ ht
  have hrun₁ := h₁.run.step op₁ h₁.allowed
  have hrun₂ := h₂.run.step op₂ h₂.allowed
  have hr₁ : r₁.Consistent ((op₁.exec s₁).reader a₁).structs _ := hrun₁.sound.registries a₁
  have hr₂ : r₂.Consistent ((op₂.exec s₂).reader a₂).structs _ := hrun₂.sound.registries a₂
  have hagrees := (hrun₁.derived a₁).agrees_twice hr₁ hr₂ (hrun₂.derived a₂) hS hconfig ht
    h₁.built h₂.built
  refine ⟨hagrees.findings, fun hm₁ hm₂ => hagrees.counters ⟨h₁.unmarked hm₁, h₂.unmarked ?_⟩⟩
  have hS' : ((op₂.exec s₂).reader a₂).structs = S := hS
  rw [hS']
  exact hm₂

/-! ## A request on its own -/

/-- From `s` to `s'`, a request for a struct without a descriptor was met, on the target `t` and
with the position `i`. -/
structure Session.Located (cx : FlattenContext) (a : AnalysisId) (root : StructId) (m : String)
    (t : Target) (s s' : Session) (i : Nat) : Prop where
  program : s'.program = s.program
  layouts : s.layouts.Extends s'.layouts
  analyses : s'.analyses.size = s.analyses.size
  config : s'.config a = s.config a
  handle : (s'.analysis a).registry.handle? root m = some i
  target : (s'.analysis a).registry.targetAt s'.layouts i = t
  made : (s'.analysis a).registry.descriptor i =
    { Flatten.assembled cx t ((s'.analysis a).registry.under m) root with
      containers := ((s'.analysis a).registry.descriptor i).containers }
  old : ∀ {b m k}, (s.analysis a).registry.handle? b m = some k →
    (s'.analysis a).registry.handle? b m = some k ∧
    (s'.analysis a).registry.targetAt s'.layouts k = (s.analysis a).registry.targetAt s.layouts k ∧
    Flatten.taken ((s'.analysis a).registry.descriptor k) =
      Flatten.taken ((s.analysis a).registry.descriptor k)

theorem Session.Sound.locate {policy : AnalysisId → String → Target → Prop} {s : Session}
    (hs : s.Sound policy) (a : AnalysisId) (root : StructId) (home : ModuleId)
    (layout : Option LayoutId) {t : Target} (ha : a.idx < s.analyses.size)
    (hl : (Work.contextFor s a home layout).layout.idx < s.layouts.all.size)
    (ht : s.layouts.targetOf (Work.contextFor s a home layout).layout = t)
    (hroot : s.program.structs.Lays t root)
    (hnamed : ∀ x, s.program.structs.Reaches root x → s.program.structs.Nameable x)
    (hfresh : (s.analysis a).registry.handle? root (s.program.module home).name = none) :
    ∃ i, Located (Work.contextFor s a home layout) a root (s.program.module home).name t s
      ((Event.locate a root home layout).exec s) i := by
  have ho := hs.orderly a home layout hl
  have hadds := (Flatten.Additive.handleOf root).adds _ ho
  subst ht
  rcases Flatten.handleOf_spec ho root with ⟨i, f, he, ho', hadv, hi⟩ | ⟨e, f, he, -, -, hx⟩
  · rw [after_ok he] at hadds
    have hexec : (Event.locate a root home layout).exec s = Work.takeOver a f s := by
      rw [Event.exec, Work.handleOf, after_flatten, after_ok he]
    obtain ⟨-, hold⟩ | ⟨-, -, htarget, hmade⟩ := hadds.old_or_made ho ho' hadv hi
    · cases hfresh.symm.trans hold
    refine ⟨i, ?_⟩
    rw [hexec]
    constructor
    · rfl
    · exact hadv.layouts
    · exact Array.size_modify
    · exact config_takeOver ..
    all_goals rw [registry_takeOver ha]
    · exact hi
    · exact htarget
    · exact hmade
    · exact fun hb => ⟨hadv.old hb, hadv.targetAt_old ho hb, hadds.taken_kept (ho.consistent.lt hb)⟩
  · exact absurd ⟨hroot, fun x hreach => .inr (hnamed x hreach)⟩ (hx.not_builds (.start _ _))

/-! ## What does not repeat -/

/-! The union of the small program is flattened as the pair in it. -/

theorem embeds_smallProgram {b c : StructId} (hb : smallProgram.structs.Embeds b c)
    (hlt : b.idx < 2) : b = ⟨1⟩ ∧ c = ⟨0⟩ := by
  rw [← Structs.mem_embedded] at hb
  have hinner : ∀ i < 2, ∀ c ∈ smallProgram.structs.embedded ⟨i⟩, i = 1 ∧ c = ⟨0⟩ := by decide
  obtain ⟨hi, rfl⟩ := hinner b.idx hlt c hb
  exact ⟨congrArg StructId.mk hi, rfl⟩

theorem reaches_pair {x : StructId} (hx : smallProgram.structs.Reaches ⟨0⟩ x) : x = ⟨0⟩ :=
  Structs.eq_of_reaches (by decide) hx

theorem reaches_union {x : StructId} (hx : smallProgram.structs.Reaches ⟨1⟩ x) :
    x = ⟨1⟩ ∨ x = ⟨0⟩ := by
  have hmem : x ∈ [⟨1⟩, ⟨0⟩] := Structs.mem_of_reaches [⟨1⟩, ⟨0⟩] (by decide) (by decide) hx
  simpa using hmem

/-- The shape of the union, given the target of the pair in it. -/
def unionShape (t : Target) : Shape :=
  smallProgram.structs.expand {} (fun _ => smallProgram.structs.expand t (fun _ => {}) ⟨0⟩) ⟨1⟩

theorem shape_union {L : Layouts} {r : Registry} {m : String} {h k : Nat} {t : Target}
    (hr : r.Consistent smallProgram.structs L) (hh : r.handle? ⟨1⟩ m = some h)
    (hk : r.handle? ⟨0⟩ m = some k) (ht : r.targetAt L h = {}) (htk : r.targetAt L k = t) :
    (r.descriptor h).shape = unionShape t := by
  have hpair : (r.descriptor k).shape = smallProgram.structs.expand t (fun _ => {}) ⟨0⟩ := by
    rw [hr.shape hk, htk]
    refine Structs.expand_congr rfl (fun _ _ => rfl) rfl fun b hb => ?_
    cases (embeds_smallProgram hb (by decide)).1
  rw [hr.shape hh, ht]
  refine Structs.expand_congr rfl (fun _ _ => rfl) rfl fun b hb => ⟨?_, rfl⟩
  rw [(embeds_smallProgram hb (by decide)).2, Registry.shapeIn_of_handle hk, hpair]

theorem counter_pair {cx : FlattenContext} {a : AnalysisId} {m : String} {t : Target}
    {s s' : Session} {k : Nat} (hS : cx.structs = smallProgram.structs)
    (hk : Session.Located cx a ⟨0⟩ m t s s' k) :
    ((s'.analysis a).registry.descriptor k).refcountOffsets = ∅ := by
  rw [hk.made, Flatten.assembled, Flatten.withBody, hS]
  rfl

theorem counter_union {cx : FlattenContext} {a : AnalysisId} {m : String} {s s' : Session}
    {i k : Nat} (hS : cx.structs = smallProgram.structs)
    (hi : Session.Located cx a ⟨1⟩ m {} s s' i)
    (hk : (s'.analysis a).registry.handle? ⟨0⟩ m = some k) :
    4 ∈ ((s'.analysis a).registry.descriptor i).refcountOffsets ↔
      4 ∈ ((s'.analysis a).registry.descriptor k).refcountOffsets := by
  have hwidest : widestFrom smallProgram.structs {} (smallProgram.structs.get ⟨1⟩).elements 0 none =
      some ⟨1, .struct ⟨0⟩, 16⟩ := rfl
  have hunion : (smallProgram.structs.get ⟨1⟩).isUnion = true := rfl
  have hembed : (Ty.struct ⟨0⟩).embedded? = some ⟨0⟩ := rfl
  rw [hi.made, ← Registry.under_of_handle hk]
  simp only [Flatten.assembled, Flatten.withBody, hS, hunion, hwidest, if_true, Flatten.withField,
    hembed]
  show 4 ∈ (OffsetSet.union ∅ (if _ then _ else _)) ↔ _
  split <;> simp

/-- A machine with pointers of four bytes. -/
def narrow : Target :=
  { pointerSize := 4, pointerAlign := 4 }

/-- The small session with a second layout. -/
def twoTargets : Session :=
  (Event.addLayout narrow).exec smallSession

def twoTargetsOps : List Operation :=
  [.event (.addLayout narrow), .event (.addAnalysis none none), .event (.addLayout {}),
    .event (.edit smallProgram)]

theorem runs_twoTargets (policy : AnalysisId → String → Target → Prop) :
    Runs policy twoTargetsOps twoTargets :=
  .step (.step (.step (.edit _ smallProgram) (.event (.addLayout {})) trivial)
    (.event (.addAnalysis none none)) ⟨nofun, nofun⟩) (.event (.addLayout narrow)) trivial

/-- A request for the pair, or for the union with the pair in it. -/
def askFor (st : StructId) (layout : Option LayoutId) : Operation :=
  .event (.locate ⟨0⟩ st ⟨0⟩ layout)

/-- The session after the union was asked for. -/
def unionAsked (s : Session) : Session :=
  (askFor ⟨1⟩ none).exec s

/-- A session with the same program, layouts and settings. -/
structure Prepared (ops : List Operation) (s : Session) : Prop where
  run : Runs (fun _ _ _ => True) ops s
  program : s.program = smallProgram
  layouts : twoTargets.layouts.Extends s.layouts
  analyses : 0 < s.analyses.size
  config : s.config ⟨0⟩ = twoTargets.config ⟨0⟩

/-- A session in which the pair has been asked for and the union has not. -/
structure PairKnown (ops : List Operation) (s : Session) (k : Nat) : Prop extends
    Prepared ops s where
  pair : (s.analysis ⟨0⟩).registry.handle? ⟨0⟩ "m" = some k
  fresh : (s.analysis ⟨0⟩).registry.handle? ⟨1⟩ "m" = none

/-- From `s` to `s'` the union was built on the wide target, from the pair at the position `k`. -/
structure UnionBuilt (s s' : Session) (k i : Nat) : Prop where
  structs : s'.program.structs = smallProgram.structs
  config : s'.config ⟨0⟩ = twoTargets.config ⟨0⟩
  target : (s'.analysis ⟨0⟩).registry.target? s'.layouts ⟨1⟩ "m" = some {}
  pair : (s'.analysis ⟨0⟩).registry.target? s'.layouts ⟨0⟩ "m" =
    some ((s.analysis ⟨0⟩).registry.targetAt s.layouts k)
  shape : ((s'.analysis ⟨0⟩).registry.descriptor i).shape =
    unionShape ((s.analysis ⟨0⟩).registry.targetAt s.layouts k)
  counter : 4 ∈ ((s'.analysis ⟨0⟩).registry.descriptor i).refcountOffsets ↔
    4 ∈ ((s.analysis ⟨0⟩).registry.descriptor k).refcountOffsets

theorem prepared_twoTargets : Prepared twoTargetsOps twoTargets :=
  ⟨runs_twoTargets _, rfl, .refl _, by decide, rfl⟩

theorem Prepared.ask {ops : List Operation} {s : Session} (h : Prepared ops s) (st : StructId)
    (layout : Option LayoutId) {t : Target} (hl : (layout.getD ⟨0⟩).idx < 2)
    (ht : twoTargets.layouts.targetOf (layout.getD ⟨0⟩) = t)
    (hlays : smallProgram.structs.Lays t st)
    (hfresh : (s.analysis ⟨0⟩).registry.handle? st "m" = none) :
    let s' := (askFor st layout).exec s
    Prepared (askFor st layout :: ops) s' ∧ ∃ i, LastBuilds (askFor st layout) ops s ⟨0⟩ st "m" i ∧
      Session.Located (Work.contextFor s ⟨0⟩ ⟨0⟩ layout) ⟨0⟩ st "m" t s s' i := by
  intro s'
  have hmodule : s.program.module ⟨0⟩ = smallProgram.module ⟨0⟩ := by rw [h.program]
  have hname : (s.program.module ⟨0⟩).name = "m" := by rw [hmodule]; rfl
  have hlayout : (Work.contextFor s ⟨0⟩ ⟨0⟩ layout).layout = layout.getD ⟨0⟩ := by
    show layout.getD (s.program.module ⟨0⟩).layout = _
    rw [hmodule]
    rfl
  have hsize : (layout.getD ⟨0⟩).idx < twoTargets.layouts.all.size := hl
  have hid : (Work.contextFor s ⟨0⟩ ⟨0⟩ layout).layout.idx < s.layouts.all.size := by
    rw [hlayout]
    exact Nat.lt_of_lt_of_le hsize h.layouts.size_le
  have htarget : s.layouts.targetOf (Work.contextFor s ⟨0⟩ ⟨0⟩ layout).layout = t := by
    rw [hlayout, h.layouts.targets _ hsize, ht]
  obtain ⟨i, hi⟩ := h.run.sound.locate ⟨0⟩ st ⟨0⟩ layout h.analyses hid htarget
    (by rw [h.program]; exact hlays)
    (fun x _ => by rw [h.program]; exact nameable_smallProgram x)
    (by rw [hname]; exact hfresh)
  rw [hname] at hi
  refine ⟨⟨h.run.step _ ⟨hid, trivial⟩, ?_, ?_, ?_, ?_⟩, i, ⟨h.run, ⟨hid, trivial⟩, hfresh, ?_⟩, hi⟩
  · exact hi.program.trans h.program
  · exact h.layouts.trans hi.layouts
  · exact hi.analyses.symm ▸ h.analyses
  · exact hi.config.trans h.config
  · exact hi.handle

theorem pairKnown_askFor (layout : Option LayoutId) {t : Target} (hl : (layout.getD ⟨0⟩).idx < 2)
    (ht : twoTargets.layouts.targetOf (layout.getD ⟨0⟩) = t)
    (hlays : smallProgram.structs.Lays t ⟨0⟩) :
    let s := (askFor ⟨0⟩ layout).exec twoTargets
    ∃ k, PairKnown (askFor ⟨0⟩ layout :: twoTargetsOps) s k ∧
      (s.analysis ⟨0⟩).registry.targetAt s.layouts k = t ∧
      ((s.analysis ⟨0⟩).registry.descriptor k).refcountOffsets = ∅ := by
  intro s
  obtain ⟨hprepared, k, -, hk⟩ := prepared_twoTargets.ask ⟨0⟩ layout hl ht hlays (by decide)
  have hsound : twoTargets.Sound fun _ _ t' => t' = t := (runs_twoTargets _).sound
  have hnone : ¬ s.Has ⟨0⟩ ⟨1⟩ "m" := by
    intro hhas
    rcases (hsound.exec_has (.refl _) (e := .locate ⟨0⟩ ⟨0⟩ ⟨0⟩ layout) rfl ⟨hl, ht⟩).1 hhas with
      ⟨n, hn⟩ | ⟨-, n, hn⟩
    · rw [show (twoTargets.analysis ⟨0⟩).registry = {} from rfl] at hn
      simp [Registry.handle?] at hn
    · cases reaches_pair (Structs.reaches_of_getsTo hn)
  refine ⟨k, ⟨hprepared, hk.handle, ?_⟩, hk.target, ?_⟩
  · exact Option.eq_none_iff_forall_ne_some.2 fun n hn => hnone ⟨n, hn⟩
  · exact counter_pair rfl hk

namespace PairKnown

variable {ops : List Operation} {s : Session} {k : Nat}

theorem note (h : PairKnown ops s k) (n : Note) :
    PairKnown (.note (.listed ⟨0⟩ k) n :: ops) ((Operation.note (.listed ⟨0⟩ k) n).exec s) k := by
  have hlt := (h.run.sound.registries ⟨0⟩).lt h.pair
  have hretains : Session.Retains (.note (.listed ⟨0⟩ k) n) s
      ((Operation.note (.listed ⟨0⟩ k) n).exec s) := .note s _ n
  exact {
    run := h.run.step _ hlt
    program := h.program
    layouts := h.layouts
    analyses := Nat.lt_of_lt_of_le h.analyses hretains.size_le
    config := (hretains.config h.run.wired ⟨0⟩ h.analyses).trans h.config
    pair := (hretains.handles ..).trans h.pair
    fresh := (hretains.handles ..).trans h.fresh }

theorem built (h : PairKnown ops s k) :
    ∃ i, LastBuilds (askFor ⟨1⟩ none) ops s ⟨0⟩ ⟨1⟩ "m" i ∧
      UnionBuilt s (unionAsked s) k i := by
  obtain ⟨hprepared, i, hlast, hi⟩ :=
    h.ask ⟨1⟩ none Nat.two_pos (t := {}) (by decide) ⟨_, rfl⟩ h.fresh
  have hstructs : (unionAsked s).program.structs = smallProgram.structs :=
    congrArg Program.structs hprepared.program
  have hr : ((unionAsked s).analysis ⟨0⟩).registry.Consistent smallProgram.structs _ :=
    hstructs ▸ hprepared.run.sound.registries ⟨0⟩
  obtain ⟨hk, htk, htaken⟩ := hi.old h.pair
  refine ⟨i, hlast, hstructs, hprepared.config, ?_, ?_, ?_, ?_⟩
  · exact (Registry.target?_of_handle hi.handle).trans (congrArg some hi.target)
  · exact (Registry.target?_of_handle hk).trans (congrArg some htk)
  · exact shape_union hr hi.handle hk hi.target htk
  · refine (counter_union (congrArg Program.structs h.program) hi hk).trans ?_
    have hcounters := congrArg (fun x => x.2.1) htaken
    exact iff_of_eq (congrArg (4 ∈ ·) hcounters)

end PairKnown

theorem descriptor_note {s : Session} {k : Nat} (hk : k < (s.analysis ⟨0⟩).registry.size)
    (ha : 0 < s.analyses.size) (n : Note) :
    (((Operation.note (.listed ⟨0⟩ k) n).exec s).analysis ⟨0⟩).registry.descriptor k =
      ((s.analysis ⟨0⟩).registry.descriptor k).note n := by
  have hmodify := s.analysis_modify ⟨0⟩ ⟨0⟩ fun x =>
    { x with registry := x.registry.modify k (·.note n) }
  rw [if_pos ⟨rfl, ha⟩] at hmodify
  show (Session.analysis { s with analyses := s.analyses.modify 0 _ } ⟨0⟩).registry.descriptor k = _
  rw [hmodify, Registry.descriptor_modify _ _ _ _ hk, if_pos rfl]

/-- With the same structs, the same settings and the union on the same target, the union has another
table if the pair was flattened on the narrow target before, and another reference counter if one of
the pair was marked before. -/
theorem findings_not_repeatable :
    ∃ s s₁ s₂ k i i₁ i₂,
      LastBuilds (askFor ⟨1⟩ none) (askFor ⟨0⟩ none :: twoTargetsOps) s ⟨0⟩ ⟨1⟩ "m" i ∧
      LastBuilds (askFor ⟨1⟩ none) (askFor ⟨0⟩ (some ⟨1⟩) :: twoTargetsOps) s₁ ⟨0⟩ ⟨1⟩ "m" i₁ ∧
      LastBuilds (askFor ⟨1⟩ none)
        (.note (.listed ⟨0⟩ k) (.refcount 4) :: askFor ⟨0⟩ none :: twoTargetsOps)
        s₂ ⟨0⟩ ⟨1⟩ "m" i₂ ∧
      (∀ x ∈ [s, s₁, s₂], (unionAsked x).program.structs = smallProgram.structs ∧
        (unionAsked x).config ⟨0⟩ = twoTargets.config ⟨0⟩ ∧
        ((unionAsked x).analysis ⟨0⟩).registry.target? (unionAsked x).layouts ⟨1⟩ "m" = some {}) ∧
      (((unionAsked s₁).analysis ⟨0⟩).registry.descriptor i₁).shape ≠
        (((unionAsked s).analysis ⟨0⟩).registry.descriptor i).shape ∧
      (((unionAsked s₂).analysis ⟨0⟩).registry.descriptor i₂).refcountOffsets ≠
        (((unionAsked s).analysis ⟨0⟩).registry.descriptor i).refcountOffsets := by
  obtain ⟨k, hk, htk, hck⟩ := pairKnown_askFor none Nat.two_pos (by decide)
    (⟨_, rfl⟩ : smallProgram.structs.Lays {} ⟨0⟩)
  obtain ⟨k₁, hk₁, htk₁, -⟩ := pairKnown_askFor (some ⟨1⟩) Nat.one_lt_two (by decide)
    (⟨_, rfl⟩ : smallProgram.structs.Lays narrow ⟨0⟩)
  obtain ⟨i, hlast, hbuilt⟩ := hk.built
  obtain ⟨i₁, hlast₁, hbuilt₁⟩ := hk₁.built
  obtain ⟨i₂, hlast₂, hbuilt₂⟩ := (hk.note (.refcount 4)).built
  refine ⟨_, _, _, k, i, i₁, i₂, hlast, hlast₁, hlast₂, ?_, ?_, ?_⟩
  · simp only [List.forall_mem_cons, List.not_mem_nil, false_imp_iff, implies_true, and_true]
    exact ⟨⟨hbuilt.structs, hbuilt.config, hbuilt.target⟩,
      ⟨hbuilt₁.structs, hbuilt₁.config, hbuilt₁.target⟩,
      ⟨hbuilt₂.structs, hbuilt₂.config, hbuilt₂.target⟩⟩
  · have hfields : (unionShape narrow).fields ≠ (unionShape {}).fields := by decide +kernel
    rw [hbuilt.shape, hbuilt₁.shape, htk, htk₁]
    exact fun he => hfields (congrArg Shape.fields he)
  · intro he
    have hmarked := hbuilt₂.counter.2 (by
      rw [descriptor_note ((hk.run.sound.registries ⟨0⟩).lt hk.pair) hk.analyses]
      exact OffsetSet.mem_insert.2 (.inl rfl))
    have hmem := hbuilt.counter.1 (he ▸ hmarked)
    rw [hck] at hmem
    exact OffsetSet.not_mem_empty 4 hmem

/-- The same union, with a boundary of the pair noted before in one of the runs. -/
theorem findings_repeatable_union :
    ∃ s₁ s₂ k i₁ i₂,
      LastBuilds (askFor ⟨1⟩ none) (askFor ⟨0⟩ none :: twoTargetsOps) s₁ ⟨0⟩ ⟨1⟩ "m" i₁ ∧
      LastBuilds (askFor ⟨1⟩ none)
        (.note (.listed ⟨0⟩ k) (.boundary 4) :: askFor ⟨0⟩ none :: twoTargetsOps)
        s₂ ⟨0⟩ ⟨1⟩ "m" i₂ ∧
      (((unionAsked s₂).analysis ⟨0⟩).registry.descriptor i₂).findings =
        (((unionAsked s₁).analysis ⟨0⟩).registry.descriptor i₁).findings ∧
      (((unionAsked s₂).analysis ⟨0⟩).registry.descriptor i₂).counters =
        (((unionAsked s₁).analysis ⟨0⟩).registry.descriptor i₁).counters := by
  obtain ⟨k, hk, -, -⟩ := pairKnown_askFor none Nat.two_pos (by decide)
    (⟨_, rfl⟩ : smallProgram.structs.Lays {} ⟨0⟩)
  have hnoted := hk.note (.boundary 4)
  obtain ⟨i₁, hlast₁, hbuilt₁⟩ := hk.built
  obtain ⟨i₂, hlast₂, hbuilt₂⟩ := hnoted.built
  have hpair := hbuilt₂.pair
  rw [Registry.targetAt,
    descriptor_note ((hk.run.sound.registries ⟨0⟩).lt hk.pair) hk.analyses] at hpair
  have hsame := findings_repeatable hlast₁ hlast₂ (hbuilt₂.structs.trans hbuilt₁.structs.symm)
    (hbuilt₂.config.trans hbuilt₁.config.symm) fun x hx => by
      rcases reaches_union (hbuilt₁.structs ▸ hx) with rfl | rfl
      · exact hbuilt₂.target.trans hbuilt₁.target.symm
      · exact hpair.trans hbuilt₁.pair.symm
  refine ⟨_, _, k, i₁, i₂, hlast₁, hlast₂, hsame.1, hsame.2 ?_ ?_⟩
  · rintro x - k' - ⟨offset, hmem⟩
    simp [askFor, twoTargetsOps] at hmem
  · rintro x - k' - ⟨offset, hmem⟩
    simp [askFor, twoTargetsOps] at hmem

end KernelObjects
