import KernelObjects.Proofs.Operations

/-!
# Descriptors stay what they were assembled to be

After every run, each descriptor is finished and finds what the descriptors of its embedded structs,
as they are now, make it find. Two notes can change that: a size that a client sets, and a reference
counter that a client marks in the struct or in one that it holds.

Results:
* `Registry.Derived.carry`: what a descriptor finds outlives every change that keeps its parts.
* `Runs.derived`: all descriptors are derived from others, after every run.
-/
namespace KernelObjects

/-! ## Registries -/

namespace Registry

variable (S : Structs) (L : Layouts) (r : Registry)

/-- The descriptor of a struct under a name. -/
def under (m : String) (b : StructId) : Descriptor :=
  match r.handle? b m with
  | some h => r.descriptor h
  | none => default

/-- No descriptor of the struct or of one that it holds is marked. -/
def Unmarked (marked : Nat → Prop) (m : String) (b : StructId) : Prop :=
  ∀ c, S.Reaches b c → ∀ k, r.handle? c m = some k → ¬ marked k

/-- Every descriptor is finished and finds what it is assembled to find, but for marked counters,
and has the size of its struct, unless another one was set. -/
structure Derived (cx : FlattenContext) (marked sized : Nat → Prop) : Prop where
  finished : ∀ {b m h}, r.handle? b m = some h → (r.descriptor h).finished = true
  agrees : ∀ {b m h}, r.handle? b m = some h →
    Descriptor.Agrees (r.Unmarked cx.structs marked m b)
      (Flatten.assembled cx (r.targetAt L h) (r.under m) b) (r.descriptor h)
  allocSize : ∀ {b m h}, r.handle? b m = some h → ¬ sized h →
    (r.descriptor h).allocSize = cx.structs.bytesOn (r.targetAt L h) (.struct b)

variable {S L r} {L' : Layouts} {r' : Registry} {cx cx' : FlattenContext}
  {marked marked' sized sized' : Nat → Prop} {b : StructId} {m : String} {h : Nat}

theorem under_of_handle (hb : r.handle? b m = some h) : r.under m b = r.descriptor h := by
  simp only [under, hb]

theorem Derived.of_empty (hr : ∀ b m, r.handle? b m = none) : r.Derived L cx marked sized where
  finished hb := by rw [hr] at hb; cases hb
  agrees hb := by rw [hr] at hb; cases hb
  allocSize hb := by rw [hr] at hb; cases hb

/-- A change that may mark a descriptor or set its size, and leaves it alone otherwise. -/
structure Carries (marked sized : Prop) (d d' : Descriptor) : Prop where
  finished : d'.finished = d.finished
  layout : d'.layout = d.layout
  agrees : d.Agrees (¬ marked) d'
  allocSize : ¬ sized → d'.allocSize = d.allocSize

theorem Carries.refl (marked sized : Prop) (d : Descriptor) : Carries marked sized d d :=
  ⟨rfl, rfl, .refl _ d, fun _ => rfl⟩

/-- What surrounds a registry changes in a way that does not touch what was derived. -/
structure Carried (cx cx' : FlattenContext) (L L' : Layouts)
    (marked marked' sized sized' : Nat → Prop) (r r' : Registry) : Prop where
  evolves : cx.structs.Evolves cx'.structs
  marks : cx'.settings.marks = cx.settings.marks
  layouts : L.Extends L'
  old : ∀ {b m h}, r.handle? b m = some h → r'.handle? b m = some h
  descriptors : ∀ {b m h}, r.handle? b m = some h →
    Carries (marked' h) (sized' h) (r.descriptor h) (r'.descriptor h)
  marked : ∀ {h}, marked h → marked' h
  sized : ∀ {h}, sized h → sized' h

namespace Carried

variable (hr : r.Consistent cx.structs L) (hd : r.Derived L cx marked sized)
  (hc : Carried cx cx' L L' marked marked' sized sized' r r') (hb : r.handle? b m = some h)
include hr hc hb

theorem targetAt_eq : r'.targetAt L' h = r.targetAt L h := by
  rw [targetAt, (hc.descriptors hb).layout]
  exact hc.layouts.targets _ (hr.layout hb)

theorem reads : Flatten.Reads cx cx' (r.targetAt L h) b := by
  obtain ⟨l, hl⟩ := hr.lays hb
  have hmarks := hc.marks
  simp only [Settings.marks, Prod.mk.injEq] at hmarks
  exact .evolves hc.evolves hmarks.1 hmarks.2 hl

include hd in
theorem agrees :
    Descriptor.Agrees (r'.Unmarked cx'.structs marked' m b)
      (Flatten.assembled cx' (r'.targetAt L' h) (r'.under m) b) (r'.descriptor h) := by
  have hreach : ∀ {c}, cx.structs.Reaches b c → cx'.structs.Reaches b c :=
    hc.evolves.reaches
  rw [hc.targetAt_eq hr hb]
  -- the old assembly lies between the new one and the descriptor
  refine ((Descriptor.Agrees.assembled (hc.reads hr hb) fun c hbc => ?_).symm.trans
    ((hd.agrees hb).mono ?_)).trans ((hc.descriptors hb).agrees.mono ?_)
  · obtain ⟨k, hk, -⟩ := hr.inner hb hbc
    rw [under_of_handle hk, under_of_handle (hc.old hk)]
    exact (hc.descriptors hk).agrees.mono fun hu => hu c (hreach (.single hbc)) k (hc.old hk)
  · exact fun hu c hbc k hk hm => hu c (hreach hbc) k (hc.old hk) (hc.marked hm)
  · exact fun hu => hu b .refl h (hc.old hb)

include hd in
theorem allocSize (hs : ¬ sized' h) :
    (r'.descriptor h).allocSize = cx'.structs.bytesOn (r'.targetAt L' h) (.struct b) := by
  obtain ⟨l, hl⟩ := hr.lays hb
  rw [hc.targetAt_eq hr hb, (hc.descriptors hb).allocSize hs,
    hd.allocSize hb fun hsized => hs (hc.sized hsized),
    Structs.bytesOn_grows hc.evolves.toGrows (Flatten.sizeOn_struct hl)]

end Carried

/-- Where no descriptor is new, derived descriptors stay derived. -/
theorem Derived.carry (hd : r.Derived L cx marked sized) (hr : r.Consistent cx.structs L)
    (hc : Carried cx cx' L L' marked marked' sized sized' r r')
    (hnew : ∀ {b m h}, r'.handle? b m = some h → r.handle? b m = some h) :
    r'.Derived L' cx' marked' sized' where
  finished hb := (hc.descriptors (hnew hb)).finished.trans (hd.finished (hnew hb))
  agrees hb := hc.agrees hr hd (hnew hb)
  allocSize hb := hc.allocSize hr hd (hnew hb)

/-- What flattening adds is derived too. -/
theorem Derived.adds {cx₀ : FlattenContext} {s s' : FlattenState} (hS : cx.structs = cx₀.structs)
    (hmarks : cx.settings.marks = cx₀.settings.marks) (ho : Flatten.Orderly cx₀ s)
    (ho' : Flatten.Orderly cx₀ s') (ha : Flatten.Advances cx₀ s s') (hadds : Flatten.Adds cx₀ s s')
    (hd : s.registry.Derived s.layouts cx marked sized) :
    s'.registry.Derived s'.layouts cx marked sized := by
  have hr : s.registry.Consistent cx.structs s.layouts := hS ▸ ho.consistent
  have hc : Carried cx cx s.layouts s'.layouts marked marked sized sized s.registry s'.registry := {
    evolves := .refl _
    marks := rfl
    layouts := ha.layouts
    old := ha.old
    descriptors := fun {b m h} hb => by
      rw [hadds.kept h (hr.lt hb)]
      exact ⟨rfl, rfl, ⟨rfl, fun _ => rfl⟩, fun _ => rfl⟩
    marked := id
    sized := id }
  refine ⟨fun {b m h} hb => ?_, fun {b m h} hb => ?_, fun {b m h} hb hs => ?_⟩
  · rcases hadds.old_or_made ho ho' ha hb with ⟨-, hold⟩ | ⟨-, -, -, hmade⟩
    · exact (hc.descriptors hold).finished.trans (hd.finished hold)
    · rw [hmade]
      rfl
  · rcases hadds.old_or_made ho ho' ha hb with ⟨-, hold⟩ | ⟨-, rfl, htarget, hmade⟩
    · exact hc.agrees hr hd hold
    · simp only [Settings.marks, Prod.mk.injEq] at hmarks
      rw [htarget, hmade]
      have hsame : Descriptor.Agrees (s'.registry.Unmarked cx.structs marked cx₀.module.name b)
          (Flatten.assembled cx (s.layouts.targetOf cx₀.layout)
            (s'.registry.under cx₀.module.name) b)
          (Flatten.assembled cx₀ (s.layouts.targetOf cx₀.layout)
            (s'.registry.under cx₀.module.name) b) :=
        .assembled (.of_structs hS.symm hmarks.1.symm hmarks.2.symm _ b) fun c _ => .refl _ _
      exact ⟨hsame.findings, hsame.counters⟩
  · rcases hadds.old_or_made ho ho' ha hb with ⟨-, hold⟩ | ⟨-, -, htarget, hmade⟩
    · exact hc.allocSize hr hd hold hs
    · rw [htarget, hmade, hS]
      rfl

end Registry

/-! ## Sessions -/

/-- A reference counter of the descriptor at a position was marked. -/
def Marked (ops : List Operation) (a : AnalysisId) (h : Nat) : Prop :=
  ∃ offset, Operation.note (.listed a h) (.refcount offset) ∈ ops

/-- A size of the descriptor at a position was set. -/
def Sized (ops : List Operation) (a : AnalysisId) (h : Nat) : Prop :=
  ∃ size, Operation.note (.listed a h) (.allocSize size) ∈ ops

theorem Marked.cons {ops : List Operation} {op : Operation} {a : AnalysisId} {h : Nat}
    (hm : Marked ops a h) : Marked (op :: ops) a h := by
  obtain ⟨offset, hmem⟩ := hm
  exact ⟨offset, List.mem_cons_of_mem _ hmem⟩

theorem Sized.cons {ops : List Operation} {op : Operation} {a : AnalysisId} {h : Nat}
    (hs : Sized ops a h) : Sized (op :: ops) a h := by
  obtain ⟨size, hmem⟩ := hs
  exact ⟨size, List.mem_cons_of_mem _ hmem⟩

/-- A note leaves a descriptor alone unless the history now says otherwise. -/
theorem Descriptor.Annotated.carries {op : Operation} {a : AnalysisId} {h : Nat}
    {d d' : Descriptor} (hd : d.Annotated op a h d') (ops : List Operation) :
    Registry.Carries (Marked (op :: ops) a h) (Sized (op :: ops) a h) d d' := by
  have hcore := hd.core
  simp only [Descriptor.core, Prod.mk.injEq] at hcore
  obtain ⟨-, hlayout, -, hfinished, hfindings⟩ := hcore
  refine ⟨hfinished, hlayout, ⟨hfindings, fun hm => ?_⟩, fun hs => ?_⟩
  · rcases hd.counters with hsame | ⟨offset, hop⟩
    · exact hsame
    · exact absurd ⟨offset, hop ▸ List.mem_cons_self ..⟩ hm
  · rcases hd.allocSize with hsame | ⟨size, hop⟩
    · exact hsame
    · exact absurd ⟨size, hop ▸ List.mem_cons_self ..⟩ hs

namespace Session

variable {policy : AnalysisId → String → Target → Prop} {ops : List Operation} {op : Operation}
  {s s' : Session}

/-- What flattening for an analysis reads, whatever the module. -/
def reader (s : Session) (a : AnalysisId) : FlattenContext :=
  Work.contextFor s a default none

/-- All descriptors are derived from those of the structs that they embed. -/
def Derived (ops : List Operation) (s : Session) : Prop :=
  ∀ a, (s.analysis a).registry.Derived s.layouts (s.reader a) (Marked ops a) (Sized ops a)

theorem reader_takeOver (s : Session) (a a' : AnalysisId) (f : FlattenState) :
    (Work.takeOver a f s).reader a' = s.reader a' := by
  have hsettings : ((Work.takeOver a f s).analysis a').settings = (s.analysis a').settings := by
    rw [analysis_takeOver]
    split
    · next he => rw [he.1]
    · rfl
  simp only [reader, Work.contextFor, hsettings]
  rfl

/-- There are no descriptors in an analysis that there is not. -/
theorem handle?_of_size_le {a : AnalysisId} (h : s.analyses.size ≤ a.idx) (b : StructId)
    (m : String) : (s.analysis a).registry.handle? b m = none := by
  have ha : s.analysis a = default := by
    simp [analysis, Array.getD_eq_getD_getElem?, Array.getElem?_eq_none h]
  have hr : (default : Analysis).registry = {} := rfl
  rw [ha, hr]
  simp [Registry.handle?]

/-- A longer history marks and sets more. -/
theorem Derived.weaken (hs : s.Sound policy) (hd : s.Derived ops) (op : Operation) :
    s.Derived (op :: ops) := fun a =>
  (hd a).carry (hs.registries a)
    { evolves := .refl _
      marks := rfl
      layouts := .refl _
      old := id
      descriptors := fun _ => .refl ..
      marked := .cons
      sized := .cons } id

theorem Derived.retained (hs : s.Sound policy) (hw : s.Wired) (hd : s.Derived ops)
    (h : Retains op s s') : s'.Derived (op :: ops) := by
  intro a
  rcases Nat.lt_or_ge a.idx s.analyses.size with hlt | hle
  · refine (hd a).carry (hs.registries a) ?_ fun {b m k} hb => by rwa [h.handles] at hb
    exact {
      evolves := by
        have hS : (s'.reader a).structs = (s.reader a).structs := congrArg Program.structs h.program
        rw [hS]
        exact .refl _
      marks := h.config hw a hlt
      layouts := h.layouts
      old := fun {b m k} hb => by rw [h.handles]; exact hb
      descriptors := fun {b m k} _ => (h.descriptors a k).carries ops
      marked := .cons
      sized := .cons }
  · refine .of_empty fun b m => ?_
    rw [h.handles]
    exact handle?_of_size_le hle b m

theorem Derived.flattened (hs : s.Sound policy) (hd : s.Derived ops) {cx : FlattenContext}
    {f : FlattenState} {a : AnalysisId} (hS : cx.structs = s.program.structs)
    (hmarks : cx.settings.marks = s.config a) (ho : Flatten.Orderly cx (Work.stateFor s a))
    (ho' : Flatten.Orderly cx f) (ha : Flatten.Advances cx (Work.stateFor s a) f)
    (hadds : Flatten.Adds cx (Work.stateFor s a) f) : (Work.takeOver a f s).Derived ops := by
  intro a'
  rw [reader_takeOver, analysis_takeOver]
  split
  · next he =>
    rw [he.1]
    exact (hd a).adds hS.symm hmarks.symm ho ho' ha hadds
  · refine (hd a').carry (hs.registries a') ?_ id
    exact {
      evolves := .refl _
      marks := rfl
      layouts := ha.layouts
      old := id
      descriptors := fun _ => .refl ..
      marked := id
      sized := id }

theorem Derived.change (hs : s.Sound policy) (hw : s.Wired) (hd : s.Derived ops)
    (hc : Change policy s op s') : s'.Derived (op :: ops) := by
  cases hc with
  | edited evolves =>
    intro a
    refine (hd a).carry (hs.registries a) ?_ id
    exact {
      evolves := evolves
      marks := rfl
      layouts := .refl _
      old := id
      descriptors := fun _ => .refl ..
      marked := .cons
      sized := .cons }
  | @flattened _ _ a home layout _ admits additive =>
    have ho := hs.orderly a home layout admits.1
    obtain ⟨ho', ha⟩ := (additive _).safe _ ho
    rw [after_flatten]
    exact (hd.weaken hs op).flattened hs rfl rfl ho ho' ha ((additive _).adds _ ho)
  | retained retains => exact hd.retained hs hw retains

end Session

theorem Runs.derived {policy : AnalysisId → String → Target → Prop} {ops : List Operation}
    {s : Session} (h : Runs policy ops s) : s.Derived ops := by
  induction h with
  | init => exact fun a => .of_empty fun b m => Session.handle?_of_size_le (Nat.zero_le _) b m
  | step h op ha ih => exact ih.change h.sound h.wired (Session.exec_change ha)

end KernelObjects
