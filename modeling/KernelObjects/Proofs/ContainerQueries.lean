import KernelObjects.Proofs.ModuleRuns
import KernelObjects.Proofs.Owners
import KernelObjects.Proofs.Repeatable

/-!
# Containers by name

The structs that hold a struct of a given name are looked for in one module: the given one if it
defines the struct, else the first one that the struct was registered under and that defines it. The
answer names the structs that have a descriptor under the name of that module and hold the struct.
If the struct has a descriptor there already, nothing is built for the answer, and there is one
unless a container cannot be named.

Results:
* `Flatten.containerNames_of_home`, `Flatten.containerNames_returns`: what an answer names.
* `Runs.has_of_run`: what a run has built is there for every later query.
* `containerNames_exact`: all answers and refusals, for a session after any run of operations.
-/
namespace KernelObjects

/-- A struct that lies in another one lies at some offset in it. -/
theorem Structs.exists_path_iff {S : Structs} (off : StructId → Nat → Int) {a b : StructId} :
    (∃ k, S.Path off a b k) ↔ S.Holds a b := by
  constructor
  · rintro ⟨k, hk⟩
    exact hk.holds
  · intro h
    induction h using Relation.TransGen.head_induction_on with
    | single hab =>
      obtain ⟨e, he, hb⟩ := hab
      obtain ⟨i, hi⟩ := List.mem_iff_getElem?.1 he
      exact ⟨_, .last hi hb⟩
    | head hac _ ih =>
      obtain ⟨e, he, hc⟩ := hac
      obtain ⟨i, hi⟩ := List.mem_iff_getElem?.1 he
      obtain ⟨k, hk⟩ := ih
      exact ⟨_, .step hi hc hk⟩

/-! ## Answers -/

theorem mem_of_mapM {α β : Type} {f : α → Except Fault β} {xs : List α} {ys : List β}
    (h : xs.mapM f = .ok ys) (y : β) : y ∈ ys ↔ ∃ x ∈ xs, f x = .ok y := by
  induction xs generalizing ys with
  | nil =>
    cases h
    simp
  | cons x xs ih =>
    rw [List.mapM_cons, bind_eq_ok] at h
    obtain ⟨z, hz, h⟩ := h
    obtain ⟨zs, hzs, h⟩ := bind_eq_ok.1 h
    cases h
    rw [List.mem_cons, ih hzs, List.exists_mem_cons_iff, hz, Except.ok.injEq, eq_comm]

theorem ok_of_mapM {α β : Type} {f : α → Except Fault β} {xs : List α} {ys : List β}
    (h : xs.mapM f = .ok ys) : ∀ x ∈ xs, ∃ y, f x = .ok y := by
  induction xs generalizing ys with
  | nil => exact fun x hx => absurd hx List.not_mem_nil
  | cons x xs ih =>
    rw [List.mapM_cons, bind_eq_ok] at h
    obtain ⟨z, hz, h⟩ := h
    obtain ⟨zs, hzs, -⟩ := bind_eq_ok.1 h
    exact List.forall_mem_cons.2 ⟨⟨z, hz⟩, ih hzs⟩

theorem error_of_mapM {α β : Type} {f : α → Except Fault β} {xs : List α} {e : Fault}
    (h : xs.mapM f = .error e) : ∃ x ∈ xs, f x = .error e := by
  induction xs with
  | nil => cases h
  | cons x xs ih =>
    rw [List.mapM_cons] at h
    cases hx : f x with
    | error e' =>
      rw [hx] at h
      cases h
      exact ⟨x, List.mem_cons_self .., hx⟩
    | ok z =>
      rw [hx] at h
      change (xs.mapM f >>= fun zs => pure (z :: zs)) = .error e at h
      cases hxs : xs.mapM f with
      | ok zs =>
        rw [hxs] at h
        cases h
      | error e' =>
        rw [hxs] at h
        cases h
        obtain ⟨y, hy, he⟩ := ih hxs
        exact ⟨y, List.mem_cons_of_mem _ hy, he⟩

/-- What it comes to when the containers of a descriptor are named. -/
inductive Naming (S : Structs) (scope : String) (d : Descriptor) (s : FlattenState) :
    EStateM.Result Fault FlattenState (OrderedSet String) → Prop where
  | all {names : OrderedSet String} (nameable : ∀ p ∈ d.containers, S.Nameable p.1)
      (mem : ∀ x, x ∈ names ↔ ∃ p ∈ d.containers, scopeName S p.1 (some scope) = .ok x) :
      Naming S scope d s (.ok names s)
  | unnamed {p : StructId × Int} {e : Fault} (mem : p ∈ d.containers)
      (unnamed : S.label p.1 = .error e) : Naming S scope d s (.error e s)

namespace Flatten

variable {cx : FlattenContext} {s : FlattenState} {name : String} {st : StructId} {m : ModuleId}

theorem containerNames_of_unnamed (h : s.registry.structNamed? name = none) :
    containerNames cx name s = .ok ∅ s := by
  unfold containerNames
  rw [get_bind, h]
  rfl

theorem containerNames_of_opaque (h : s.registry.structNamed? name = some st)
    (hb : (cx.structs.get st).isOpaque = true) :
    containerNames cx name s = .error (.opaqueType name .queryContainers) s := by
  unfold containerNames
  rw [get_bind, h]
  simp only [hb, if_true]
  rfl

theorem containerNames_of_nowhere (h : s.registry.structNamed? name = some st)
    (hb : (cx.structs.get st).isOpaque = false)
    (hm : s.registry.definingModule? cx.program st (some cx.home) = none) :
    containerNames cx name s = .error (.definedNowhere name) s := by
  unfold containerNames
  rw [get_bind, h]
  simp only [hb, Bool.false_eq_true, if_false]
  rw [get_bind, hm]
  rfl

/-- The names of the containers are written one by one, until one cannot be. -/
theorem naming_places (S : Structs) (scope : String) (d : Descriptor) (s : FlattenState) :
    Naming S scope d s ((do
      let names ← orRaise (((d.places.map Prod.fst).eraseReps).mapM fun st =>
        scopeName S st (some scope))
      return .ofList names : Flatten (OrderedSet String)) s) := by
  have hmem : ∀ T, T ∈ (d.places.map Prod.fst).eraseReps ↔ ∃ p ∈ d.containers, p.1 = T := by
    simp only [Descriptor.mem_eraseReps, List.mem_map, Descriptor.mem_places, implies_true]
  cases h : ((d.places.map Prod.fst).eraseReps).mapM fun st => scopeName S st (some scope) with
  | ok names =>
    refine .all (fun p hp => ?_) fun x => ?_
    · rw [Structs.nameable_iff_scopeName (some scope)]
      exact ok_of_mapM h p.1 ((hmem p.1).2 ⟨p, hp, rfl⟩)
    · rw [OrderedSet.mem_ofList, mem_of_mapM h]
      simp only [hmem]
      constructor
      · rintro ⟨_, ⟨p, hp, rfl⟩, hx⟩
        exact ⟨p, hp, hx⟩
      · rintro ⟨p, hp, hx⟩
        exact ⟨p.1, ⟨p, hp, rfl⟩, hx⟩
  | error e =>
    obtain ⟨T, hT, he⟩ := error_of_mapM h
    obtain ⟨p, hp, rfl⟩ := (hmem T).1 hT
    exact .unnamed hp (Structs.scopeName_eq_error_iff.1 he)

/-- A query asks for the struct in its module, and names the containers of its descriptor. -/
theorem containerNames_of_home (h : s.registry.structNamed? name = some st)
    (hb : (cx.structs.get st).isOpaque = false)
    (hm : s.registry.definingModule? cx.program st (some cx.home) = some m) :
    (∃ e s', handleOf (inModule cx m) st s = .error e s' ∧
      containerNames cx name s = .error e s') ∨
    ∃ n s', handleOf (inModule cx m) st s = .ok n s' ∧
      Naming cx.structs (cx.program.module m).name (s'.registry.descriptor n) s'
        (containerNames cx name s) := by
  unfold containerNames
  rw [get_bind, h]
  simp only [hb, Bool.false_eq_true, if_false]
  rw [get_bind, hm]
  dsimp only
  cases he : handleOf (inModule cx m) st s with
  | error e s' =>
    rw [bind_error he]
    exact .inl ⟨e, s', rfl, rfl⟩
  | ok n s' =>
    rw [bind_ok he, get_bind]
    exact .inr ⟨n, s', rfl, naming_places _ _ _ _⟩

/-- An answer names the structs of the module that hold the struct. -/
theorem containerNames_returns (ho : Orderly (inModule cx m) s)
    (h : s.registry.structNamed? name = some st) (hb : (cx.structs.get st).isOpaque = false)
    (hm : s.registry.definingModule? cx.program st (some cx.home) = some m)
    {names : OrderedSet String} {s' : FlattenState} (he : containerNames cx name s = .ok names s')
    (x : String) : x ∈ names ↔ ∃ T, Known (inModule cx m) s' T ∧ cx.structs.Holds T st ∧
      scopeName cx.structs T (some (cx.program.module m).name) = .ok x := by
  rcases containerNames_of_home h hb hm with ⟨e, s₁, -, hx⟩ | ⟨n, s₁, hn, hnaming⟩
  · rw [hx] at he
    cases he
  · rw [he] at hnaming
    obtain ⟨n', s₂, hn', ho', -, hhandle⟩ | ⟨e, s₂, hn', -⟩ := handleOf_spec ho st
    · rw [hn'] at hn
      cases hn
      have hcontainers := ho'.consistent.containers hhandle
      cases hnaming with
      | all _ hmem =>
        rw [hmem]
        constructor
        · rintro ⟨p, hp, hx⟩
          obtain ⟨hknown, hpath⟩ := (hcontainers p).1 hp
          exact ⟨p.1, Option.isSome_iff_exists.1 hknown, hpath.holds, hx⟩
        · rintro ⟨T, hknown, hholds, hx⟩
          obtain ⟨k, hk⟩ := (Structs.exists_path_iff _).2 hholds
          exact ⟨(T, k), (hcontainers _).2 ⟨Option.isSome_iff_exists.2 hknown, hk⟩, hx⟩
    · rw [hn'] at hn
      cases hn

/-- An answer about a struct that has a descriptor is only read. -/
theorem containerNames_known (ho : Orderly (inModule cx m) s)
    (h : s.registry.structNamed? name = some st) (hb : (cx.structs.get st).isOpaque = false)
    (hm : s.registry.definingModule? cx.program st (some cx.home) = some m)
    (hk : Known (inModule cx m) s st) :
    (∃ names, containerNames cx name s = .ok names s ∧
      ∀ T, Known (inModule cx m) s T → cx.structs.Holds T st → cx.structs.Nameable T) ∨
    ∃ T e, containerNames cx name s = .error e s ∧ Known (inModule cx m) s T ∧
      cx.structs.Holds T st ∧ cx.structs.label T = .error e := by
  obtain ⟨n, hn⟩ := hk
  have hknown : handleOf (inModule cx m) st s = .ok n s := handleOf_known hb hn
  have hcontainers := ho.consistent.containers hn
  rcases containerNames_of_home h hb hm with ⟨e, s', he, -⟩ | ⟨n', s', he, hnaming⟩
  · rw [hknown] at he
    cases he
  · rw [hknown] at he
    cases he
    generalize containerNames cx name s = result at hnaming
    cases hnaming with
    | all nameable _ =>
      refine .inl ⟨_, rfl, fun T hT hholds => ?_⟩
      obtain ⟨k, hpath⟩ := (Structs.exists_path_iff _).2 hholds
      exact nameable (T, k) ((hcontainers _).2 ⟨Option.isSome_iff_exists.2 hT, hpath⟩)
    | @unnamed p e mem unnamed =>
      obtain ⟨hT, hpath⟩ := (hcontainers p).1 mem
      exact .inr ⟨p.1, e, rfl, Option.isSome_iff_exists.1 hT, hpath.holds, unnamed⟩

end Flatten

/-! ## Sessions -/

variable {policy : AnalysisId → String → Target → Prop} {ops later before : List Operation}
  {s : Session} {a : AnalysisId} {home m : ModuleId} {layout : Option LayoutId} {st : StructId}

namespace Session

theorem flatten_of_ok {α : Type} {act : FlattenContext → Flatten α} {x : α}
    (h : act (Work.contextFor s a home layout) (Work.stateFor s a) = .ok x (Work.stateFor s a)) :
    Work.flatten a home layout act s = .ok x s := by
  simp only [Work.flatten, onPart, h, takeOver_stateFor]

theorem flatten_of_error {α : Type} {act : FlattenContext → Flatten α} {e : Fault}
    (h : act (Work.contextFor s a home layout) (Work.stateFor s a) = .error e (Work.stateFor s a)) :
    Work.flatten a home layout act s = .error e s := by
  simp only [Work.flatten, onPart, h, takeOver_stateFor]

variable {name : String}

theorem containerNames_returns (hs : s.Sound policy) (ha : a.idx < s.analyses.size)
    (hadmits : Event.Admits policy s a m none)
    (hst : (s.analysis a).registry.structNamed? name = some st)
    (hb : (s.program.structs.get st).isOpaque = false)
    (hm : (s.analysis a).registry.definingModule? s.program st (some home) = some m)
    {names : OrderedSet String} {s' : Session}
    (hquery : Work.containerNames a name home s = .ok names s') (x : String) :
    x ∈ names ↔ ∃ T, s'.Has a T (s.program.module m).name ∧ s.program.structs.Holds T st ∧
      scopeName s.program.structs T (some (s.program.module m).name) = .ok x := by
  have ho : Flatten.Orderly (Flatten.inModule (Work.contextFor s a home none) m)
      (Work.stateFor s a) := hs.orderly a m none hadmits.1
  obtain ⟨f, hf, rfl⟩ := flatten_eq_ok hquery
  have hmem := Flatten.containerNames_returns ho hst hb hm hf x
  simp only [Has, registry_takeOver ha]
  exact hmem

theorem containerNames_known (hs : s.Sound policy) (hadmits : Event.Admits policy s a m none)
    (hst : (s.analysis a).registry.structNamed? name = some st)
    (hb : (s.program.structs.get st).isOpaque = false)
    (hm : (s.analysis a).registry.definingModule? s.program st (some home) = some m)
    (hhas : s.Has a st (s.program.module m).name) :
    (∃ names, Work.containerNames a name home s = .ok names s ∧
      ∀ T, s.Has a T (s.program.module m).name → s.program.structs.Holds T st →
        s.program.structs.Nameable T) ∨
    ∃ T e, Work.containerNames a name home s = .error e s ∧
      s.Has a T (s.program.module m).name ∧ s.program.structs.Holds T st ∧
      s.program.structs.label T = .error e := by
  have ho : Flatten.Orderly (Flatten.inModule (Work.contextFor s a home none) m)
      (Work.stateFor s a) := hs.orderly a m none hadmits.1
  rcases Flatten.containerNames_known ho hst hb hm hhas with ⟨names, he, hall⟩ | ⟨T, e, he, hT⟩
  · exact .inl ⟨names, flatten_of_ok he, hall⟩
  · exact .inr ⟨T, e, flatten_of_error he, hT⟩

end Session

theorem Runs.uncons {op : Operation} (h : Runs policy (op :: ops) s) :
    Runs policy ops (replay ops) ∧ op.Allowed policy (replay ops) ∧ s = op.exec (replay ops) := by
  cases h with
  | step h' _ hok =>
    obtain rfl := h'.eq_replay
    exact ⟨h', hok, rfl⟩

theorem Runs.of_append (h : Runs policy (later ++ before) s) :
    Runs policy before (replay before) := by
  induction later generalizing s with
  | nil => exact h.eq_replay ▸ h
  | cons op later ih => exact ih h.uncons.1

/-- A descriptor that there is stays there. -/
theorem Runs.has_of_append (h : Runs policy (later ++ before) s) {name : String}
    (hb : (replay before).Has a st name) : s.Has a st name := by
  induction later generalizing s with
  | nil => exact h.eq_replay ▸ hb
  | cons op later ih =>
    obtain ⟨h', hok, rfl⟩ := h.uncons
    obtain ⟨n, hn⟩ := ih h'
    exact ⟨n, (Session.exec_change hok).handle?_old h'.sound hn⟩

/-- What a run of a module has built is there ever after. -/
theorem Runs.has_of_run (h : Runs policy (later ++ .event (.run a m layout) :: before) s)
    (ha : a.idx < (replay before).analyses.size) {n : Nat} {s' : Session}
    (hrun : Work.run a m layout (replay before) = .ok n s')
    (hst : st ∈ ((replay before).program.module m).structs.values)
    (hb : ((replay before).program.structs.get st).isOpaque = false) :
    s.Has a st ((replay before).program.module m).name := by
  obtain ⟨hbefore, hadmits, -⟩ := h.of_append.uncons
  have ho := hbefore.sound.orderly a m layout hadmits.1
  obtain ⟨f, hf, rfl⟩ := Session.flatten_eq_ok hrun
  obtain ⟨i, hi⟩ := (Flatten.run_known ho hf).2 (.inr ⟨st, hst, hb, .refl⟩)
  refine h.has_of_append ⟨i, ?_⟩
  have hexec : replay (.event (.run a m layout) :: before) =
      Work.takeOver a f (replay before) := after_ok hrun
  rw [hexec, Session.registry_takeOver ha]
  exact hi

/-- How the containers of a struct are found in one module. -/
structure Session.FoundIn (s : Session) (ops : List Operation) (a : AnalysisId) (name : String)
    (home : ModuleId) (st : StructId) (m : ModuleId) : Prop where
  /-- An answer names exactly the structs that have a descriptor under the name of the module and
  hold the struct. -/
  names : ∀ names s', Work.containerNames a name home s = .ok names s' → ∀ x, x ∈ names ↔
    ∃ T, s'.Has a T (s.program.module m).name ∧ s.program.structs.Holds T st ∧
      scopeName s.program.structs T (some (s.program.module m).name) = .ok x
  /-- If the struct has such a descriptor itself, nothing changes. -/
  same : s.Has a st (s.program.module m).name → after (Work.containerNames a name home) s = s
  /-- Then it is answered unless a container cannot be named. -/
  met_iff : s.Has a st (s.program.module m).name →
    ((∃ names, Work.containerNames a name home s = .ok names s) ↔
      ∀ T, s.Has a T (s.program.module m).name → s.program.structs.Holds T st →
        s.program.structs.Nameable T)
  /-- It has such a descriptor, under the name that the module had then, once a run of the module
  has returned. -/
  built : ∀ later before layout n s', ops = later ++ .event (.run a m layout) :: before →
    a.idx < (replay before).analyses.size →
    Work.run a m layout (replay before) = .ok n s' →
    ((replay before).program.structs.get st).isOpaque = false →
    s.Has a st ((replay before).program.module m).name

/-- How queries for containers by name are answered. -/
structure Session.Answers (s : Session) (ops : List Operation) (a : AnalysisId) (name : String)
    (home : ModuleId) : Prop where
  /-- A name that is not known has no containers. -/
  unknown : (s.analysis a).registry.structNamed? name = none →
    Work.containerNames a name home s = .ok ∅ s
  /-- An opaque struct is refused. -/
  noBody : ∀ st, (s.analysis a).registry.structNamed? name = some st →
    (s.program.structs.get st).isOpaque = true →
    Work.containerNames a name home s = .error (.opaqueType name .queryContainers) s
  /-- So is one that is defined neither in the module of the query nor in one that it was registered
  under. -/
  nowhere : ∀ st, (s.analysis a).registry.structNamed? name = some st →
    (s.program.structs.get st).isOpaque = false →
    (s.program.module home).defines s.program.structs st = false →
    (∀ x ∈ registrations a ops, x.struct = st →
      (s.program.module x.home).defines s.program.structs st = false) →
    Work.containerNames a name home s = .error (.definedNowhere name) s
  /-- Otherwise the containers are looked for in one module. -/
  found : ∀ st, (s.analysis a).registry.structNamed? name = some st →
    (s.program.structs.get st).isOpaque = false →
    ∀ m, homeFor s.program (registrations a ops) st home = some m → s.FoundIn ops a name home st m

/-- After any run of operations that keeps names and the tables of the modules handed over, this is
how every query for containers by name is answered. -/
theorem containerNames_exact (h : Runs (fun _ _ _ => True) ops s) (hnames : NamesKept ops)
    (htables : TablesKept a ops) (ha : a.idx < s.analyses.size) (name : String)
    (hok : (Operation.containers a name home).Allowed (fun _ _ _ => True) s) :
    s.Answers ops a name home := by
  have hhome : ∀ st, (s.analysis a).registry.definingModule? s.program st (some home) =
      homeFor s.program (registrations a ops) st home := by
    intro st
    have hreplay := definingModule?_history hnames htables st home
    rw [← h.eq_replay] at hreplay
    exact hreplay
  refine ⟨fun hst => ?_, fun st hst hb => ?_, fun st hst hb hno hmet => ?_,
    fun st hst hb m hm => ?_⟩
  · exact Session.flatten_of_ok (Flatten.containerNames_of_unnamed hst)
  · exact Session.flatten_of_error (Flatten.containerNames_of_opaque hst hb)
  · have hnone := (hhome st).trans (homeFor_eq_none hno hmet)
    exact Session.flatten_of_error (Flatten.containerNames_of_nowhere hst hb hnone)
  · have hsome := (hhome st).trans hm
    have hadmits := hok st hst m hsome
    have hread := fun hhas =>
      Session.containerNames_known h.sound hadmits hst hb hsome hhas
    refine ⟨fun names s' hquery x => ?_, fun hhas => ?_, fun hhas => ?_, ?_⟩
    · exact Session.containerNames_returns h.sound ha hadmits hst hb hsome hquery x
    · rcases hread hhas with ⟨names, he, -⟩ | ⟨T, e, he, -⟩
      · exact after_ok he
      · exact after_error he
    · rcases hread hhas with ⟨names, he, hall⟩ | ⟨T, e, he, hT, hholds, hlabel⟩
      · exact ⟨fun _ => hall, fun _ => ⟨names, he⟩⟩
      · constructor
        · rintro ⟨names, hok⟩
          rw [he] at hok
          cases hok
        · intro hall
          obtain ⟨text, htext⟩ := hall T hT hholds
          rw [hlabel] at htext
          cases htext
    · rintro later before layout n s' rfl hlt hrun hbody
      refine h.has_of_run hlt hrun ?_ hbody
      -- the module lists the struct now, and it has not changed since it was run
      have hlisted : st ∈ (s.program.module m).structs.values :=
        List.mem_map_of_mem (Table.mem_of_find (of_decide_eq_true (defines_of_homeFor hm)))
      have hkept := htables.structs_of_handing rfl
      rw [← h.eq_replay] at hkept
      rw [← hkept]
      exact hlisted

/-- The listed program after a run of its first module. -/
def listedRun : List Operation :=
  .event (.run ⟨0⟩ ⟨0⟩ none) :: listedOps

theorem runs_listedRun : Runs (fun _ _ _ => True) listedRun (replay listedRun) :=
  (runs_listedOps _).step (.event (.run ⟨0⟩ ⟨0⟩ none)) ⟨by decide, trivial⟩

theorem steady_listedRun : (replay listedOps).Steady (replay listedRun) := by
  have hs : (replay listedOps).Sound fun _ _ t => t = {} := (runs_listedOps _).sound
  exact hs.exec_steady (e := .run ⟨0⟩ ⟨0⟩ none) rfl ⟨by decide, by decide⟩

theorem program_listedRun : (replay listedRun).program = listedProgram :=
  steady_listedRun.program

theorem namesKept_listedRun : NamesKept listedRun :=
  .cons (.cons (.cons (namesKept_edit _) nofun) nofun) nofun

theorem tablesKept_listedRun : TablesKept ⟨0⟩ listedRun :=
  .cons (.cons (.cons (.cons .nil fun _ _ => nofun) nofun) nofun) nofun

/-- The run has registered the pair. -/
theorem entered_listedRun :
    ((replay listedRun).analysis ⟨0⟩).registry.Entered listedProgram.structs
      (listedProgram.module ⟨0⟩) ⟨0⟩ := by
  obtain ⟨n, s', hrun⟩ := run_listedOps
  have hexec : replay listedRun = s' := after_ok hrun
  have ho := (runs_listedOps fun _ _ _ => True).sound.orderly ⟨0⟩ ⟨0⟩ none (by decide)
  obtain ⟨f, hf, rfl⟩ := Session.flatten_eq_ok hrun
  obtain ⟨f₁, log, he, -, rfl⟩ := Flatten.run_eq_ok hf
  rw [hexec, Session.registry_takeOver (by decide)]
  have hpair : ⟨0⟩ ∈ (listedProgram.module ⟨0⟩).structs.values := by decide +kernel
  exact (Flatten.forM_meet_visited ho he ⟨0⟩ hpair).entered

theorem structNamed?_listedRun :
    ((replay listedRun).analysis ⟨0⟩).registry.structNamed? "struct.pair" = some ⟨0⟩ := by
  have honly : ∀ st, (listedProgram.structs.get st).name = "struct.pair" → st = ⟨0⟩ := by
    rintro ⟨i⟩ hname
    have hlt : (StructId.mk i).idx < listedProgram.structs.size :=
      Structs.lt_size_of_named (by simp [StructDef.isLiteral, hname])
    have hall : ∀ i < 5, (listedProgram.structs.get ⟨i⟩).name = "struct.pair" → i = 0 := by decide
    rw [hall i hlt hname]
  have hnames := (records_replay namesKept_listedRun ⟨0⟩).names "struct.pair"
  rw [program_listedRun] at hnames
  have hentered := (entered_listedRun rfl).1
  obtain ⟨st, hst⟩ := Option.isSome_iff_exists.1 hentered
  have hfound : ((replay listedRun).analysis ⟨0⟩).registry.names.get? "struct.pair" = some st := hst
  obtain ⟨x, hx, rfl⟩ := Option.map_eq_some_iff.1 (hnames.symm.trans hfound)
  have hname := List.find?_some hx
  rw [Registry.structNamed?, hfound, honly x.struct (of_decide_eq_true hname)]
  rfl

theorem homeFor_listedRun :
    homeFor listedProgram (registrations ⟨0⟩ listedRun) ⟨0⟩ ⟨1⟩ = some ⟨0⟩ := by
  have honly : ∀ m st, (listedProgram.module m).defines listedProgram.structs st = true →
      m = ⟨0⟩ := by
    rintro ⟨i⟩ st hd
    match i with
    | 0 => rfl
    | 1 => cases hd
    | i + 2 => cases hd
  have howned := (owned_replay namesKept_listedRun tablesKept_listedRun).1 ⟨0⟩
  rw [program_listedRun] at howned
  have hentered := (entered_listedRun rfl).2.2 (by decide +kernel)
  obtain ⟨m, hm⟩ := Option.isSome_iff_exists.1 hentered
  obtain ⟨x, hx, hxm⟩ := Option.map_eq_some_iff.1 (howned.symm.trans hm)
  have hdefined : x.isDefined listedProgram = true := by
    have hfound := List.find?_some hx
    rw [Bool.and_eq_true] at hfound
    exact hfound.2
  have hhome : homeFor listedProgram (registrations ⟨0⟩ listedRun) ⟨0⟩ ⟨1⟩ = some m :=
    howned.symm.trans hm
  rw [hhome, ← hxm, honly x.home x.struct hdefined]

/-- The pair is not defined in the module that asks; the node is found in the one that does. -/
theorem containerNames_exact_listed :
    ∃ names, Work.containerNames ⟨0⟩ "struct.pair" ⟨1⟩ (replay listedRun) =
      .ok names (replay listedRun) ∧ "struct.node" ∈ names := by
  have hsize : 0 < (replay listedRun).analyses.size := by
    rw [steady_listedRun.size]
    decide
  have hhome := homeFor_listedRun
  have hok : (Operation.containers ⟨0⟩ "struct.pair" ⟨1⟩).Allowed (fun _ _ _ => True)
      (replay listedRun) := by
    intro st hst m hm
    have hpair := structNamed?_listedRun
    rw [hst] at hpair
    cases hpair
    rw [definingModule?_history namesKept_listedRun tablesKept_listedRun, program_listedRun,
      hhome] at hm
    cases hm
    refine ⟨?_, trivial⟩
    rw [program_listedRun]
    exact Nat.lt_of_lt_of_le (by decide) steady_listedRun.layouts.size_le
  have hanswers := containerNames_exact runs_listedRun namesKept_listedRun tablesKept_listedRun
    hsize "struct.pair" hok
  have hfound := hanswers.found ⟨0⟩ structNamed?_listedRun (by rw [program_listedRun]; rfl) ⟨0⟩
    (by rw [program_listedRun]; exact hhome)
  obtain ⟨n, s', hrun⟩ := run_listedOps
  have hbuilt := hfound.built [] listedOps none n s' rfl (by decide) hrun rfl
  have hprogram : (replay listedRun).program = (replay listedOps).program := program_listedRun
  rw [← hprogram] at hbuilt
  obtain ⟨names, hquery⟩ := (hfound.met_iff hbuilt).2 fun T _ _ => by
    rw [program_listedRun]
    exact nameable_smallProgram T
  refine ⟨names, hquery, (hfound.names names _ hquery "struct.node").2 ⟨⟨2⟩, ?_, ?_, ?_⟩⟩
  · have hnode : ⟨2⟩ ∈ (listedProgram.module ⟨0⟩).structs.values := by decide +kernel
    have hafter : Runs (fun _ _ _ => True) ([] ++ listedRun) (replay listedRun) :=
      runs_listedRun
    rw [hprogram]
    exact hafter.has_of_run (by decide) hrun hnode rfl
  · rw [program_listedRun]
    exact .single ((Structs.mem_embedded _).1 (by decide))
  · rw [program_listedRun]
    rfl

end KernelObjects
