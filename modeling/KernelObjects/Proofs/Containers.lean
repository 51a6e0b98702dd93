import KernelObjects.Proofs.Gets
import KernelObjects.Proofs.Requests

/-!
# Containers

The containers of a descriptor are the structs under the same name that hold its struct, each at the
sums of the offsets of the fields on a way down. Which structs there are under a name does not
depend on the order of the requests, so neither do the containers.

Results:
* `Session.Sound.containers`: the containers under a name whose requests are on one target.
* `Session.Sound.exec_has`: a request adds to what there is what it gets, and that depends on the
  program only.
* `Session.Sound.foldl_has`: so do requests in any order.
* `containers_exact`: all of it, for a session after any history.
-/
namespace KernelObjects

variable {σ : AnalysisId → String → Target} {s s' : Session} {a : AnalysisId} {b : StructId}
  {m : String}

namespace Session

/-- An analysis has a descriptor of a struct under a name. -/
def Has (s : Session) (a : AnalysisId) (b : StructId) (m : String) : Prop :=
  ∃ i, (s.analysis a).registry.handle? b m = some i

/-- The containers that the descriptor of a struct notes. -/
def Notes (s : Session) (a : AnalysisId) (b : StructId) (m : String) (p : StructId × Int) : Prop :=
  ∃ i, (s.analysis a).registry.handle? b m = some i ∧
    p ∈ ((s.analysis a).registry.descriptor i).containers

/-- No request changes more of a session than this: descriptors are added, of structs that can be
named. -/
structure Steady (s s' : Session) : Prop where
  program : s'.program = s.program
  size : s'.analyses.size = s.analyses.size
  layouts : s.layouts.Extends s'.layouts
  kept : ∀ {a b m}, s.Has a b m → s'.Has a b m
  named : ∀ {a b m}, s'.Has a b m → s.Has a b m ∨ s.program.structs.Nameable b

theorem Steady.refl (s : Session) : Steady s s :=
  ⟨rfl, rfl, .refl _, id, .inl⟩

theorem Steady.trans {s'' : Session} (h : Steady s s') (h' : Steady s' s'') : Steady s s'' where
  program := h'.program.trans h.program
  size := h'.size.trans h.size
  layouts := h.layouts.trans h'.layouts
  kept hb := h'.kept (h.kept hb)
  named hb := by
    rcases h'.named hb with hb | hb
    · exact h.named hb
    · exact .inr (h.program ▸ hb)

/-- What an analysis has after some requests, under the name of a module. -/
theorem Steady.since (h : Steady s s') (a : AnalysisId) (home : ModuleId)
    (layout : Option LayoutId) :
    Flatten.Since (fun y => s.Has a y (s'.program.module home).name)
      (Work.contextFor s' a home layout) (Work.stateFor s' a) where
  old _ hy := h.kept hy
  named y hy := by
    have hstructs : (Work.contextFor s' a home layout).structs = s.program.structs := by
      rw [← h.program]
      rfl
    rw [hstructs]
    exact h.named hy

end Session

namespace Event

/-- The event asks for descriptors. -/
def isRequest : Event → Bool
  | .describe .. | .locate .. | .run .. => true
  | _ => false

/-- What a request gets, on targets fixed by analysis and name, in a session or after more
requests. -/
def Gets (σ : AnalysisId → String → Target) (s : Session) (a : AnalysisId) (b : StructId)
    (m : String) : Event → Prop
  | .describe a' st home _ | .locate a' st home _ =>
    (a = a' ∧ a'.idx < s.analyses.size ∧ m = (s.program.module home).name) ∧
      s.program.structs.Gets (σ a m) (fun y => s.Has a y m) st b
  | .run a' home _ =>
    (a = a' ∧ a'.idx < s.analyses.size ∧ m = (s.program.module home).name) ∧
      let S := s.program.structs
      let K := fun y => s.Has a y m
      S.gotBy (σ a m) K (S.Gets (σ a m) K)
        (Flatten.wanted S (s.program.module home).structs.values) b
  | _ => False

theorem Allowed.steady {policy : AnalysisId → String → Target → Prop} {e : Event}
    (hr : e.isRequest = true) (ha : e.Allowed policy s) (h : Session.Steady s s') :
    e.Allowed policy s' := by
  have hadmits : ∀ {a home layout}, Admits policy s a home layout →
      Admits policy s' a home layout := by
    rintro a home layout ⟨hlt, hp⟩
    simp only [Admits, h.program, h.layouts.targets _ hlt]
    exact ⟨Nat.lt_of_lt_of_le hlt h.layouts.size_le, hp⟩
  cases e with
  | describe | locate | run => exact hadmits ha
  | _ => cases hr

end Event

namespace Session.Sound

/-! ## One request -/

section

variable {α : Type} {home : ModuleId} {layout : Option LayoutId} {act : FlattenContext → Flatten α}

theorem onTarget (hs : s.Sound fun a m t => t = σ a m)
    (hok : Event.Admits (fun a m t => t = σ a m) s a home layout) :
    Flatten.OnTarget (Work.contextFor s a home layout) (σ a (s.program.module home).name)
      (Work.stateFor s a) :=
  ⟨hs.orderly a home layout hok.1, hok.2, hs.targets⟩

theorem flatten_steady (hs : s.Sound fun a m t => t = σ a m)
    (hok : Event.Admits (fun a m t => t = σ a m) s a home layout)
    (hact : ∀ cx, Flatten.Safe cx (act cx)) :
    Steady s (after (Work.flatten a home layout act) s) := by
  obtain ⟨-, ha⟩ := hact _ _ (hs.orderly a home layout hok.1)
  rw [after_flatten]
  refine ⟨rfl, by simp [Work.takeOver], ha.layouts, fun {a' b m} hb => ?_, fun {a' b m} hb => ?_⟩
  · rw [Has, analysis_takeOver]
    split
    · next he =>
      obtain ⟨i, hi⟩ := hb
      rw [he.1] at hi
      exact ⟨i, ha.old hi⟩
    · exact hb
  · rw [Has, analysis_takeOver] at hb
    split at hb
    · next he =>
      obtain ⟨i, hi⟩ := hb
      rcases ha.new hi with hi | ⟨rfl, -⟩
      · exact .inl ⟨i, he.1 ▸ hi⟩
      · -- what is new under the name of the module could be named
        rcases ha.named ⟨i, hi⟩ with ⟨j, hj⟩ | hname
        · exact .inl ⟨j, he.1 ▸ hj⟩
        · exact .inr hname
    · exact .inl hb

/-- What an action of flattening adds to what is known under the name of a module, it adds to what
the analysis has. -/
theorem flatten_has (hs : s.Sound fun a m t => t = σ a m) {a' : AnalysisId}
    (hok : Event.Admits (fun a m t => t = σ a m) s a' home layout)
    (hact : ∀ cx, Flatten.Safe cx (act cx)) (got : AnalysisId → String → StructId → Prop)
    (hgot : ∀ y, Flatten.Known (Work.contextFor s a' home layout)
          (after (act (Work.contextFor s a' home layout)) (Work.stateFor s a')) y ↔
        Flatten.Known (Work.contextFor s a' home layout) (Work.stateFor s a') y ∨
          got a' (s.program.module home).name y) :
    (after (Work.flatten a' home layout act) s).Has a b m ↔ s.Has a b m ∨
      ((a = a' ∧ a'.idx < s.analyses.size ∧ m = (s.program.module home).name) ∧ got a m b) := by
  obtain ⟨-, hadv⟩ := hact _ _ (hs.orderly a' home layout hok.1)
  rw [Has, after_flatten, analysis_takeOver]
  by_cases ha : a = a' ∧ a'.idx < s.analyses.size
  · rw [if_pos ha]
    obtain ⟨rfl, hlt⟩ := ha
    by_cases hm : m = (s.program.module home).name
    · subst hm
      simp only [hlt, true_and]
      exact hgot b
    · -- nothing is added under another name
      have hno : ¬ ((a = a ∧ a.idx < s.analyses.size ∧ m = (s.program.module home).name) ∧
          got a m b) := fun h => hm h.1.2.2
      rw [or_iff_left hno]
      constructor
      · rintro ⟨i, hi⟩
        exact ⟨i, (hadv.new hi).resolve_right fun h => hm h.1⟩
      · rintro ⟨i, hi⟩
        exact ⟨i, hadv.old hi⟩
  · rw [if_neg ha]
    exact (or_iff_left fun h => ha ⟨h.1.1, h.1.2.1⟩).symm

end

theorem exec_steady (hs : s.Sound fun a m t => t = σ a m) {e : Event} (hr : e.isRequest = true)
    (hok : e.Allowed (fun a m t => t = σ a m) s) : Steady s (e.exec s) := by
  cases e with
  | describe a' st home layout =>
    rw [Event.exec, after_descriptorOf]
    exact hs.flatten_steady hok fun _ => .handleOf st
  | locate a' st home layout => exact hs.flatten_steady hok fun _ => .handleOf st
  | run a' home layout => exact hs.flatten_steady hok fun _ => .run
  | _ => cases hr

/-- A request adds what it gets to what there is, failed or not. -/
theorem exec_has {s₀ : Session} (hs : s.Sound fun a m t => t = σ a m) (hsteady : Steady s₀ s)
    {e : Event} (hr : e.isRequest = true) (hok : e.Allowed (fun a m t => t = σ a m) s) :
    (e.exec s).Has a b m ↔ s.Has a b m ∨ e.Gets σ s₀ a b m := by
  cases e with
  | describe a' st home layout =>
    rw [Event.exec, after_descriptorOf, Event.Gets, ← hsteady.program, ← hsteady.size]
    exact hs.flatten_has hok (fun _ => .handleOf st)
      (fun a m => s.program.structs.Gets (σ a m) (fun y => s₀.Has a y m) st)
      (Flatten.handleOf_gets (hs.onTarget hok) (hsteady.since a' home layout) st)
  | locate a' st home layout =>
    rw [Event.Gets, ← hsteady.program, ← hsteady.size]
    exact hs.flatten_has hok (fun _ => .handleOf st)
      (fun a m => s.program.structs.Gets (σ a m) (fun y => s₀.Has a y m) st)
      (Flatten.handleOf_gets (hs.onTarget hok) (hsteady.since a' home layout) st)
  | run a' home layout =>
    rw [Event.Gets, ← hsteady.program, ← hsteady.size]
    exact hs.flatten_has hok (fun _ => .run)
      (fun a m => s.program.structs.gotBy (σ a m) (fun y => s₀.Has a y m)
        (s.program.structs.Gets (σ a m) fun y => s₀.Has a y m)
        (Flatten.wanted s.program.structs (s.program.module home).structs.values))
      (Flatten.run_gets (hs.onTarget hok) (hsteady.since a' home layout))
  | _ => cases hr

/-! ## Requests in any order -/

/-- Requests add what they get to what there is. -/
theorem foldl_has {s₀ : Session} (hs : s.Sound fun a m t => t = σ a m) (hsteady : Steady s₀ s)
    {es : List Event}
    (hes : ∀ e ∈ es, e.isRequest = true ∧ e.Allowed (fun a m t => t = σ a m) s₀) :
    (es.foldl Event.exec s).Sound (fun a m t => t = σ a m) ∧
      Steady s₀ (es.foldl Event.exec s) ∧
      ∀ a b m, (es.foldl Event.exec s).Has a b m ↔ s.Has a b m ∨ ∃ e ∈ es, e.Gets σ s₀ a b m := by
  induction es generalizing s with
  | nil => exact ⟨hs, hsteady, fun a b m => by simp⟩
  | cons e es ih =>
    obtain ⟨⟨hr, hok⟩, hrest⟩ := List.forall_mem_cons.1 hes
    have hok' := hok.steady hr hsteady
    obtain ⟨hs', hsteady', hhas⟩ := ih (hs.exec hok') (hsteady.trans (hs.exec_steady hr hok')) hrest
    refine ⟨hs', hsteady', fun a b m => ?_⟩
    rw [List.foldl_cons, hhas, hs.exec_has hsteady hr hok', or_assoc]
    simp only [List.exists_mem_cons_iff]

/-! ## Containers -/

theorem containers (hs : s.Sound fun a m t => t = σ a m) {i : Nat}
    (hb : (s.analysis a).registry.handle? b m = some i) (p : StructId × Int) :
    p ∈ ((s.analysis a).registry.descriptor i).containers ↔
      s.Has a p.1 m ∧ s.program.structs.Path (s.program.structs.offsetOn (σ a m)) p.1 b p.2 := by
  have hr := hs.registries a
  rw [hr.containers hb, Option.isSome_iff_exists]
  refine and_congr_right fun hp => ?_
  obtain ⟨j, hj⟩ := hp
  have hoff : ∀ x, s.program.structs.Reaches p.1 x →
      (s.analysis a).registry.offsetIn s.program.structs s.layouts m x =
        s.program.structs.offsetOn (σ a m) x := fun x hx => by
    obtain ⟨n, hn⟩ := hr.reaches hj hx
    rw [Registry.offsetIn_of_handle hn, hs.targets hn]
  exact ⟨fun h => h.congr hoff, fun h => h.congr fun x hx => (hoff x hx).symm⟩

theorem notes_iff (hs : s.Sound fun a m t => t = σ a m) (p : StructId × Int) :
    s.Notes a b m p ↔ s.Has a b m ∧ s.Has a p.1 m ∧
      s.program.structs.Path (s.program.structs.offsetOn (σ a m)) p.1 b p.2 := by
  constructor
  · rintro ⟨i, hi, hp⟩
    exact ⟨⟨i, hi⟩, (hs.containers hi p).1 hp⟩
  · rintro ⟨⟨i, hi⟩, hp⟩
    exact ⟨i, hi, (hs.containers hi p).2 hp⟩

end Session.Sound

/-- After any history on one target for each name, the containers of a descriptor are exactly the
structs under its name from which a way leads down to its struct, at the sums of the offsets on the
way. From there, requests in any order, failed or not, end with the same structs and the same
containers. -/
theorem containers_exact (σ : AnalysisId → String → Target) {s : Session}
    (h : Reachable (fun a m t => t = σ a m) s) :
    (∀ a b m i, (s.analysis a).registry.handle? b m = some i → ∀ T k,
      (T, k) ∈ ((s.analysis a).registry.descriptor i).containers ↔
        (∃ j, (s.analysis a).registry.handle? T m = some j) ∧
          s.program.structs.Path (s.program.structs.offsetOn (σ a m)) T b k) ∧
    (∀ es es' : List Event, (∀ e, e ∈ es ↔ e ∈ es') →
      (∀ e ∈ es, e.isRequest = true ∧ e.Allowed (fun a m t => t = σ a m) s) →
      ∀ a b m, ((es.foldl Event.exec s).Has a b m ↔ (es'.foldl Event.exec s).Has a b m) ∧
        ∀ p, (es.foldl Event.exec s).Notes a b m p ↔ (es'.foldl Event.exec s).Notes a b m p) := by
  refine ⟨fun a b m i hb T k => h.sound.containers hb (T, k), fun es es' hmem hes a b m => ?_⟩
  obtain ⟨hs, hsteady, hhas⟩ := h.sound.foldl_has (.refl s) hes
  obtain ⟨hs', hsteady', hhas'⟩ := h.sound.foldl_has (.refl s) fun e he => hes e ((hmem e).2 he)
  have hsame : ∀ x, (es.foldl Event.exec s).Has a x m ↔ (es'.foldl Event.exec s).Has a x m :=
    fun x => by simp only [hhas, hhas', hmem]
  refine ⟨hsame b, fun p => ?_⟩
  rw [hs.notes_iff, hs'.notes_iff, hsame b, hsame p.1, hsteady.program, hsteady'.program]

/-- The pair lies in the node as the first element of an array and as a member of the union. -/
theorem path_smallProgram :
    smallProgram.structs.Path (smallProgram.structs.offsetOn {}) ⟨2⟩ ⟨0⟩ 8 ∧
      smallProgram.structs.Path (smallProgram.structs.offsetOn {}) ⟨2⟩ ⟨0⟩ 40 := by
  have hnode : smallProgram.structs.offsetOn {} ⟨2⟩ 1 = 8 := by decide
  have hvalue :
      smallProgram.structs.offsetOn {} ⟨2⟩ 2 + smallProgram.structs.offsetOn {} ⟨1⟩ 1 = 40 := by
    decide
  constructor
  · rw [← hnode]
    exact .last rfl rfl
  · rw [← hvalue]
    exact .step rfl rfl (.last rfl rfl)

/-- A request that fails among the others does not matter. -/
theorem containers_exact_small :
    (∃ i, (askedSession.analysis ⟨0⟩).registry.handle? ⟨0⟩ "m" = some i ∧
      (⟨2⟩, 8) ∈ ((askedSession.analysis ⟨0⟩).registry.descriptor i).containers ∧
      (⟨2⟩, 40) ∈ ((askedSession.analysis ⟨0⟩).registry.descriptor i).containers) ∧
    ∀ p, ([.locate ⟨0⟩ ⟨0⟩ ⟨0⟩ none, .locate ⟨0⟩ ⟨4⟩ ⟨0⟩ none, .describe ⟨0⟩ ⟨2⟩ ⟨0⟩ none].foldl
        Event.exec smallSession).Notes ⟨0⟩ ⟨0⟩ "m" p ↔
      ([.describe ⟨0⟩ ⟨2⟩ ⟨0⟩ none, .locate ⟨0⟩ ⟨4⟩ ⟨0⟩ none, .locate ⟨0⟩ ⟨0⟩ ⟨0⟩ none].foldl
        Event.exec smallSession).Notes ⟨0⟩ ⟨0⟩ "m" p := by
  constructor
  · obtain ⟨j, hj⟩ := handle?_askedSession
    have hin : askedSession.program.structs.Embeds ⟨2⟩ ⟨0⟩ := by
      rw [program_askedSession]
      exact (Structs.mem_embedded _).1 (by decide)
    obtain ⟨i, hi⟩ := (reachable_askedSession.sound.registries ⟨0⟩).reaches hj (.single hin)
    have hexact := (containers_exact (fun _ _ => {}) reachable_askedSession).1 ⟨0⟩ ⟨0⟩ "m" i hi
    rw [program_askedSession] at hexact
    exact ⟨i, hi, (hexact ⟨2⟩ 8).2 ⟨⟨j, hj⟩, path_smallProgram.1⟩,
      (hexact ⟨2⟩ 40).2 ⟨⟨j, hj⟩, path_smallProgram.2⟩⟩
  · refine ((containers_exact (fun _ _ => {}) (reachable_smallSession _)).2 _ _ (fun e => ?_)
      (fun e he => ?_) ⟨0⟩ ⟨0⟩ "m").2
    · simp only [List.mem_cons, List.not_mem_nil, or_false]
      tauto
    · simp only [List.mem_cons, List.not_mem_nil, or_false] at he
      rcases he with rfl | rfl | rfl <;> exact ⟨rfl, by decide, by decide⟩

end KernelObjects
