import KernelObjects.Proofs.Failures
import KernelObjects.Proofs.Stable

/-!
# Positions in the arena

A client hands out the positions of descriptors and keeps them, so a position has to mean the same
thing for ever. What is asked of the client is little: opaque structs only are given bodies, modules
keep their names, and a request names a module and a layout that there are. Requests may fail at any
point, and in any order.

Results:
* `Flatten.stable_ownersIn`: a registry remembers modules of the program only.
* `Session.Tidy.next`: one call keeps a session tidy and extends every registry.
* `Session.Later.tidy`, `Session.Later.carries`: so do calls one after the other.
* `arena_arranged`: the index and the arena belong together, in the order of embedding, and what a
  position denotes stays.
-/
namespace KernelObjects

/-! ## Registries -/

/-- A finished descriptor, made in a module of that name. -/
structure Descriptor.MadeIn (P : Program) (m : String) (d : Descriptor) : Prop where
  lt : d.home.idx < P.modules.size
  name : (P.module d.home).name = m
  finished : d.finished = true

namespace Registry

/-- The index and the arena belong together: every position has one key, the descriptor there is the
one for that key, and it comes after those of the structs that its struct embeds. -/
structure Arranged (P : Program) (r : Registry) : Prop where
  lt : ∀ {st m n}, r.handle? st m = some n → n < r.size
  keyed : ∀ n < r.size, ∃! key : StructId × String, r.handle? key.1 key.2 = some n
  type : ∀ {st m n}, r.handle? st m = some n → (r.descriptor n).type = st
  made : ∀ {st m n}, r.handle? st m = some n → (r.descriptor n).MadeIn P m
  inner : ∀ {st b m n}, r.handle? st m = some n → P.structs.Embeds st b →
    ∃ k < n, r.handle? b m = some k

/-- What was in a registry is still there; a descriptor has at most gained containers. -/
structure Extends (r r' : Registry) : Prop where
  size_le : r.size ≤ r'.size
  handles : ∀ {st m n}, r.handle? st m = some n → r'.handle? st m = some n
  contents : ∀ n < r.size, r'.descriptor n =
    { r.descriptor n with containers := (r'.descriptor n).containers }
  containers : ∀ n < r.size, ∀ p ∈ (r.descriptor n).containers, p ∈ (r'.descriptor n).containers

/-- The modules that are remembered for structs are modules of the program. -/
def OwnersIn (P : Program) (r : Registry) : Prop :=
  ∀ i m, r.owners.get? i = some m → m.idx < P.modules.size

/-- The descriptors are finished, and their modules have the names that they are entered under. -/
def HomesIn (P : Program) (r : Registry) : Prop :=
  ∀ st m n, r.handle? st m = some n → (r.descriptor n).MadeIn P m

variable {P : Program} {r r' r'' : Registry}

theorem Extends.refl (r : Registry) : r.Extends r :=
  ⟨Nat.le_refl _, id, fun _ _ => rfl, fun _ _ _ => id⟩

theorem Extends.trans (h : r.Extends r') (h' : r'.Extends r'') : r.Extends r'' where
  size_le := Nat.le_trans h.size_le h'.size_le
  handles hn := h'.handles (h.handles hn)
  contents n hn := by rw [h'.contents n (Nat.lt_of_lt_of_le hn h.size_le), h.contents n hn]
  containers n hn p hp :=
    h'.containers n (Nat.lt_of_lt_of_le hn h.size_le) p (h.containers n hn p hp)

theorem OwnersIn.registerName (h : r.OwnersIn P) {home : ModuleId}
    (hhome : home.idx < P.modules.size) (S : Structs) (st : StructId) (m : Module) :
    (r.registerName S st home m).OwnersIn P := by
  intro i x hx
  unfold Registry.registerName at hx
  dsimp only at hx
  by_cases hl : (S.get st).isLiteral = true
  · rw [if_pos hl] at hx
    exact h i x hx
  rw [if_neg hl] at hx
  by_cases hd : m.defines S st = true
  · simp only [hd, if_true, Slots.get?_insertNew] at hx
    split at hx
    · -- the first module stays
      cases ho : r.owners.get? st.idx with
      | none =>
        rw [ho] at hx
        cases hx
        exact hhome
      | some y =>
        rw [ho] at hx
        cases hx
        exact h _ _ ho
    · exact h i x hx
  · simp only [hd, Bool.false_eq_true, if_false] at hx
    exact h i x hx

theorem Consistent.arranged {L : Layouts} (hr : r.Consistent P.structs L) (hm : r.HomesIn P) :
    r.Arranged P where
  lt := hr.lt
  keyed n hn := by
    obtain ⟨st, m, hk⟩ := hr.keyed n hn
    refine ⟨(st, m), hk, fun key hkey => ?_⟩
    obtain ⟨hst, hname⟩ := hr.unique hkey hk
    exact Prod.ext hst hname
  type := hr.type
  made hn := hm _ _ _ hn
  inner hn hb := by
    obtain ⟨k, hk, hlt⟩ := hr.inner hn hb
    exact ⟨k, hlt, hk⟩

end Registry

namespace Flatten

variable {cx : FlattenContext} {s : FlattenState} {α : Type}

/-! ## What flattening remembers -/

theorem stable_ownersIn (hhome : cx.home.idx < cx.program.modules.size) :
    Stable cx fun r => r.OwnersIn cx.program where
  noted hr := hr
  built {r st d} hr _ := by
    have hpush : (r.push st cx.module.name d).OwnersIn cx.program := hr
    exact hpush.registerName hhome _ _ _

/-! ## What flattening keeps -/

theorem Additive.extends {act : Flatten α} (hact : Additive cx act) (ho : Orderly cx s) :
    s.registry.Extends (after act s).registry := by
  obtain ⟨ho', ha⟩ := hact.safe s ho
  have hadds := hact.adds s ho
  exact ⟨hadds.size_le, ha.old, hadds.kept, fun n hn p hp => ha.containers_kept ho ho' hn hp⟩

theorem Additive.homesIn {act : Flatten α} (hact : Additive cx act) (ho : Orderly cx s)
    (hhome : cx.home.idx < cx.program.modules.size) (hs : s.registry.HomesIn cx.program) :
    (after act s).registry.HomesIn cx.program := by
  intro st m n hn
  obtain ⟨ho', ha⟩ := hact.safe s ho
  have hadds := hact.adds s ho
  rcases hadds.old_or_made ho ho' ha hn with ⟨hlt, hold⟩ | ⟨-, rfl, -, hmade⟩
  · obtain ⟨hlt', hname, hfinished⟩ := hs st m n hold
    rw [hadds.kept n hlt]
    exact ⟨hlt', hname, hfinished⟩
  · rw [hmade]
    refine ⟨?_, ?_, rfl⟩
    · show (assembled cx _ _ st).home.idx < _
      rw [home_assembled]
      exact hhome
    · show (cx.program.module (assembled cx _ _ st).home).name = _
      rw [home_assembled]
      rfl

/-- A request for a struct that has a descriptor finds it and does nothing else. -/
theorem handleOf_known {st : StructId} {n : Nat} (hbody : (cx.structs.get st).isOpaque = false)
    (hn : s.registry.handle? st cx.module.name = some n) : handleOf cx st s = .ok n s := by
  unfold handleOf
  rw [hbody]
  simp only [Bool.false_eq_true, if_false]
  rw [get_bind, hn]
  rfl

end Flatten

/-! ## Calls -/

/-- Modules are added, and none is renamed. -/
structure Program.KeepsModules (P P' : Program) : Prop where
  size_le : P.modules.size ≤ P'.modules.size
  name : ∀ m : ModuleId, m.idx < P.modules.size → (P'.module m).name = (P.module m).name

/-- Every module has one of the layouts. -/
def Program.Placed (P : Program) (L : Layouts) : Prop :=
  ∀ m : ModuleId, m.idx < P.modules.size → (P.module m).layout.idx < L.all.size

/-- There is such a module, and such a layout if one is given. -/
def Session.Names (s : Session) (home : ModuleId) (layout : Option LayoutId) : Prop :=
  home.idx < s.program.modules.size ∧ ∀ id ∈ layout, id.idx < s.layouts.all.size

/-- What is asked of the client. -/
def Event.Regular (s : Session) : Event → Prop
  | .edit P => s.program.structs.Grows P.structs ∧ s.program.KeepsModules P ∧ P.Placed s.layouts
  | .describe _ _ home layout | .locate _ _ home layout | .run _ home layout => s.Names home layout
  | _ => True

namespace Session

/-- One call leads from a session to another one, failed or not. -/
inductive Next (s : Session) : Session → Prop where
  | event (e : Event) (h : e.Regular s) : Next s (e.exec s)
  | containers (a : AnalysisId) (name : String) (home : ModuleId) (h : s.Names home none) :
      Next s (after (Work.containerNames a name home) s)
  | ask (id : LayoutId) (q : LayoutQuestion)
      (h : ∀ st, q.struct? = some st → s.program.structs.Founded st) :
      Next s (after (Work.askLayout id fun t S => q.ask t S) s)

/-- Calls lead from a session to another one. -/
def Later : Session → Session → Prop :=
  Relation.ReflTransGen Next

/-- What holds of a session after every call. -/
structure Tidy (s : Session) : Prop where
  sound : s.Sound fun _ _ _ => True
  placed : s.program.Placed s.layouts
  owners : ∀ a, (s.analysis a).registry.OwnersIn s.program
  homes : ∀ a, (s.analysis a).registry.HomesIn s.program

/-- Every registry of the first session is extended by that of the second one. -/
def Carries (s s' : Session) : Prop :=
  ∀ a, (s.analysis a).registry.Extends (s'.analysis a).registry

variable {s s' : Session} {a : AnalysisId} {home : ModuleId} {layout : Option LayoutId}

theorem Carries.of_eq (h : ∀ a, (s'.analysis a).registry = (s.analysis a).registry) :
    s.Carries s' := by
  intro a
  rw [h a]
  exact .refl _

theorem Carries.takeOver {f : FlattenState} (h : (s.analysis a).registry.Extends f.registry) :
    s.Carries (Work.takeOver a f s) := by
  intro a'
  rw [analysis_takeOver]
  split
  · next he =>
    rw [he.1]
    exact h
  · exact .refl _

namespace Tidy

theorem empty : Tidy {} where
  sound := .empty _
  placed m hm := absurd hm (Nat.not_lt_zero _)
  owners a i m hm := by
    rw [registry_empty] at hm
    cases hm
  homes a st m n hn := by
    rw [registry_empty] at hn
    simp [Registry.handle?] at hn

/-- A request may be made on the layout that it names, or on that of its module. -/
theorem admits (h : s.Tidy) (a : AnalysisId) (hn : s.Names home layout) :
    Event.Admits (fun _ _ _ => True) s a home layout := by
  refine ⟨?_, trivial⟩
  cases layout with
  | none => exact h.placed home hn.1
  | some id => exact hn.2 id rfl

theorem congr (h : s.Tidy) (hs : s'.Sound fun _ _ _ => True) (hP : s'.program = s.program)
    (hL : s.layouts.Extends s'.layouts)
    (hr : ∀ a, (s'.analysis a).registry = (s.analysis a).registry) : s'.Tidy where
  sound := hs
  placed m hm := by
    rw [hP] at hm ⊢
    exact Nat.lt_of_lt_of_le (h.placed m hm) hL.size_le
  owners a := by
    rw [hP, hr a]
    exact h.owners a
  homes a st m n hn := by
    rw [hr a] at hn ⊢
    rw [hP]
    exact h.homes a st m n hn

theorem edit (h : s.Tidy) {P : Program} (hS : s.program.structs.Grows P.structs)
    (hm : s.program.KeepsModules P) (hP : P.Placed s.layouts) : Tidy { s with program := P } where
  sound := h.sound.edit hS
  placed := hP
  owners a i m ho := Nat.lt_of_lt_of_le (h.owners a i m ho) hm.size_le
  homes a st m n hn := by
    obtain ⟨hlt, hname, hfinished⟩ := h.homes a st m n hn
    exact ⟨Nat.lt_of_lt_of_le hlt hm.size_le, (hm.name _ hlt).trans hname, hfinished⟩

theorem takeOver (h : s.Tidy) {f : FlattenState}
    (hs : (Work.takeOver a f s).Sound fun _ _ _ => True) (hL : s.layouts.Extends f.layouts)
    (ho : f.registry.OwnersIn s.program) (hm : f.registry.HomesIn s.program) :
    (Work.takeOver a f s).Tidy where
  sound := hs
  placed m hlt := Nat.lt_of_lt_of_le (h.placed m hlt) hL.size_le
  owners a' := by
    rw [analysis_takeOver]
    split
    · exact ho
    · exact h.owners a'
  homes a' := by
    rw [analysis_takeOver]
    split
    · exact hm
    · exact h.homes a'

/-- Flattening keeps a session tidy if it remembers modules of the program only. -/
theorem flatten {α : Type} (h : s.Tidy) (hn : s.Names home layout)
    {act : FlattenContext → Flatten α} (hact : ∀ cx, Flatten.Additive cx (act cx))
    (howns : ∀ cx : FlattenContext, cx.home.idx < cx.program.modules.size →
      Preserves (fun f => f.registry.OwnersIn cx.program) (act cx)) :
    (after (Work.flatten a home layout act) s).Tidy ∧
      s.Carries (after (Work.flatten a home layout act) s) := by
  have hadm := h.admits a hn
  have ho := h.sound.orderly a home layout hadm.1
  have hsound := h.sound.flatten (a := a) (fun cx => (hact cx).safe) hadm.1 hadm.2
  rw [after_flatten] at hsound ⊢
  have hown := howns (Work.contextFor s a home layout) hn.1 (Work.stateFor s a) (h.owners a)
  have hhomes := (hact _).homesIn ho hn.1 (h.homes a)
  exact ⟨h.takeOver hsound ((hact _).safe _ ho).2.layouts hown hhomes,
    .takeOver ((hact _).extends ho)⟩

theorem handleOf (h : s.Tidy) (hn : s.Names home layout) (st : StructId) :
    (after (Work.handleOf a st home layout) s).Tidy ∧
      s.Carries (after (Work.handleOf a st home layout) s) :=
  h.flatten hn (fun _ => .handleOf st) fun _ hhome =>
    (Flatten.stable_ownersIn hhome).handleOf st

theorem exec (h : s.Tidy) {e : Event} (he : e.Regular s) :
    (e.exec s).Tidy ∧ s.Carries (e.exec s) := by
  cases e with
  | edit P => exact ⟨h.edit he.1 he.2.1 he.2.2, .of_eq fun _ => rfl⟩
  | addLayout t =>
    exact ⟨h.congr (h.sound.addLayout t) rfl (s.layouts.extends_define t) fun _ => rfl,
      .of_eq fun _ => rfl⟩
  | addSettings | addAllocator | addTracker =>
    exact ⟨h.congr (h.sound.congr rfl rfl fun _ => rfl) rfl (.refl _) fun _ => rfl,
      .of_eq fun _ => rfl⟩
  | addAnalysis settings tracker =>
    have hs : ((Event.addAnalysis settings tracker).exec s).Sound fun _ _ _ => True :=
      h.sound.exec (e := .addAnalysis settings tracker) trivial
    cases settings <;> cases tracker <;>
      exact ⟨h.congr hs rfl (.refl _) fun a => s.registry_push _ rfl a,
        .of_eq fun a => s.registry_push _ rfl a⟩
  | describe a st home layout =>
    rw [Event.exec, after_descriptorOf]
    exact h.handleOf he st
  | locate a st home layout => exact h.handleOf he st
  | run a home layout =>
    exact h.flatten he (fun _ => .run) fun _ hhome =>
      (Flatten.stable_ownersIn hhome).run fun hr => hr.registerName hhome _ _ _

/-- One call keeps a session tidy and extends every registry. -/
theorem next (h : s.Tidy) (hnext : s.Next s') : s'.Tidy ∧ s.Carries s' := by
  cases hnext with
  | event e he => exact h.exec he
  | containers a name home hn =>
    rcases s.after_containerNames a name home with he | ⟨st, m, -, hm, he⟩
    · rw [he]
      exact ⟨h, .of_eq fun _ => rfl⟩
    · rw [he]
      -- the struct is asked for in the module that defines it, and that is one of the program
      have hhome : m.idx < s.program.modules.size := by
        unfold Registry.definingModule? at hm
        dsimp only at hm
        split at hm
        · cases hm
          exact hn.1
        · exact h.owners a _ _ hm
      exact h.handleOf ⟨hhome, by simp⟩ st
  | ask id q hq =>
    have hretains : Retains (.ask id q) s (after (Work.askLayout id fun t S => q.ask t S) s) :=
      .ask _ hq
    rw [after_askLayout] at hretains ⊢
    exact ⟨h.congr (h.sound.retains hretains) rfl hretains.layouts fun _ => rfl,
      .of_eq fun _ => rfl⟩

end Tidy

namespace Later

theorem tidy (h : s.Later s') (hs : s.Tidy) : s'.Tidy := by
  induction h with
  | refl => exact hs
  | tail _ hnext ih => exact (ih.next hnext).1

theorem carries (h : s.Later s') (hs : s.Tidy) : s.Carries s' := by
  induction h with
  | refl => exact .of_eq fun _ => rfl
  | tail hlater hnext ih => exact fun a => (ih a).trans (((tidy hlater hs).next hnext).2 a)

end Later

/-! ## Requests that are repeated -/

/-- The request is met with a position, and that is where the struct is entered. -/
theorem Tidy.handle?_of_handleOf (h : s.Tidy) (ha : a.idx < s.analyses.size)
    (hn : s.Names home layout) {st : StructId} {n : Nat}
    (hmet : Work.handleOf a st home layout s = .ok n s') :
    (s'.analysis a).registry.handle? st (s.program.module home).name = some n := by
  have ho := h.sound.orderly a home layout (h.admits a hn).1
  rw [handleOf_eq] at hmet
  rcases Flatten.handleOf_spec ho st with ⟨n', f, he, -, -, hk⟩ | ⟨e, f, he, -⟩
  · rw [he] at hmet
    cases hmet
    rw [registry_takeOver ha]
    exact hk
  · rw [he] at hmet
    cases hmet

theorem descriptorAt_of_lt {n : Nat} (hn : n < (s.analysis a).registry.size) :
    Work.descriptorAt a n s = .ok (.listed a n) s := by
  have hindex : signedIndex? (s.analysis a).registry.size n = some n := by
    rw [signedIndex?_eq_some_iff]
    omega
  simp only [Work.descriptorAt, get_bind, Registry.position, signedIndex, hindex]
  rfl

/-- Requests for the struct in modules of that name are met with that position, and leave the
session as it is. -/
def Meets (s : Session) (a : AnalysisId) (st : StructId) (m : String) (n : Nat) : Prop :=
  ∀ home layout, (s.program.module home).name = m →
    Work.handleOf a st home layout s = .ok n s ∧
      Work.descriptorOf a st home layout s = .ok (.listed a n) s

theorem Tidy.meets (h : s.Tidy) {st : StructId} {m : String} {n : Nat}
    (hn : (s.analysis a).registry.handle? st m = some n) : s.Meets a st m n := by
  intro home layout hm
  have hbody := ((h.sound.registries a).wellFormed hn).has_body
  subst hm
  have hknown : Flatten.handleOf (Work.contextFor s a home layout) st (Work.stateFor s a) =
      .ok n (Work.stateFor s a) := Flatten.handleOf_known hbody hn
  have hmet : Work.handleOf a st home layout s = .ok n s := by
    rw [handleOf_eq, hknown]
    simp only [takeOver_stateFor]
  refine ⟨hmet, ?_⟩
  rw [Work.descriptorOf, bind_ok hmet]
  rfl

/-- The struct has that position under that name, now and after all calls to come. -/
structure Settles (s : Session) (a : AnalysisId) (st : StructId) (m : String) (n : Nat) : Prop where
  entry : (s.analysis a).registry.handle? st m = some n
  lasts : ∀ s', s.Later s' → (s.analysis a).registry.Extends (s'.analysis a).registry
  denotes : ∀ s', s.Later s' → Work.descriptorAt a n s' = .ok (.listed a n) s'
  meets : ∀ s', s.Later s' → s'.Meets a st m n

theorem Tidy.settles (h : s.Tidy) {st : StructId} {m : String} {n : Nat}
    (hn : (s.analysis a).registry.handle? st m = some n) : s.Settles a st m n where
  entry := hn
  lasts s' hlater := hlater.carries h a
  denotes s' hlater := by
    have hlt := (h.sound.registries a).lt hn
    exact descriptorAt_of_lt (Nat.lt_of_lt_of_le hlt (hlater.carries h a).size_le)
  meets s' hlater := (hlater.tidy h).meets ((hlater.carries h a).handles hn)

end Session

/-- After any calls, met or failed, the index and the arena of every analysis belong together, in
the order of embedding. A struct that is entered keeps its position for good, and a request that is
met is met with such a position. -/
theorem arena_arranged {s : Session} (h : Session.Later {} s) :
    (∀ a, (s.analysis a).registry.Arranged s.program) ∧
    (∀ a st m n, (s.analysis a).registry.handle? st m = some n → s.Settles a st m n) ∧
    ∀ a st home layout n s', a.idx < s.analyses.size → s.Names home layout →
      Work.handleOf a st home layout s = .ok n s' →
      s'.Settles a st (s.program.module home).name n := by
  have ht := h.tidy .empty
  refine ⟨fun a => ?_, fun a st m n hn => ht.settles hn, fun a st home layout n s' ha hn hmet => ?_⟩
  · exact (ht.sound.registries a).arranged (ht.homes a)
  · have hnext : s.Next s' := by
      have hexec : s' = (Event.locate a st home layout).exec s := (after_ok hmet).symm
      rw [hexec]
      exact .event (.locate a st home layout) hn
    exact (ht.next hnext).1.settles (ht.handle?_of_handleOf ha hn hmet)

/-- The small session can be made with its layout first. -/
theorem later_smallSession : Session.Later {} smallSession := by
  have hmodules : ({} : Session).program.KeepsModules smallProgram :=
    ⟨Nat.zero_le _, fun m hm => absurd hm (Nat.not_lt_zero _)⟩
  have hplaced : smallProgram.Placed ((Event.addLayout {}).exec {}).layouts := by
    rintro ⟨i⟩ hi
    obtain rfl : i = 0 := Nat.lt_one_iff.1 hi
    decide
  have hlayout : Session.Next {} ((Event.addLayout {}).exec {}) := .event (.addLayout {}) trivial
  have hedit := Session.Next.event (s := (Event.addLayout {}).exec {}) (.edit smallProgram)
    ⟨Structs.grows_empty _, hmodules, hplaced⟩
  exact ((Relation.ReflTransGen.single hlayout).tail hedit).tail
    (.event (.addAnalysis none none) trivial)

/-- A struct keeps its position through a request that fails for another one, which holds itself and
so could not come after itself. -/
theorem arena_arranged_small :
    ∃ n s', Work.handleOf ⟨0⟩ ⟨2⟩ ⟨0⟩ none smallSession = .ok n s' ∧
      (∃ k < n, (s'.analysis ⟨0⟩).registry.handle? ⟨1⟩ "m" = some k) ∧
      (¬ ∃ k s'', Work.handleOf ⟨0⟩ ⟨4⟩ ⟨0⟩ none s' = .ok k s'') ∧
      ((Event.locate ⟨0⟩ ⟨4⟩ ⟨0⟩ none).exec s').Meets ⟨0⟩ ⟨2⟩ "m" n := by
  have hnames : smallSession.Names ⟨0⟩ none := ⟨by decide, by simp⟩
  have hnext : smallSession.Next askedSession := .event (.locate ⟨0⟩ ⟨2⟩ ⟨0⟩ none) hnames
  have hlater : Session.Later {} askedSession := later_smallSession.tail hnext
  have hsteady : smallSession.Steady askedSession :=
    (reachable_smallSession fun _ _ t => t = {}).sound.exec_steady
      (e := .locate ⟨0⟩ ⟨2⟩ ⟨0⟩ none) rfl ⟨by decide, by decide⟩
  have hnames' : askedSession.Names ⟨0⟩ none := by
    refine ⟨?_, by simp⟩
    rw [hsteady.program]
    decide
  obtain ⟨n, hmet, -⟩ := met_smallSession
  have hsettles : askedSession.Settles ⟨0⟩ ⟨2⟩ "m" n :=
    (arena_arranged later_smallSession).2.2 ⟨0⟩ ⟨2⟩ ⟨0⟩ none n _ (by decide) hnames hmet
  obtain ⟨harranged, -, hreturned⟩ := arena_arranged hlater
  refine ⟨n, askedSession, hmet, ?_, ?_, ?_⟩
  · refine (harranged ⟨0⟩).inner hsettles.entry ?_
    rw [hsteady.program]
    exact (Structs.mem_embedded _).1 (by decide)
  · rintro ⟨k, s'', hloop⟩
    have hsize : 0 < askedSession.analyses.size := by
      rw [hsteady.size]
      decide
    have hentry := (hreturned ⟨0⟩ ⟨4⟩ ⟨0⟩ none k s'' hsize hnames' hloop).entry
    have hs'' : s'' = (Event.locate ⟨0⟩ ⟨4⟩ ⟨0⟩ none).exec askedSession := (after_ok hloop).symm
    have hlater' : Session.Later {} s'' := hs'' ▸ hlater.tail (.event _ hnames')
    have hembeds : s''.program.structs.Embeds ⟨4⟩ ⟨4⟩ := by
      rw [hs'', Event.exec, Work.handleOf, Session.after_flatten]
      show askedSession.program.structs.Embeds ⟨4⟩ ⟨4⟩
      rw [hsteady.program]
      exact (Structs.mem_embedded _).1 (by decide)
    obtain ⟨k', hlt, hk'⟩ := ((arena_arranged hlater').1 ⟨0⟩).inner hentry hembeds
    rw [hentry] at hk'
    cases hk'
    exact Nat.lt_irrefl _ hlt
  · exact hsettles.meets _ (.single (.event (.locate ⟨0⟩ ⟨4⟩ ⟨0⟩ none) hnames'))

end KernelObjects
