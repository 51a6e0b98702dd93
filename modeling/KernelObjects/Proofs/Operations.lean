import KernelObjects.Proofs.Findings
import KernelObjects.Proofs.Questions

/-!
# Runs of a session

Beside the events of a history, a client asks for containers by name, asks layouts questions, and
notes things about descriptors: in all, what a session offers short of tampering with tables. The
client keeps to a few rules: structs that fields mention keep their names, an analysis is made for
settings and a tracker that there are, and a question about a layout comes to an end.

An operation does one of three things, failed or not: it edits the program, it flattens, or it
retains all registries but for notes about descriptors.

Results:
* `exec_change`: every operation is one of those three.
* `Runs.sound`, `Runs.wired`: what holds after every run.
* `askLayout_plain`: a question to a layout gets its plain answer, whatever was asked before.
-/
namespace KernelObjects

/-! ## Operations -/

/-- What a client does. -/
inductive Operation where
  | event (e : Event)
  | containers (a : AnalysisId) (name : String) (home : ModuleId)
  | ask (id : LayoutId) (q : LayoutQuestion)
  | note (d : DescriptorRef) (n : Note)
  | leakSource (d : DescriptorRef) (offset : Int) (v : ValueId) (site : SiteId)
  | leak (l : LedgerRef) (offset : Int) (v : ValueId) (site : SiteId)
  | record (m : CheckMapRef) (tag : String) (inst : ValueId) (left right : List ValueId)
      (branch : Branch)
  | addSite (x : Site)

/-- There is such a descriptor. -/
def DescriptorRef.Exists (s : Session) : DescriptorRef → Prop
  | .listed a handle => handle < (s.analysis a).registry.size
  | .loose i => i < s.descriptors.size

namespace Operation

/-- The session after an operation, also if it fails. -/
def exec (s : Session) : Operation → Session
  | .event e => e.exec s
  | .containers a name home => after (Work.containerNames a name home) s
  | .ask id q => after (Work.askLayout id fun t S => q.ask t S) s
  | .note d n => after (Work.note d n) s
  | .leakSource d offset v site => after (Work.addLeakSource d offset v site) s
  | .leak l offset v site => after (Work.addLeak l offset v site) s
  | .record m tag inst left right branch => after (Work.record m tag inst left right branch) s
  | .addSite x => after (Work.addSite x) s

/-- What is asked of the client. -/
def Allowed (policy : AnalysisId → String → Target → Prop) (s : Session) : Operation → Prop
  | .event (.edit P) => s.program.structs.Evolves P.structs
  | .event (.addAnalysis settings tracker) =>
    (∀ id ∈ settings, id.idx < s.settings.size) ∧ (∀ id ∈ tracker, id.idx < s.trackers.size)
  | .event e => e.Allowed policy s
  | .containers a name home => ∀ st, (s.analysis a).registry.structNamed? name = some st →
    ∀ m, (s.analysis a).registry.definingModule? s.program st (some home) = some m →
      Event.Admits policy s a m none
  | .ask _ q => ∀ st, q.struct? = some st → s.program.structs.Founded st
  | .note d _ => d.Exists s
  | _ => True

end Operation

/-- The sessions that operations lead to, the latest operation first. -/
inductive Runs (policy : AnalysisId → String → Target → Prop) :
    List Operation → Session → Prop where
  | init : Runs policy [] {}
  | step {ops : List Operation} {s : Session} (h : Runs policy ops s) (op : Operation)
      (ha : op.Allowed policy s) : Runs policy (op :: ops) (op.exec s)

/-! ## Containers by name -/

theorem Flatten.after_containerNames (cx : FlattenContext) (name : String) (s : FlattenState) :
    after (containerNames cx name) s = s ∨
      ∃ st m, s.registry.structNamed? name = some st ∧
        s.registry.definingModule? cx.program st (some cx.home) = some m ∧
        after (containerNames cx name) s = after (handleOf (inModule cx m) st) s := by
  unfold containerNames
  simp only [after, get_bind]
  cases hst : s.registry.structNamed? name with
  | none => exact .inl rfl
  | some st =>
    dsimp only
    by_cases hb : (cx.structs.get st).isOpaque = true
    · rw [if_pos hb]
      exact .inl rfl
    · rw [if_neg hb]
      simp only [get_bind]
      cases hm : s.registry.definingModule? cx.program st (some cx.home) with
      | none => exact .inl rfl
      | some m =>
        refine .inr ⟨st, m, rfl, hm, after_bind_of_same (fun handle s' => ?_) s⟩
        rw [after, get_bind, ← after, after_bind_of_same fun _ _ => rfl, after_orRaise]

/-! ## What notes leave alone -/

namespace Descriptor

/-- The part of a descriptor that no note changes. -/
def core (d : Descriptor) : StructId × LayoutId × List (StructId × Int) × Bool × Findings :=
  (d.type, d.layout, d.containers, d.finished, d.findings)

/-- What an operation does to the descriptor at a position of a registry, if it does not flatten. -/
structure Annotated (op : Operation) (a : AnalysisId) (h : Nat) (d d' : Descriptor) : Prop where
  core : d'.core = d.core
  counters : d'.counters = d.counters ∨ ∃ offset, op = .note (.listed a h) (.refcount offset)
  allocSize : d'.allocSize = d.allocSize ∨ ∃ size, op = .note (.listed a h) (.allocSize size)

theorem Annotated.refl (op : Operation) (a : AnalysisId) (h : Nat) (d : Descriptor) :
    Annotated op a h d d :=
  ⟨rfl, .inl rfl, .inl rfl⟩

theorem Annotated.trans {op : Operation} {a : AnalysisId} {h : Nat} {d d' d'' : Descriptor}
    (hd : Annotated op a h d d') (hd' : Annotated op a h d' d'') : Annotated op a h d d'' where
  core := hd'.core.trans hd.core
  counters := by
    rcases hd'.counters with hc | hc
    · rw [hc]; exact hd.counters
    · exact .inr hc
  allocSize := by
    rcases hd'.allocSize with hc | hc
    · rw [hc]; exact hd.allocSize
    · exact .inr hc

theorem Annotated.alike {op : Operation} {a : AnalysisId} {h : Nat} {d d' : Descriptor}
    (hd : Annotated op a h d d') : Registry.Consistent.Alike d d' := by
  have hcore := hd.core
  simp only [Descriptor.core, Prod.mk.injEq] at hcore
  obtain ⟨htype, hlayout, hcontainers, -, hfindings⟩ := hcore
  exact ⟨htype, hlayout, congrArg Findings.shape hfindings, fun p => by rw [hcontainers]⟩

theorem annotated_note (a : AnalysisId) (h : Nat) (d : Descriptor) (n : Note) :
    Annotated (.note (.listed a h) n) a h d (d.note n) := by
  cases n with
  | refcount offset => exact ⟨rfl, .inr ⟨offset, rfl⟩, .inl rfl⟩
  | allocSize size => exact ⟨rfl, .inl rfl, .inr ⟨size, rfl⟩⟩
  | _ => exact ⟨rfl, .inl rfl, .inl rfl⟩

theorem annotated_addLeakSource {d d' : Descriptor} {offset : Int} {v : ValueId} {site : SiteId}
    (h : d.addLeakSource offset v site = some d') (op : Operation) (a : AnalysisId) (k : Nat) :
    Annotated op a k d d' := by
  obtain ⟨ledger, -, rfl⟩ := Option.map_eq_some_iff.1 h
  exact ⟨rfl, .inl rfl, .inl rfl⟩

end Descriptor

theorem Registry.descriptor_modify_of_size_le {r : Registry} {k : Nat} (f : Descriptor → Descriptor)
    (h : Nat) (hle : r.size ≤ k) : (r.modify k f).descriptor h = r.descriptor h := by
  simp only [modify, descriptor, Array.getD_eq_getD_getElem?, Array.getElem?_modify]
  split
  · next he => rw [← he, Array.getElem?_eq_none hle]; rfl
  · rfl

/-! ## What an operation can do -/

/-- What settings say about credentials and reference counters. -/
def Settings.marks (x : Settings) : String × OrderedSet String :=
  (x.credType, x.refcountTypes)

theorem Settings.marks_addAllocator (x : Settings) (family : Family) (name : String) :
    (x.addAllocator family name).marks = x.marks := by
  cases family <;> rfl

namespace Session

/-- Every analysis has settings and a tracker. -/
def Wired (s : Session) : Prop :=
  ∀ a : AnalysisId, a.idx < s.analyses.size →
    (s.analysis a).settings.idx < s.settings.size ∧ (s.analysis a).tracker.idx < s.trackers.size

/-- What the settings of an analysis say about credentials and reference counters. -/
def config (s : Session) (a : AnalysisId) : String × OrderedSet String :=
  (s.settingsOf (some (s.analysis a).settings)).marks

/-- An operation that neither edits the program nor flattens. -/
structure Retains (op : Operation) (s s' : Session) : Prop where
  program : s'.program = s.program
  layouts : s.layouts.Extends s'.layouts
  memos : s.layouts.Sound s.program.structs → s'.layouts.Sound s.program.structs
  wired : s.Wired → s'.Wired
  size_le : s.analyses.size ≤ s'.analyses.size
  config : s.Wired → ∀ a : AnalysisId, a.idx < s.analyses.size → s'.config a = s.config a
  size : ∀ a, (s'.analysis a).registry.size = (s.analysis a).registry.size
  handles : ∀ a b m, (s'.analysis a).registry.handle? b m = (s.analysis a).registry.handle? b m
  descriptors : ∀ a h, ((s.analysis a).registry.descriptor h).Annotated op a h
    ((s'.analysis a).registry.descriptor h)

/-- What an operation can do to a session. -/
inductive Change (policy : AnalysisId → String → Target → Prop) (s : Session) :
    Operation → Session → Prop where
  | edited {P : Program} (evolves : s.program.structs.Evolves P.structs) :
      Change policy s (.event (.edit P)) { s with program := P }
  | flattened {α : Type} {op : Operation} {a : AnalysisId} {home : ModuleId}
      {layout : Option LayoutId} {act : FlattenContext → Flatten α}
      (admits : Event.Admits policy s a home layout)
      (additive : ∀ cx, Flatten.Additive cx (act cx)) :
      Change policy s op (after (Work.flatten a home layout act) s)
  | retained {op : Operation} {s' : Session} (retains : Retains op s s') : Change policy s op s'

variable {policy : AnalysisId → String → Target → Prop} {s s' : Session} {op : Operation}

theorem after_askLayout {α : Type} (s : Session) (id : LayoutId)
    (query : Target → Structs → LayoutQuery α) :
    after (Work.askLayout id query) s =
      { s with
        layouts := s.layouts.setMemo id
          (after (query (s.layouts.targetOf id) s.program.structs) (s.layouts.get id).memo) } := by
  simp only [after, Work.askLayout, onPart, Layouts.onTarget_eq]
  cases query (s.layouts.targetOf id) s.program.structs (s.layouts.get id).memo <;> rfl

theorem settingsOf_push (s : Session) (x : Settings) {id : SettingsId}
    (h : id.idx < s.settings.size) :
    Session.settingsOf { s with settings := s.settings.push x } (some id) =
      s.settingsOf (some id) := by
  simp only [settingsOf, Option.bind_some, Array.getElem?_push, if_neg (Nat.ne_of_lt h)]

theorem marks_modify (s : Session) (id id' : SettingsId) {f : Settings → Settings}
    (hf : ∀ x, (f x).marks = x.marks) :
    (Session.settingsOf { s with settings := s.settings.modify id.idx f } (some id')).marks =
      (s.settingsOf (some id')).marks := by
  simp only [settingsOf, Option.bind_some, Array.getElem?_modify]
  split
  · cases s.settings[id'.idx]? with
    | none => rfl
    | some x => exact hf x
  · rfl

theorem analysis_push (s : Session) (x : Analysis) {a : AnalysisId} (h : a.idx < s.analyses.size) :
    Session.analysis { s with analyses := s.analyses.push x } a = s.analysis a := by
  simp only [analysis, Array.getD_eq_getD_getElem?, Array.getElem?_push, if_neg (Nat.ne_of_lt h)]

namespace Retains

theorem refl (op : Operation) (s : Session) : Retains op s s where
  program := rfl
  layouts := .refl _
  memos := id
  wired := id
  size_le := Nat.le_refl _
  config _ _ _ := rfl
  size _ := rfl
  handles _ _ _ := rfl
  descriptors _ _ := .refl ..

theorem addLayout (op : Operation) (s : Session) (t : Target) :
    Retains op s (after (Work.addLayout t) s) :=
  { refl op s with
    layouts := s.layouts.extends_define t
    memos := fun h => h.define t }

theorem ask {id : LayoutId} {q : LayoutQuestion} (op : Operation)
    (hf : ∀ st, q.struct? = some st → s.program.structs.Founded st) :
    Retains op s (after (Work.askLayout id fun t S => q.ask t S) s) := by
  rw [after_askLayout]
  exact { refl op s with
    layouts := s.layouts.extends_setMemo id _
    memos := fun h => h.setMemo ((q.answers hf).sound_after (h id)) }

theorem addSettings (op : Operation) (s : Session) (x : Settings) :
    Retains op s (after (Work.addSettings x) s) :=
  { refl op s with
    wired := fun h a ha => by
      obtain ⟨hsettings, htracker⟩ := h a ha
      refine ⟨?_, htracker⟩
      show _ < (s.settings.push x).size
      rw [Array.size_push]
      exact Nat.lt_succ_of_lt hsettings
    config := fun h a ha => congrArg Settings.marks (settingsOf_push s x (h a ha).1) }

theorem addAllocator (op : Operation) (s : Session) (id : SettingsId) (family : Family)
    (name : String) : Retains op s (after (Work.addAllocator id family name) s) :=
  { refl op s with
    wired := fun h a ha => by
      obtain ⟨hsettings, htracker⟩ := h a ha
      refine ⟨?_, htracker⟩
      show _ < (s.settings.modify id.idx (·.addAllocator family name)).size
      rw [Array.size_modify]
      exact hsettings
    config := fun _ a _ => marks_modify s id _ (·.marks_addAllocator family name) }

theorem addTracker (op : Operation) (s : Session) : Retains op s (after Work.addTracker s) :=
  { refl op s with
    wired := fun h a ha => by
      obtain ⟨hsettings, htracker⟩ := h a ha
      refine ⟨hsettings, ?_⟩
      show _ < (s.trackers.push {}).size
      rw [Array.size_push]
      exact Nat.lt_succ_of_lt htracker }

theorem trans {s'' : Session} (h : Retains op s s') (h' : Retains op s' s'') :
    Retains op s s'' where
  program := h'.program.trans h.program
  layouts := h.layouts.trans h'.layouts
  memos hm := by
    have hm' := h'.memos
    rw [h.program] at hm'
    exact hm' (h.memos hm)
  wired hw := h'.wired (h.wired hw)
  size_le := Nat.le_trans h.size_le h'.size_le
  config hw a ha :=
    (h'.config (h.wired hw) a (Nat.lt_of_lt_of_le ha h.size_le)).trans (h.config hw a ha)
  size a := (h'.size a).trans (h.size a)
  handles a b m := (h'.handles a b m).trans (h.handles a b m)
  descriptors a k := (h.descriptors a k).trans (h'.descriptors a k)

theorem pushAnalysis {x : Analysis} (op : Operation) (hx : x.registry = {})
    (hs : x.settings.idx < s.settings.size) (ht : x.tracker.idx < s.trackers.size) :
    Retains op s { s with analyses := s.analyses.push x } :=
  { refl op s with
    wired := fun h a ha => by
      rw [Array.size_push] at ha
      rcases Nat.lt_succ_iff_lt_or_eq.1 ha with hlt | heq
      · rw [analysis_push s x hlt]
        exact h a hlt
      · have hnew : Session.analysis { s with analyses := s.analyses.push x } a = x := by
          simp [analysis, heq]
        rw [hnew]
        exact ⟨hs, ht⟩
    size_le := by rw [Array.size_push]; exact Nat.le_succ _
    config := fun _ a ha => by
      rw [Session.config, analysis_push s x ha]
      rfl
    size := fun a => congrArg Registry.size (s.registry_push x hx a)
    handles := fun a b m => congrArg (Registry.handle? · b m) (s.registry_push x hx a)
    descriptors := fun a h => by
      rw [s.registry_push x hx a]
      exact .refl .. }

theorem addAnalysis (op : Operation) {settings : Option SettingsId} {tracker : Option TrackerId}
    (hs : ∀ id ∈ settings, id.idx < s.settings.size)
    (ht : ∀ id ∈ tracker, id.idx < s.trackers.size) :
    Retains op s (after (Work.addAnalysis settings tracker) s) := by
  have hsettings : ∀ {s : Session} {x : Settings},
      s.settings.size < (after (Work.addSettings x) s).settings.size := by
    intro s x
    show _ < (s.settings.push x).size
    rw [Array.size_push]
    exact Nat.lt_succ_self _
  have htracker : ∀ {s : Session},
      s.trackers.size < (after Work.addTracker s).trackers.size := by
    intro s
    show _ < (s.trackers.push {}).size
    rw [Array.size_push]
    exact Nat.lt_succ_self _
  cases settings with
  | some i =>
    cases tracker with
    | some j => exact pushAnalysis op rfl (hs i rfl) (ht j rfl)
    | none => exact (addTracker op s).trans (pushAnalysis op rfl (hs i rfl) htracker)
  | none =>
    cases tracker with
    | some j => exact (addSettings op s {}).trans (pushAnalysis op rfl hsettings (ht j rfl))
    | none =>
      exact ((addSettings op s {}).trans (addTracker op _)).trans
        (pushAnalysis op rfl hsettings htracker)

theorem modifyDescriptor {d : DescriptorRef} {f : Descriptor → Descriptor}
    (h : ∀ a k, d = .listed a k → (s.descriptor d).Annotated op a k (f (s.descriptor d))) :
    Retains op s (s.modifyDescriptor d f) := by
  cases d with
  | loose i => exact { refl op s with }
  | listed a k =>
    have hget := fun a' =>
      analysis_modify s a a' fun x => { x with registry := x.registry.modify k f }
    have hd := h a k rfl
    exact {
      program := rfl
      layouts := .refl _
      memos := id
      wired := fun hw a' ha => by
        have ha' : a'.idx < s.analyses.size := by
          simpa [Session.modifyDescriptor] using ha
        have hold := hw a' ha'
        rw [Session.modifyDescriptor, hget]
        split
        · next he => rw [he.1] at hold; exact hold
        · exact hold
      size_le := by simp [Session.modifyDescriptor]
      config := fun _ a' _ => by
        rw [Session.modifyDescriptor, Session.config, hget]
        split
        · next he => rw [he.1]; rfl
        · rfl
      size := fun a' => by
        rw [Session.modifyDescriptor, hget]
        split
        · next he => rw [he.1]; exact Array.size_modify
        · rfl
      handles := fun a' b m => by
        rw [Session.modifyDescriptor, hget]
        split
        · next he => rw [he.1]; rfl
        · rfl
      descriptors := fun a' k' => by
        rw [Session.modifyDescriptor, hget]
        split
        · next he =>
          rw [he.1]
          by_cases hlt : k < (s.analysis a).registry.size
          · rw [Registry.descriptor_modify _ _ _ _ hlt]
            split
            · next hk => rw [hk]; exact hd
            · exact .refl ..
          · rw [Registry.descriptor_modify_of_size_le _ _ (Nat.le_of_not_lt hlt)]
            exact .refl ..
        · exact .refl .. }

theorem note (s : Session) (d : DescriptorRef) (n : Note) :
    Retains (.note d n) s (after (Work.note d n) s) := by
  refine modifyDescriptor fun a k hd => ?_
  rw [hd]
  exact Descriptor.annotated_note a k _ n

theorem record {m : CheckMapRef} (op : Operation) (f : CheckMap → CheckMap) :
    Retains op s (s.modifyCheckMap m f) := by
  cases m with
  | ofSite id => exact { refl op s with }
  | loose i => exact { refl op s with }
  | allocation d => exact modifyDescriptor fun _ _ _ => ⟨rfl, .inl rfl, .inl rfl⟩
  | other d => exact modifyDescriptor fun _ _ _ => ⟨rfl, .inl rfl, .inl rfl⟩

theorem setLedger {l : LedgerRef} (op : Operation) (ledger : Ledger) :
    Retains op s (s.setLedger l ledger) := by
  cases l with
  | ofDescriptor d => exact modifyDescriptor fun _ _ _ => ⟨rfl, .inl rfl, .inl rfl⟩
  | loose i => exact { refl op s with }

end Retains

/-! ## Containers by name -/

theorem takeOver_stateFor (s : Session) (a : AnalysisId) :
    Work.takeOver a (Work.stateFor s a) s = s := by
  have hanalyses : s.analyses.modify a.idx
      (fun x => { x with registry := (s.analysis a).registry }) = s.analyses := by
    refine Array.ext_getElem? fun i => ?_
    rw [Array.getElem?_modify]
    split
    · next he =>
      subst he
      cases hx : s.analyses[a.idx]? with
      | none => rfl
      | some x => simp [analysis, Array.getD_eq_getD_getElem?, hx]
    · rfl
  have htrackers : s.trackers.modify (s.analysis a).tracker.idx
      (fun _ => s.tracker (s.analysis a).tracker) = s.trackers := by
    refine Array.ext_getElem? fun i => ?_
    rw [Array.getElem?_modify]
    split
    · next he =>
      subst he
      cases hx : s.trackers[(s.analysis a).tracker.idx]? with
      | none => rfl
      | some x => simp [tracker, Array.getD_eq_getD_getElem?, hx]
    · rfl
  simp only [Work.takeOver, Work.stateFor, hanalyses, htrackers]

/-- Asking for containers by name is asking for the struct of that name, if there is one. -/
theorem after_containerNames (s : Session) (a : AnalysisId) (name : String) (home : ModuleId) :
    after (Work.containerNames a name home) s = s ∨
      ∃ st m, (s.analysis a).registry.structNamed? name = some st ∧
        (s.analysis a).registry.definingModule? s.program st (some home) = some m ∧
        after (Work.containerNames a name home) s = after (Work.handleOf a st m none) s := by
  rw [Work.containerNames, after_flatten]
  rcases Flatten.after_containerNames (Work.contextFor s a home none) name (Work.stateFor s a) with
    he | ⟨st, m, hst, hm, he⟩
  · rw [he]
    exact .inl (takeOver_stateFor s a)
  · refine .inr ⟨st, m, hst, hm, ?_⟩
    rw [he, Work.handleOf, after_flatten]
    rfl

/-! ## Every operation -/

theorem exec_change {op : Operation} (ha : op.Allowed policy s) :
    Change policy s op (op.exec s) := by
  cases op with
  | event e =>
    cases e with
    | edit P => exact .edited ha
    | addLayout t => exact .retained (.addLayout _ s t)
    | addSettings x => exact .retained (.addSettings _ s x)
    | addAllocator id family name => exact .retained (.addAllocator _ s id family name)
    | addTracker => exact .retained (.addTracker _ s)
    | addAnalysis settings tracker => exact .retained (.addAnalysis _ ha.1 ha.2)
    | describe a st home layout =>
      -- what is done with the position afterwards changes nothing
      rw [Operation.exec, Event.exec, after_descriptorOf]
      exact .flattened ha fun _ => .handleOf st
    | locate a st home layout => exact .flattened ha fun _ => .handleOf st
    | run a home layout => exact .flattened ha fun _ => .run
  | containers a name home =>
    rw [Operation.exec]
    rcases s.after_containerNames a name home with he | ⟨st, m, hst, hm, he⟩
    · rw [he]
      exact .retained (.refl _ s)
    · rw [he]
      exact .flattened (ha st hst m hm) fun _ => .handleOf st
  | ask id q => exact .retained (.ask _ ha)
  | note d n => exact .retained (.note s d n)
  | leakSource d offset v site =>
    refine .retained ?_
    simp only [Operation.exec, Work.addLeakSource, after, get_bind]
    cases hx : (s.descriptor d).addLeakSource offset v site with
    | none => exact .refl _ s
    | some x => exact .modifyDescriptor fun a k _ => Descriptor.annotated_addLeakSource hx _ a k
  | leak l offset v site =>
    refine .retained ?_
    simp only [Operation.exec, Work.addLeak, after, get_bind]
    cases (s.ledger l).add offset v site with
    | none => exact .refl _ s
    | some ledger => exact .setLedger _ ledger
  | record m tag inst left right branch =>
    exact .retained (.record _ fun x => x.record tag inst left right branch)
  | addSite x => exact .retained { Retains.refl _ s with }

/-! ## Runs -/

theorem wired_takeOver (h : s.Wired) (a : AnalysisId) (f : FlattenState) :
    (Work.takeOver a f s).Wired := by
  intro a' ha
  have ha' : a'.idx < s.analyses.size := by simpa [Work.takeOver] using ha
  have htrackers : (Work.takeOver a f s).trackers.size = s.trackers.size := by
    simp [Work.takeOver]
  have hold := h a' ha'
  rw [htrackers, analysis_takeOver]
  split
  · next he => rw [he.1] at hold; exact hold
  · exact hold

theorem config_takeOver (s : Session) (a : AnalysisId) (f : FlattenState) (a' : AnalysisId) :
    (Work.takeOver a f s).config a' = s.config a' := by
  rw [Session.config, analysis_takeOver]
  split
  · next he => rw [he.1]; rfl
  · rfl

theorem Wired.change (h : s.Wired) (hc : Change policy s op s') : s'.Wired := by
  cases hc with
  | edited evolves => exact h
  | flattened admits additive => rw [after_flatten]; exact wired_takeOver h _ _
  | retained retains => exact retains.wired h

theorem Sound.retains (hs : s.Sound policy) (h : Retains op s s') : s'.Sound policy where
  memos := by rw [h.program]; exact h.memos hs.memos
  registries a := by
    rw [h.program]
    exact ((hs.registries a).layouts h.layouts).congr (h.size a) (h.handles a) fun k =>
      (h.descriptors a k).alike
  targets {a b m k} hb := by
    rw [h.handles] at hb
    have htgt : (s'.analysis a).registry.targetAt s'.layouts k =
        (s.analysis a).registry.targetAt s.layouts k := by
      rw [Registry.targetAt, (h.descriptors a k).alike.layout]
      exact h.layouts.targets _ ((hs.registries a).layout hb)
    exact htgt ▸ hs.targets hb

theorem Sound.change (hs : s.Sound policy) (hc : Change policy s op s') : s'.Sound policy := by
  cases hc with
  | edited evolves => exact hs.edit evolves.toGrows
  | flattened admits additive =>
    exact hs.flatten (fun cx => (additive cx).safe) admits.1 admits.2
  | retained retains => exact hs.retains retains

end Session

variable {policy : AnalysisId → String → Target → Prop} {ops : List Operation} {s : Session}

/-- A client starts with any program. -/
theorem Runs.edit (policy : AnalysisId → String → Target → Prop) (P : Program) :
    Runs policy [.event (.edit P)] { program := P } := by
  have hnone : ∀ a, ({} : Session).program.structs.get a = {} := fun a => by simp [Structs.get]
  refine .step .init (.event (.edit P)) ⟨Structs.grows_empty _, fun a e he => ?_⟩
  rw [hnone] at he
  cases he

theorem Runs.sound (h : Runs policy ops s) : s.Sound policy := by
  induction h with
  | init => exact .empty policy
  | step _ op ha ih => exact ih.change (Session.exec_change ha)

theorem Runs.wired (h : Runs policy ops s) : s.Wired := by
  induction h with
  | init => exact fun a ha => absurd ha (Nat.not_lt_zero _)
  | step _ op ha ih => exact ih.change (Session.exec_change ha)

theorem Structs.Evolves.setBody {S : Structs} {st : StructId} (h : (S.get st).isOpaque = true)
    (es : List Ty) (packed : Bool) : S.Evolves (S.setBody st es packed) := by
  exact ⟨grows_setBody h es packed, fun a e _ b _ => name_setBody S st b es packed⟩

/-! ## Questions -/

/-- After any run, a question about structs without cycles gets the answer, or the fault, that the
bodies have at that time; nothing changes but the memo of the layout, and what is in it then stays
true whatever bodies are given to opaque structs. -/
theorem askLayout_plain (h : Runs (fun _ _ _ => True) ops s) (id : LayoutId) (q : LayoutQuestion)
    (hf : ∀ st, q.struct? = some st →
      ∀ x, s.program.structs.Reaches st x → ¬ s.program.structs.Holds x x) :
    let S := s.program.structs
    let t := s.layouts.targetOf id
    ∃ memo, (∀ S', S.Grows S' → SoundMemo t S' memo) ∧
      Work.askLayout id (fun t S => q.ask t S) s =
        match q.plain t S with
        | .ok x => .ok x { s with layouts := s.layouts.setMemo id memo }
        | .error e => .error e { s with layouts := s.layouts.setMemo id memo } := by
  intro S t
  have hanswers : Answers t S (q.ask t S) (q.plain t S) :=
    q.answers fun st hst => Structs.founded_of_not_holds (hf st hst)
  obtain ⟨memo, hmemo, hask⟩ := hanswers _ (h.sound.memos id)
  refine ⟨memo, fun S' hS => hmemo.grows hS, ?_⟩
  simp only [Work.askLayout, onPart, Layouts.onTarget_eq]
  rw [hask]
  cases q.plain t S <;> rfl

/-- A struct that holds an opaque one behind one with a body. -/
def lenderProgram : Program :=
  let pair : StructDef := { name := "struct.pair", body := some [.int 8, .int 64] }
  let hidden : StructDef := { name := "struct.hidden" }
  let lender : StructDef :=
    { name := "struct.lender", body := some [.struct ⟨0⟩, .array (.struct ⟨1⟩) 2] }
  { structs := ⟨#[pair, hidden, lender]⟩
    modules := #[{ name := "m", layout := ⟨0⟩, sourceFile := "m" }] }

/-- A session with a layout for that program. -/
def lenderSession : Session :=
  (Event.addLayout {}).exec ((Event.edit lenderProgram).exec {})

/-- The session after a question that fails, in which the opaque struct is then given a body. -/
def settledSession : Session :=
  (Operation.event (.edit (lenderProgram.setBody ⟨1⟩ [.int 32] false))).exec
    ((Operation.ask ⟨0⟩ (.allocSize (.struct ⟨2⟩))).exec lenderSession)

theorem runs_lenderSession (policy : AnalysisId → String → Target → Prop) :
    Runs policy [.event (.addLayout {}), .event (.edit lenderProgram)] lenderSession :=
  .step (.edit policy lenderProgram) (.event (.addLayout {})) trivial

theorem askLayout_plain_small :
    (∃ s', Work.askLayout ⟨0⟩ (fun t S => (LayoutQuestion.allocSize (.struct ⟨2⟩)).ask t S)
      lenderSession = .error (.opaqueType "struct.hidden" .layOut) s') ∧
    ∃ s', Work.askLayout ⟨0⟩ (fun t S => (LayoutQuestion.allocSize (.struct ⟨2⟩)).ask t S)
      settledSession = .ok 24 s' := by
  have hask : ∀ st, (LayoutQuestion.allocSize (.struct ⟨2⟩)).struct? = some st →
      lenderProgram.structs.Founded st := fun st _ => Structs.founded_of_earlier (by decide) st
  have hbody : lenderProgram.structs.Evolves (lenderProgram.structs.setBody ⟨1⟩ [.int 32] false) :=
    .setBody rfl _ _
  have hasked := (runs_lenderSession fun _ _ _ => True).step
    (.ask ⟨0⟩ (.allocSize (.struct ⟨2⟩))) hask
  have hsettled := hasked.step (.event (.edit (lenderProgram.setBody ⟨1⟩ [.int 32] false))) (by
    rw [Operation.exec, Session.after_askLayout]
    exact hbody)
  constructor
  · obtain ⟨memo, -, he⟩ := askLayout_plain (runs_lenderSession _) ⟨0⟩
      (.allocSize (.struct ⟨2⟩)) fun st _ x _ =>
        (Structs.founded_of_earlier (S := lenderProgram.structs) (by decide) x).not_holds_self
    exact ⟨_, he⟩
  · obtain ⟨memo, -, he⟩ := askLayout_plain hsettled ⟨0⟩
      (.allocSize (.struct ⟨2⟩)) fun st _ x _ =>
        (Structs.founded_of_earlier (S := (lenderProgram.setBody ⟨1⟩ [.int 32] false).structs)
          (by decide) x).not_holds_self
    exact ⟨_, he⟩

end KernelObjects
