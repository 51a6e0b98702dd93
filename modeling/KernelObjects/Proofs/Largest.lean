import KernelObjects.Proofs.Actions
import KernelObjects.Proofs.Failures
import KernelObjects.Proofs.Tables

/-!
# The largest struct

A tracker is offered every descriptor that is put into the registry of its analysis, at the moment
when it is put there, and a larger one alone replaces what it holds. So it holds the first of the
largest descriptors in the arena, whatever requests were made and wherever they failed. This takes
two things: every table has an entry, so that the first offer is not turned down, and the tables in
an arena do not change, so that what the tracker was told stays true.

What is asked of the client is that the tracker belongs to the analysis alone, and that nothing is
offered to it from outside.

Results:
* `Flatten.preserves_tracked_handleOf`, `Flatten.preserves_tracked_run`: requests keep the tracker
  in step with the arena.
* `Session.Records.action`: so does every action; `Acts.records`: so do all of them together.
* `Flatten.exists_largest`: what a tracker holds that is in step.
* `largest_exact`: the record of the largest struct.
-/
namespace KernelObjects

/-! ## What a tracker holds -/

/-- The first of the largest descriptors among the first `n` is at position `k`. -/
structure Registry.Largest (r : Registry) (n k : Nat) : Prop where
  lt : k < n
  le : ∀ m < n, (r.descriptor m).expandedSize ≤ (r.descriptor k).expandedSize
  first : ∀ m < k, (r.descriptor m).expandedSize < (r.descriptor k).expandedSize

theorem Descriptor.Settled.expandedSize_pos {d : Descriptor} (h : d.Settled) :
    0 < d.expandedSize := by
  have hfields := d.fields_settle_ne
  rw [h.settle] at hfields
  exact Array.size_pos_iff.2 hfields

namespace Flatten

variable {r r' : Registry}

theorem offered_succ (r : Registry) (n : Nat) (t : Tracker) :
    offered r 0 (n + 1) t =
      (offered r 0 n t).update (r.descriptor n).type (r.descriptor n).expandedSize := by
  rw [offered_append, Nat.zero_add]
  rfl

theorem size_le_offered (r : Registry) (first count : Nat) (t : Tracker) :
    t.size ≤ (offered r first count t).size := by
  unfold offered
  induction List.range' first count generalizing t with
  | nil => exact Int.le_refl _
  | cons i is ih => exact Int.le_trans (t.update_size_le _ _) (ih _)

/-- A tracker that was offered tables with entries holds the first of the largest ones. -/
theorem exists_largest {n : Nat} (hn : 0 < n) (hpos : ∀ m < n, 0 < (r.descriptor m).expandedSize) :
    ∃ k, r.Largest n k ∧
      offered r 0 n {} = ⟨some (r.descriptor k).type, (r.descriptor k).expandedSize⟩ := by
  induction n with
  | zero => omega
  | succ n ih =>
    rw [offered_succ]
    rcases Nat.eq_zero_or_pos n with rfl | hn'
    · have h0 := hpos 0 (by omega)
      refine ⟨0, ⟨by omega, fun m hm => ?_, fun m hm => by omega⟩, ?_⟩
      · obtain rfl : m = 0 := by omega
        exact Nat.le_refl _
      · exact if_pos (Int.natCast_pos.2 h0)
    · obtain ⟨k, ⟨hlt, hle, hfirst⟩, hk⟩ := ih hn' fun m hm => hpos m (by omega)
      rw [hk, Tracker.update]
      dsimp only
      by_cases hlarger : (r.descriptor k).expandedSize < (r.descriptor n).expandedSize
      · -- the new one is larger than all before it
        refine ⟨n, ⟨by omega, fun m hm => ?_, fun m hm => ?_⟩, if_pos (by omega)⟩
        · rcases Nat.lt_or_eq_of_le (Nat.le_of_lt_succ hm) with hm | rfl
          · have := hle m hm
            omega
          · exact Nat.le_refl _
        · have := hle m hm
          omega
      · refine ⟨k, ⟨by omega, fun m hm => ?_, hfirst⟩, if_neg (by omega)⟩
        rcases Nat.lt_or_eq_of_le (Nat.le_of_lt_succ hm) with hm | rfl
        · exact hle m hm
        · omega

/-! ## Requests -/

/-- The tracker has been offered the descriptors of the arena, in order. -/
def Tracked (s : FlattenState) : Prop :=
  s.tracker = offered s.registry 0 s.registry.size {}

theorem offered_of_lasts (h : r.Lasts r') : offered r' 0 r.size {} = offered r 0 r.size {} := by
  refine offered_congr (fun i hi => ?_) _
  have hbecomes := h.becomes i (by omega)
  exact ⟨hbecomes.type, by rw [Descriptor.expandedSize, Descriptor.expandedSize, hbecomes.shape]⟩

theorem robust_tracked : Robust Tracked where
  asked hs := hs
  noted {s handle container offset} hs := by
    unfold Tracked at hs ⊢
    have hsize : (s.registry.modify handle (·.addContainer container offset)).size =
        s.registry.size := Array.size_modify
    dsimp only
    rw [hs, hsize]
    refine (offered_congr (fun i _ => ?_) _).symm
    obtain ⟨cs, hcs⟩ := s.registry.descriptor_addContainer handle container offset i
    rw [hcs]
    exact ⟨rfl, rfl⟩

variable {cx : FlattenContext}

theorem tracked_published {s : FlattenState} {st : StructId} {d : Descriptor} (hs : Tracked s)
    (hd : Fresh cx st d) : Tracked (published cx st d s) := by
  unfold Tracked at hs ⊢
  have hsize : (published cx st d s).registry.size = s.registry.size + 1 := by
    simp only [published, Registry.size_registerName]
    exact Array.size_push ..
  have hget : ∀ i, (published cx st d s).registry.descriptor i =
      if i = s.registry.size then d else s.registry.descriptor i := by
    intro i
    simp only [published, Registry.descriptor_registerName, Registry.descriptor_push]
  have hold : offered (published cx st d s).registry 0 s.registry.size {} =
      offered s.registry 0 s.registry.size {} := by
    refine offered_congr (fun i hi => ?_) _
    have hne : i ≠ s.registry.size := by omega
    rw [hget, if_neg hne]
    exact ⟨rfl, rfl⟩
  rw [hsize, offered_succ, hold, hget, if_pos rfl, hd.type, ← hs]
  rfl

theorem preserves_tracked_build (st : StructId) : Preserves Tracked (build cx st) :=
  preserves_build robust_tracked (prepare_fresh cx st) fun _ _ => tracked_published

theorem preserves_tracked_handleOf (st : StructId) : Preserves Tracked (handleOf cx st) :=
  preserves_handleOf preserves_tracked_build st

theorem preserves_tracked_run : Preserves Tracked (run cx) := by
  refine preserves_run preserves_tracked_build (fun s st hs => ?_) fun _ _ hs => hs
  unfold Tracked at hs ⊢
  dsimp only
  rw [hs, Registry.size_registerName]
  refine (offered_congr (fun i _ => ?_) _).symm
  rw [Registry.descriptor_registerName]
  exact ⟨rfl, rfl⟩

end Flatten

/-! ## Actions -/

namespace Session

variable {s s' s'' : Session} {a : AnalysisId} {id : TrackerId}

/-- Every analysis has a tracker. -/
def Equipped (s : Session) : Prop :=
  ∀ a : AnalysisId, a.idx < s.analyses.size → (s.analysis a).tracker.idx < s.trackers.size

/-- The analyses keep their trackers, and new ones get trackers that there are. -/
structure Assigns (s s' : Session) : Prop where
  size_le : s.analyses.size ≤ s'.analyses.size
  trackers_le : s.trackers.size ≤ s'.trackers.size
  old : ∀ a : AnalysisId, a.idx < s.analyses.size → (s'.analysis a).tracker = (s.analysis a).tracker
  new : ∀ a : AnalysisId, s.analyses.size ≤ a.idx → a.idx < s'.analyses.size →
    (s'.analysis a).tracker.idx < s'.trackers.size

/-- Beside that, no descriptor was added, and the trackers hold what they held. -/
structure Spares (s s' : Session) : Prop extends s.Assigns s' where
  size : ∀ a, (s'.analysis a).registry.size = (s.analysis a).registry.size
  tracker : ∀ id, s'.tracker id = s.tracker id

namespace Assigns

theorem refl (s : Session) : s.Assigns s :=
  ⟨Nat.le_refl _, Nat.le_refl _, fun _ _ => rfl, fun _ hle hlt => absurd hlt (Nat.not_lt.2 hle)⟩

theorem trans (h : s.Assigns s') (h' : s'.Assigns s'') : s.Assigns s'' where
  size_le := Nat.le_trans h.size_le h'.size_le
  trackers_le := Nat.le_trans h.trackers_le h'.trackers_le
  old a ha := (h'.old a (Nat.lt_of_lt_of_le ha h.size_le)).trans (h.old a ha)
  new a hle hlt := by
    rcases Nat.lt_or_ge a.idx s'.analyses.size with hlt' | hle'
    · rw [h'.old a hlt']
      exact Nat.lt_of_lt_of_le (h.new a hle hlt') h'.trackers_le
    · exact h'.new a hle' hlt

theorem equipped (h : s.Assigns s') (hs : s.Equipped) : s'.Equipped := by
  intro a ha
  rcases Nat.lt_or_ge a.idx s.analyses.size with hlt | hle
  · rw [h.old a hlt]
    exact Nat.lt_of_lt_of_le (hs a hlt) h.trackers_le
  · exact h.new a hle ha

theorem modifyDescriptor (s : Session) (d : DescriptorRef) (f : Descriptor → Descriptor) :
    s.Assigns (s.modifyDescriptor d f) := by
  cases d with
  | loose i => exact { refl s with }
  | listed a n =>
    have hsize : (s.modifyDescriptor (.listed a n) f).analyses.size = s.analyses.size := by
      simp [Session.modifyDescriptor]
    refine ⟨by omega, Nat.le_refl _, fun b _ => ?_, fun b hle hlt => by omega⟩
    rw [Session.modifyDescriptor, analysis_modify]
    split
    · next he => rw [he.1]
    · rfl

theorem takeOver (s : Session) (a : AnalysisId) (f : FlattenState) :
    s.Assigns (Work.takeOver a f s) := by
  have hsize : (Work.takeOver a f s).analyses.size = s.analyses.size := by
    simp [Work.takeOver]
  have htrackers : (Work.takeOver a f s).trackers.size = s.trackers.size := by
    simp [Work.takeOver]
  refine ⟨by omega, by omega, fun b _ => ?_, fun b hle hlt => by omega⟩
  rw [analysis_takeOver]
  split
  · next he => rw [he.1]
  · rfl

theorem setTrackers {ts : Array Tracker} (h : s.trackers.size ≤ ts.size) :
    s.Assigns { s with trackers := ts } :=
  ⟨Nat.le_refl _, h, fun _ _ => rfl, fun _ hle hlt => absurd hlt (Nat.not_lt.2 hle)⟩

theorem pushAnalysis (s : Session) {x : Analysis} (hx : x.tracker.idx < s.trackers.size) :
    s.Assigns { s with analyses := s.analyses.push x } where
  size_le := by simp
  trackers_le := Nat.le_refl _
  old b hb := by rw [analysis_push s x hb]
  new b hle hlt := by
    have hb : b.idx = s.analyses.size := by
      simp at hlt
      omega
    have hnew : Session.analysis { s with analyses := s.analyses.push x } b = x := by
      simp [analysis, hb]
    rw [hnew]
    exact hx

end Assigns

namespace Spares

theorem refl (s : Session) : s.Spares s :=
  { Assigns.refl s with size := fun _ => rfl, tracker := fun _ => rfl }

theorem trans (h : s.Spares s') (h' : s'.Spares s'') : s.Spares s'' :=
  { h.toAssigns.trans h'.toAssigns with
    size := fun a => (h'.size a).trans (h.size a)
    tracker := fun id => (h'.tracker id).trans (h.tracker id) }

theorem modifyDescriptor (s : Session) (d : DescriptorRef) (f : Descriptor → Descriptor) :
    s.Spares (s.modifyDescriptor d f) := by
  refine { Assigns.modifyDescriptor s d f with size := fun a => ?_, tracker := fun id => ?_ }
  · cases d with
    | loose i => rfl
    | listed b n =>
      rw [Session.modifyDescriptor, analysis_modify]
      split
      · next he => rw [he.1]; exact Array.size_modify
      · rfl
  · cases d <;> rfl

/-- A tracker that there is not holds as much as a new one. -/
theorem addTracker (s : Session) : s.Spares (after Work.addTracker s) := by
  have htracker : ∀ id, (after Work.addTracker s).tracker id = s.tracker id := by
    intro id
    show (s.trackers.push {}).getD id.idx {} = s.trackers.getD id.idx {}
    simp only [Array.getD_eq_getD_getElem?, Array.getElem?_push]
    split
    · next he => simp [he]
    · rfl
  have hassigns : s.Assigns (after Work.addTracker s) := .setTrackers (by simp)
  exact { hassigns with size := fun _ => rfl, tracker := htracker }

theorem pushAnalysis (s : Session) {x : Analysis} (hx : x.registry = {})
    (ht : x.tracker.idx < s.trackers.size) : s.Spares { s with analyses := s.analyses.push x } :=
  { Assigns.pushAnalysis s ht with
    size := fun a => by rw [s.registry_push x hx a]
    tracker := fun _ => rfl }

theorem addAnalysis {settings : Option SettingsId} {tracker : Option TrackerId}
    (ht : ∀ id, tracker = some id → id.idx < s.trackers.size) :
    s.Spares (after (Work.addAnalysis settings tracker) s) := by
  have hsettings : ∀ x, s.Spares (after (Work.addSettings x) s) := fun _ => { refl s with }
  have hnew : ∀ s : Session, s.trackers.size < (after Work.addTracker s).trackers.size := by
    intro s
    show _ < (s.trackers.push {}).size
    simp
  cases settings with
  | some i =>
    cases tracker with
    | some j => exact pushAnalysis s rfl (ht j rfl)
    | none => exact (addTracker s).trans (pushAnalysis _ rfl (hnew s))
  | none =>
    cases tracker with
    | some j => exact (hsettings {}).trans (pushAnalysis _ rfl (ht j rfl))
    | none =>
      exact ((hsettings {}).trans (addTracker _)).trans (pushAnalysis _ rfl (hnew _))

end Spares

/-- An operation other than a request leaves arenas and trackers alone. -/
theorem exec_spares {op : Operation} (hop : op.module? = none)
    (ht : ∀ id, op.tracker? = some id → id.idx < s.trackers.size) : s.Spares (op.exec s) := by
  have hidle := Spares.refl s
  have hmodify := Spares.modifyDescriptor s
  cases op with
  | event e =>
    cases e with
    | edit | addLayout | addSettings | addAllocator => exact { hidle with }
    | addTracker => exact .addTracker s
    | addAnalysis settings tracker => exact .addAnalysis ht
    | describe | locate | run => cases hop
  | containers => cases hop
  | ask id q =>
    rw [Operation.exec, after_askLayout]
    exact { hidle with }
  | note d n => exact hmodify d _
  | leakSource d offset v site =>
    simp only [Operation.exec, Work.addLeakSource, after, get_bind]
    cases (s.descriptor d).addLeakSource offset v site with
    | none => exact hidle
    | some x => exact hmodify d _
  | leak l offset v site =>
    simp only [Operation.exec, Work.addLeak, after, get_bind]
    cases (s.ledger l).add offset v site with
    | none => exact hidle
    | some ledger =>
      cases l with
      | ofDescriptor d => exact hmodify d _
      | loose i => exact { hidle with }
  | record m tag inst left right branch =>
    cases m with
    | ofSite id => exact { hidle with }
    | loose i => exact { hidle with }
    | allocation d => exact hmodify d _
    | other d => exact hmodify d _
  | addSite x => exact { hidle with }

/-- A request keeps the tracker of its analysis in step. -/
theorem exec_tracked {op : Operation} {home : ModuleId} (hop : op.module? = some (a, home)) :
    ∃ f, op.exec s = Work.takeOver a f s ∧
      (Flatten.Tracked (Work.stateFor s a) → Flatten.Tracked f) :=
  exec_request (fun _ => Flatten.preserves_tracked_handleOf)
    (fun _ => Flatten.preserves_tracked_run) hop

theorem exec_assigns {x : Action} (hx : x.Proper s) : s.Assigns (x.exec s) := by
  cases x with
  | operation op =>
    rw [Action.exec]
    cases hop : op.module? with
    | none => exact (exec_spares hop hx.2.1).toAssigns
    | some p =>
      obtain ⟨f, he, -⟩ := exec_tracked (s := s) hop
      rw [he]
      exact .takeOver s p.1 f
  | offer id st size =>
    exact .setTrackers (Nat.le_of_eq Array.size_modify.symm)
  | addDescriptor st home layout settings =>
    rw [Action.exec]
    rcases s.after_addDescriptor st home layout settings with he | ⟨name, he⟩
    · rw [he]
      exact .refl s
    · rw [he]
      exact { Assigns.refl s with }

/-- The tracker belongs to this analysis alone, also if the analysis is still to be made. -/
def Owned (s : Session) (a : AnalysisId) (id : TrackerId) : Prop :=
  ∀ b : AnalysisId, b.idx < s.analyses.size → ((s.analysis b).tracker = id ↔ b = a)

theorem Assigns.owned (h : s.Assigns s') (hown : s'.Owned a id) : s.Owned a id := by
  intro b hb
  rw [← h.old b hb]
  exact hown b (Nat.lt_of_lt_of_le hb h.size_le)

/-- The tracker is in step with the arena of the analysis. -/
def Records (s : Session) (a : AnalysisId) (id : TrackerId) : Prop :=
  s.tracker id =
    Flatten.offered (s.analysis a).registry 0 (s.analysis a).registry.size {}

theorem tracker_modify_ne {id' : TrackerId} (h : id' ≠ id) (f : Tracker → Tracker) :
    Session.tracker { s with trackers := s.trackers.modify id'.idx f } id = s.tracker id := by
  have hne : id'.idx ≠ id.idx := fun he => h (congrArg TrackerId.mk he)
  simp [tracker, Array.getD_eq_getD_getElem?, Array.getElem?_modify, hne]

namespace Records

theorem spares (h : s.Records a id) (hs : s.Spares s') (hlasts : s.Lasts s') :
    s'.Records a id := by
  unfold Records at h ⊢
  rw [hs.tracker, h, hs.size, Flatten.offered_of_lasts (hlasts a)]

theorem takeOver (h : s.Records a id) (hs : s.Equipped) (hown : s.Owned a id) {b : AnalysisId}
    (hb : b.idx < s.analyses.size) {f : FlattenState}
    (hf : Flatten.Tracked (Work.stateFor s b) → Flatten.Tracked f) :
    (Work.takeOver b f s).Records a id := by
  unfold Records at h ⊢
  by_cases he : b = a
  · subst he
    obtain rfl := (hown b hb).2 rfl
    rw [registry_takeOver hb, tracker_takeOver (hs b hb)]
    exact hf h
  · have hother : (s.analysis b).tracker ≠ id := fun ht => he ((hown b hb).1 ht)
    have htracker : (Work.takeOver b f s).tracker id = s.tracker id :=
      tracker_modify_ne hother fun _ => f.tracker
    rw [htracker, analysis_takeOver, if_neg fun hc => he hc.1.symm]
    exact h

/-- The step: what is asked of an analysis is offered to its tracker, and nothing else is. -/
theorem action (h : s.Records a id) (hs : s.Equipped) (hown : s.Owned a id) {x : Action}
    (hx : x.Proper s) (hlasts : s.Lasts (x.exec s))
    (hdirect : ∀ st size, x ≠ .offer id st size) : (x.exec s).Records a id := by
  cases x with
  | operation op =>
    cases hop : op.module? with
    | none => exact h.spares (exec_spares hop hx.2.1) hlasts
    | some p =>
      obtain ⟨f, he, hf⟩ := exec_tracked (s := s) hop
      rw [Action.exec, he]
      exact h.takeOver hs hown (hx.1 p.1 p.2 hop) hf
  | offer id' st size =>
    have hne : id' ≠ id := fun he => hdirect st size (he ▸ rfl)
    have htracker : (Action.exec s (.offer id' st size)).tracker id = s.tracker id :=
      tracker_modify_ne hne (·.update st size)
    exact htracker.trans h
  | addDescriptor st home layout settings =>
    rw [Action.exec]
    rcases s.after_addDescriptor st home layout settings with he | ⟨name, he⟩
    · rwa [he]
    · rw [he]
      exact h

end Records

end Session

namespace Acts

variable {xs later before : List Action} {s s' : Session} {a : AnalysisId} {id : TrackerId}

theorem assigns (h : Acts xs s) (h' : Acts (later ++ xs) s') : s.Assigns s' :=
  h.of_append (p := s.Assigns) (fun _ _ _ hx hs => hs.trans (Session.exec_assigns hx)) h' (.refl s)

theorem equipped (h : Acts xs s) : s.Equipped := by
  have hstart : Acts (xs ++ []) s := by simpa using h
  exact (Acts.init.assigns hstart).equipped nofun

/-- The run: a tracker that is left to one analysis is in step with it throughout. -/
theorem records (h : Acts xs s) (hown : s.Owned a id)
    (hdirect : ∀ st size, Action.offer id st size ∉ xs) : s.Records a id := by
  induction h with
  | init => rfl
  | @step xs s h x hx ih =>
    have hnext : Acts ([x] ++ xs) (x.exec s) := h.step x hx
    refine (ih ((Session.exec_assigns hx).owned hown) fun st size hmem => ?_).action h.equipped
      ((Session.exec_assigns hx).owned hown) hx (h.lasts hnext) fun st size he => ?_
    · exact hdirect st size (List.mem_cons_of_mem _ hmem)
    · exact hdirect st size (he ▸ List.mem_cons_self ..)

end Acts

/-- The tracker of an analysis, if it is left to it, holds nothing as long as the arena is empty,
and otherwise the type and the size of the first of the largest descriptors there. The size never
falls. -/
theorem largest_exact {later before : List Action} {s s' : Session} {a : AnalysisId}
    (h : Acts before s) (h' : Acts (later ++ before) s') (ha : a.idx < s.analyses.size)
    (hown : ∀ b : AnalysisId, b.idx < s'.analyses.size →
      (s'.analysis b).tracker = (s'.analysis a).tracker → b = a)
    (hdirect : ∀ st size, Action.offer (s'.analysis a).tracker st size ∉ later ++ before) :
    let r := (s'.analysis a).registry
    let t := s'.tracker (s'.analysis a).tracker
    (t = {} ↔ r.size = 0) ∧
      (0 < r.size → ∃ k, r.Largest r.size k ∧
        t = ⟨some (r.descriptor k).type, (r.descriptor k).expandedSize⟩) ∧
      (s.tracker (s.analysis a).tracker).size ≤ t.size := by
  intro r t
  have hassigns := h.assigns h'
  have hlasts := h.lasts h'
  have hown' : s'.Owned a (s'.analysis a).tracker := fun b hb => ⟨hown b hb, fun he => he ▸ rfl⟩
  have ht : t = Flatten.offered r 0 r.size {} := h'.records hown' hdirect
  have hlargest : 0 < r.size → ∃ k, r.Largest r.size k ∧
      t = ⟨some (r.descriptor k).type, (r.descriptor k).expandedSize⟩ := fun hsize =>
    ht ▸ Flatten.exists_largest hsize fun m hm => ((hlasts a).settled m hm).expandedSize_pos
  refine ⟨⟨fun hempty => ?_, fun hsize => ?_⟩, hlargest, ?_⟩
  · by_contra hne
    obtain ⟨k, -, hk⟩ := hlargest (Nat.pos_of_ne_zero hne)
    rw [hempty] at hk
    cases hk
  · rw [ht, hsize]
    rfl
  · have htracker := hassigns.old a ha
    have hs : s.tracker (s.analysis a).tracker = _ :=
      h.records (htracker ▸ hassigns.owned hown') fun st size hmem =>
        hdirect st size (htracker ▸ List.mem_append_right later hmem)
    have hsplit := Nat.add_sub_of_le (hlasts a).size_le
    rw [ht, ← hsplit, Flatten.offered_append, Flatten.offered_of_lasts (hlasts a), hs]
    exact Flatten.size_le_offered ..

/-- What a client does to ask for a struct. -/
def askActions : List Action :=
  [Event.locate ⟨0⟩ ⟨2⟩ ⟨0⟩ none, .addAnalysis none none, .addLayout {}, .edit smallProgram].map
    fun e => .operation (.event e)

/-- A request for a struct that holds itself. -/
def loopRequest : Action :=
  .operation (.event (.locate ⟨0⟩ ⟨4⟩ ⟨0⟩ none))

theorem acts_askActions : Acts askActions askedSession := by
  have hsmall : Acts (askActions.drop 1) smallSession :=
    ((Acts.init.step (.operation (.event (.edit smallProgram))) ⟨nofun, nofun, nofun⟩).step
      (.operation (.event (.addLayout {}))) ⟨nofun, nofun, nofun⟩).step
      (.operation (.event (.addAnalysis none none))) ⟨nofun, nofun, nofun⟩
  refine hsmall.step (.operation (.event (.locate ⟨0⟩ ⟨2⟩ ⟨0⟩ none))) ⟨?_, nofun, nofun⟩
  intro a home he
  cases he
  decide

theorem acts_loopRequest : Acts ([loopRequest] ++ askActions) (loopRequest.exec askedSession) := by
  refine acts_askActions.step loopRequest ⟨?_, nofun, nofun⟩
  intro a home he
  cases he
  exact analyses_askedSession

theorem expandedSize_askedSession {n : Nat}
    (hn : (askedSession.analysis ⟨0⟩).registry.handle? ⟨2⟩ "m" = some n) :
    ((askedSession.analysis ⟨0⟩).registry.descriptor n).expandedSize = 5 := by
  have hs := reachable_askedSession.sound
  have hfields := (hs.registries ⟨0⟩).fields_eq hs.targets
    (by rw [program_askedSession]; decide) hn
  rw [program_askedSession] at hfields
  rw [Descriptor.expandedSize, ← Array.length_toList, hfields]
  decide +kernel

theorem analyses_loopRequest : (loopRequest.exec askedSession).analyses.size = 1 := by
  have hlocate : ∀ (s : Session) (st : StructId),
      ((Event.locate ⟨0⟩ st ⟨0⟩ none).exec s).analyses.size = s.analyses.size := by
    intro s st
    rw [Event.exec, Work.handleOf, Session.after_flatten]
    exact Array.size_modify
  exact (hlocate askedSession ⟨4⟩).trans (hlocate smallSession ⟨2⟩)

/-- Five entries are the largest table, also after a request for a struct that holds itself. -/
theorem largest_exact_small :
    let s := loopRequest.exec askedSession
    let r := (s.analysis ⟨0⟩).registry
    ∃ k, r.Largest r.size k ∧ 5 ≤ (r.descriptor k).expandedSize ∧
      s.tracker (s.analysis ⟨0⟩).tracker =
        ⟨some (r.descriptor k).type, (r.descriptor k).expandedSize⟩ := by
  intro s r
  obtain ⟨n, hn⟩ := handle?_askedSession
  have hlasts := acts_askActions.lasts acts_loopRequest ⟨0⟩
  have hlt := (reachable_askedSession.sound.registries ⟨0⟩).lt hn
  have hlt' : n < r.size := Nat.lt_of_lt_of_le hlt hlasts.size_le
  obtain ⟨-, hlargest, -⟩ := largest_exact acts_askActions acts_loopRequest (a := ⟨0⟩)
    analyses_askedSession
    (fun b hb _ => by
      rw [analyses_loopRequest] at hb
      exact congrArg AnalysisId.mk (Nat.lt_one_iff.1 hb))
    (fun st size hmem => by simp [loopRequest, askActions] at hmem)
  obtain ⟨k, hk, ht⟩ := hlargest (Nat.zero_lt_of_lt hlt')
  refine ⟨k, hk, ?_, ht⟩
  calc 5 = ((askedSession.analysis ⟨0⟩).registry.descriptor n).expandedSize :=
        (expandedSize_askedSession hn).symm
    _ = (r.descriptor n).expandedSize := by
        rw [Descriptor.expandedSize, Descriptor.expandedSize, (hlasts.becomes n hlt).shape]
    _ ≤ (r.descriptor k).expandedSize := hk.le n hlt'

end KernelObjects
