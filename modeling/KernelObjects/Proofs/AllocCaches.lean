import KernelObjects.Proofs.CacheGrowth
import KernelObjects.Proofs.Journals
import Mathlib.Data.List.Induction

/-!
# The cache of a descriptor

A descriptor keeps the calls that allocate its struct, each at its first position. Nothing is lost
by leaving repetitions out: a call that comes again says what it said before. So the cache of the
struct is that of the calls as they were noted, and it is told in three steps: by the first call to
a cache allocator that leads to a name, by the size if a general allocator was called, and not at
all otherwise.

Results:
* `OrderedSet.findSome?_ofList`, `OrderedSet.any_ofList`: searches that repetitions do not change.
* `CacheName.verdict_none_iff`: what it takes for a call to have no say.
* `Acts.allocSites`: the calls that a descriptor keeps.
* `allocCache_exact`: the cache of a descriptor after any actions.
-/
namespace KernelObjects

/-! ## Repetitions -/

namespace OrderedSet

variable {α β : Type} [DecidableEq α]

theorem findSome?_ofList (f : α → Option β) (as : List α) :
    (ofList as).items.findSome? f = as.findSome? f := by
  induction as using List.reverseRecOn with
  | nil => rfl
  | append_singleton as a ih =>
    rw [ofList_append_singleton, items_insert, List.findSome?_append]
    split
    · next ha =>
      rw [ih]
      cases hfind : as.findSome? f with
      | some b => rfl
      | none =>
        have hnone : f a = none := List.findSome?_eq_none_iff.1 hfind a (mem_ofList.1 ha)
        simp [hnone]
    · rw [List.findSome?_append, ih]

theorem any_ofList (p : α → Bool) (as : List α) : (ofList as).items.any p = as.any p := by
  have hmem : ∀ a, a ∈ (ofList as).items ↔ a ∈ as := fun a => mem_ofList
  rw [Bool.eq_iff_iff, List.any_eq_true, List.any_eq_true]
  simp only [hmem]

end OrderedSet

/-! ## Calls -/

namespace CacheName

variable {P : Program} {s : Settings} {call : ValueId}

theorem answer_classify_ofList (calls : List ValueId) (size : Int) (log log' : Log) :
    answer (classify P s (OrderedSet.ofList calls).items size) log =
      answer (classify P s calls size) log' := by
  rw [answer_classify, answer_classify, OrderedSet.findSome?_ofList, OrderedSet.any_ofList]

/-- Calls that decide nothing and name no general allocator may be left out. -/
theorem answer_classify_filter {p : ValueId → Bool} {calls : List ValueId}
    (h : ∀ x ∈ calls, p x = false → siteVerdict? P s x = none ∧ isGenericSite P s x = false)
    (size : Int) (log : Log) :
    answer (classify P s (calls.filter p) size) log = answer (classify P s calls size) log := by
  have hsame : (calls.filter p).findSome? (siteVerdict? P s) = calls.findSome? (siteVerdict? P s) ∧
      (calls.filter p).any (isGenericSite P s) = calls.any (isGenericSite P s) := by
    induction calls with
    | nil => exact ⟨rfl, rfl⟩
    | cons x calls ih =>
      obtain ⟨hfind, hany⟩ := ih fun y hy => h y (List.mem_cons_of_mem _ hy)
      cases hx : p x with
      | true => simp [hx, List.findSome?_cons, hfind, hany]
      | false =>
        obtain ⟨hverdict, hgeneric⟩ := h x (List.mem_cons_self ..) hx
        simp [hx, hverdict, hgeneric, hfind, hany]
  rw [answer_classify, answer_classify, hsame.1, hsame.2]

/-- A call through a pointer has no part in the answer. -/
theorem answer_classify_direct {calls : List ValueId}
    (hcalls : ∀ x ∈ calls, ∃ y, P.call? x = some y) (size : Int) (log : Log) :
    answer (classify P s (calls.filter fun x => (P.calledFunction? x).isSome) size) log =
      answer (classify P s calls size) log := by
  refine answer_classify_filter (fun x hx hnone => ?_) size log
  obtain ⟨y, hy⟩ := hcalls x hx
  have hindirect : P.calledFunction? x = none := by simpa using hnone
  rw [siteVerdict?, isGenericSite, calleeName_of_call hy, hindirect]
  exact ⟨rfl, rfl⟩

theorem verdict_none_iff (hl : P.Linked) (hground : P.Grounded) {y : ValueId × List ValueId}
    (hcall : P.call? call = some y) :
    siteVerdict? P s call = none ↔ ∀ n, ¬ Settles P s call n :=
  (siteVerdict?_eq_none_iff hl hcall).trans
    (and_iff_left (not_strays_of_grounded hground call))

variable (P s) in
/-- None of the calls leads to a name. -/
def Unsettled (calls : List ValueId) : Prop :=
  ∀ x ∈ calls, ∀ n, ¬ Settles P s x n

section

variable (hl : P.Linked) (hground : P.Grounded) {calls : List ValueId}
  (hcalls : ∀ x ∈ calls, ∃ y, P.call? x = some y)
include hl hground hcalls

theorem Unsettled.verdicts (h : Unsettled P s calls) :
    ∀ x ∈ calls, siteVerdict? P s x = none := by
  intro x hx
  obtain ⟨y, hy⟩ := hcalls x hx
  exact (verdict_none_iff hl hground hy).2 (h x hx)

theorem Unsettled.answer_classify (h : Unsettled P s calls) (size : Int) (log : Log) :
    answer (classify P s calls size) log = fallback s (calls.any (isGenericSite P s)) size := by
  rw [CacheName.answer_classify, List.findSome?_eq_none_iff.2 (h.verdicts hl hground hcalls)]
  rfl

end

end CacheName

/-! ## Actions -/

/-- The call that an action notes for a descriptor as one that allocates it. -/
def Action.allocCall? (d : DescriptorRef) : Action → Option ValueId
  | .operation (.note e (.allocSite call)) => if e = d then some call else none
  | _ => none

/-- The calls that actions, the latest of them first, note for a descriptor. -/
def allocCalls (d : DescriptorRef) (xs : List Action) : List ValueId :=
  collected (Action.allocCall? d) xs

namespace Journal

variable (j : Journal)

theorem allocSites_addLeak (offset : Int) (v : ValueId) (site : SiteId) :
    (j.addLeak offset v site).allocSites = j.allocSites := by
  unfold addLeak
  cases j.ledger.add offset v site <;> rfl

theorem allocSites_addLeakSource (offset : Int) (v : ValueId) (site : SiteId) :
    (j.addLeakSource offset v site).allocSites = j.allocSites := by
  unfold addLeakSource
  cases j.ledger.add offset v site <;> rfl

theorem allocSites_enter (d : DescriptorRef) (x : Action) :
    (x.enter d j).allocSites = j.allocSites.insertAll (x.allocCall? d).toList := by
  cases x with
  | operation op =>
    cases op with
    | note e n =>
      by_cases he : e = d
      · subst he
        cases n <;> simp [Action.enter, Action.allocCall?, Operation.descriptor?,
          Operation.entered, addAllocSite, OrderedSet.insertAll]
      · cases n <;> simp [Action.enter, Action.allocCall?, Operation.descriptor?, he,
          OrderedSet.insertAll]
    | leakSource e offset v site =>
      simp only [Action.enter, Operation.entered]
      split
      · exact j.allocSites_addLeakSource ..
      · rfl
    | leak l offset v site =>
      simp only [Action.enter, Operation.entered]
      split
      · exact j.allocSites_addLeak ..
      · rfl
    | _ =>
      simp only [Action.enter, Operation.entered, ite_self]
      rfl
  | offer | addDescriptor => rfl

end Journal

theorem Acts.allocSites {xs : List Action} {s : Session} (h : Acts xs s) (d : DescriptorRef) :
    (s.descriptor d).allocSites = OrderedSet.ofList (allocCalls d xs) := by
  refine (congrArg Journal.allocSites (h.journal d)).trans ?_
  clear h
  induction xs with
  | nil => rfl
  | cons x xs ih =>
    rw [List.foldr_cons, Journal.allocSites_enter, ih, allocCalls, allocCalls, collected_cons]
    simp only [OrderedSet.ofList, OrderedSet.insertAll, List.foldl_append]

theorem answer_onLog {α : Type} (act : EStateM Fault Log α) (s : Session) :
    answer (Work.onLog act) s = answer act s.log := by
  simp only [answer, Work.onLog, onPart]
  cases act s.log <;> rfl

theorem Work.answer_classify (settings : Option SettingsId) (calls : List ValueId) (size : Int)
    (s : Session) :
    answer (Work.classify settings calls size) s =
      answer (CacheName.classify s.program (s.settingsOf settings) calls size) s.log :=
  answer_onLog _ s

/-- The cache of a descriptor, after any actions, is that of all calls that were noted for it, with
all repetitions. It is the name that the first call to a cache allocator leads to, if one does, even
an empty one; else that of the size, if a general allocator is called; else the empty name. Calls
through pointers have no part in it, and without a name from a call nor has the order of the
calls. -/
theorem allocCache_exact {xs : List Action} {s : Session} (h : Acts xs s) (hP : s.program.Made)
    (hground : s.program.Grounded) (d : DescriptorRef)
    (hcalls : ∀ x ∈ allocCalls d xs, ∃ y, s.program.call? x = some y) :
    let P := s.program
    let x := s.descriptor d
    let cfg := s.settingsOf x.settings
    let calls := allocCalls d xs
    let cacheOf := fun calls => answer (Work.classify x.settings calls x.allocSize) s
    answer (Work.allocCache x) s = cacheOf calls ∧
      (∀ before call after n, calls = before ++ call :: after → CacheName.Settles P cfg call n →
        CacheName.Unsettled P cfg before → cacheOf calls = .ok n) ∧
      (CacheName.Unsettled P cfg calls →
        ((∃ call ∈ calls, CacheName.CallsOneOf P cfg.isGenericAllocator call) →
          cacheOf calls =
            (SizeClass.name x.allocSize cfg.minShift).map Text.Utf8.encode) ∧
        ((¬ ∃ call ∈ calls, CacheName.CallsOneOf P cfg.isGenericAllocator call) →
          cacheOf calls = .ok []) ∧
        ∀ calls', calls.Perm calls' → cacheOf calls' = cacheOf calls) ∧
      cacheOf (calls.filter fun call => (P.calledFunction? call).isSome) = cacheOf calls := by
  intro P x cfg calls cacheOf
  have hcacheOf : ∀ calls,
      cacheOf calls = answer (CacheName.classify P cfg calls x.allocSize) s.log := fun calls =>
    Work.answer_classify ..
  have hl := hP.linked
  refine ⟨?_, fun before call after n hsplit hsettles hbefore => ?_, fun hunsettled => ?_, ?_⟩
  · rw [hcacheOf, Work.allocCache, Work.answer_classify, h.allocSites d]
    exact CacheName.answer_classify_ofList ..
  · rw [hcacheOf, hsplit]
    refine CacheName.answer_of_verdict ?_ hsettles.verdict _ _
    refine hbefore.verdicts hl hground fun y hy => hcalls y ?_
    rw [show allocCalls d xs = _ from hsplit]
    exact List.mem_append_left _ hy
  · have hanswer := hunsettled.answer_classify hl hground hcalls x.allocSize s.log
    have hgeneric : calls.any (CacheName.isGenericSite P cfg) = true ↔ _ :=
      CacheName.any_isGenericSite_iff hcalls
    refine ⟨fun hsome => ?_, fun hnone => ?_, fun calls' hperm => ?_⟩
    · rw [hcacheOf, hanswer, hgeneric.2 hsome]
      rfl
    · rw [hcacheOf, hanswer, Bool.eq_false_iff.2 fun hany => hnone (hgeneric.1 hany)]
      rfl
    · have hany : calls'.any (CacheName.isGenericSite P cfg) =
          calls.any (CacheName.isGenericSite P cfg) := hperm.symm.any_eq
      have hunsettled' : CacheName.Unsettled P cfg calls' := fun y hy =>
        hunsettled y (hperm.mem_iff.2 hy)
      rw [hcacheOf, hcacheOf, hanswer, hunsettled'.answer_classify hl hground
        (fun y hy => hcalls y (hperm.mem_iff.2 hy)), hany]
  · rw [hcacheOf, hcacheOf]
    exact CacheName.answer_classify_direct hcalls _ _

/-- The program with a second cache, and a call to allocate from it, `⟨25⟩`. -/
def twinProgram : Program :=
  let cache : Ty := .struct ⟨0⟩
  let P := (CacheName.slabProgram.global "mm_cachep" (.pointerTo cache) none false none).2
  let P := (P.constString "mm" true).2
  let P := (P.global ".str.1" (.array (.int 8) 3) (some ⟨17⟩) true none).2
  let P := (P.constGep ⟨18⟩ [0, 0] true).2
  let P := (P.instruction (.call ⟨6⟩ [⟨21⟩]) .unknown "" none).2
  let P := (P.instruction (.store ⟨22⟩ ⟨16⟩) .unknown "" none).2
  let P := (P.instruction (.load ⟨16⟩) .unknown "" none).2
  (P.instruction (.call ⟨11⟩ [⟨24⟩]) .unknown "" none).2

theorem made_twinProgram : twinProgram.Made := by
  refine .instruction (.instruction (.instruction (.instruction (.constGep (.global (.leaf
    (.global CacheName.made_slabProgram ..) ?_ ?_) ..) _ _ ?_) _ _ _ ?_) _ _ _ ?_) _ _ _ ?_)
    _ _ _ ?_
  all_goals decide +kernel

/-- Four notes for a descriptor outside all registries, the latest first. -/
def noteActions : List Action :=
  [⟨15⟩, ⟨25⟩, ⟨14⟩, ⟨15⟩].map (fun call => .operation (.note (.loose 0) (.allocSite call))) ++
    [.addDescriptor ⟨0⟩ ⟨0⟩ none none, .operation (.event (.edit twinProgram))]

theorem acts_noteActions : ∃ s, Acts noteActions s ∧ s.program = twinProgram ∧
    (s.descriptor (.loose 0)).settings = none := by
  have hproper : ∀ (s : Session) call, 0 < s.descriptors.size →
      (Action.operation (.note (.loose 0) (.allocSite call))).Proper s :=
    fun _ _ hs => .of_descriptor rfl rfl rfl hs
  exact ⟨_, (((((Acts.init.step (.operation (.event (.edit twinProgram)))
    ⟨nofun, nofun, nofun⟩).step (.addDescriptor ⟨0⟩ ⟨0⟩ none none) trivial).step _
    (hproper _ _ (by decide))).step _ (hproper _ _ (by decide))).step _
    (hproper _ _ (by decide))).step _ (hproper _ _ (by decide)), rfl, rfl⟩

/-- The first call has a broken chain, and the second one gives the name; the third one would give
another name. -/
theorem allocCache_exact_slab :
    ∃ s, Acts noteActions s ∧ s.program.Made ∧ s.program.Grounded ∧
      allocCalls (.loose 0) noteActions = [⟨15⟩, ⟨14⟩, ⟨25⟩, ⟨15⟩] ∧
      (∀ x ∈ allocCalls (.loose 0) noteActions, ∃ y, s.program.call? x = some y) ∧
      CacheName.resolve s.program {} ⟨25⟩ = .ok (Text.Utf8.encode "mm") ∧
      answer (Work.allocCache (s.descriptor (.loose 0))) s = .ok (Text.Utf8.encode "task") := by
  obtain ⟨s, h, hprogram, hsettings⟩ := acts_noteActions
  have hcfg : s.settingsOf (s.descriptor (.loose 0)).settings = {} := by
    rw [hsettings]
    rfl
  have hlist : allocCalls (.loose 0) noteActions = [⟨15⟩, ⟨14⟩, ⟨25⟩, ⟨15⟩] := rfl
  have hground : twinProgram.Grounded := by decide +kernel
  have hcalls : ∀ x ∈ allocCalls (.loose 0) noteActions, ∃ y, twinProgram.call? x = some y := by
    have hsome : ∀ x ∈ [⟨15⟩, ⟨14⟩, ⟨25⟩, ⟨15⟩], (twinProgram.call? x).isSome = true := by
      decide +kernel
    exact fun x hx => Option.isSome_iff_exists.1 (hsome x (hlist ▸ hx))
  have hother : CacheName.resolve twinProgram {} ⟨25⟩ = .ok (Text.Utf8.encode "mm") := by
    decide +kernel
  rw [← hprogram] at hground hcalls hother
  have hmade : s.program.Made := hprogram ▸ made_twinProgram
  obtain ⟨hall, hfirst, -⟩ := allocCache_exact h hmade hground (.loose 0) hcalls
  refine ⟨s, h, hmade, hground, hlist, hcalls, hother,
    hall.trans (hfirst [⟨15⟩] ⟨14⟩ [⟨25⟩, ⟨15⟩] _ hlist ?_ ?_)⟩
  · rw [hcfg, hprogram]
    have hnamed : CacheName.resolve twinProgram {} ⟨14⟩ = .ok (Text.Utf8.encode "task") := by
      decide +kernel
    have hcalled : twinProgram.calledFunction? ⟨14⟩ = some ⟨11⟩ := by decide +kernel
    have hname : Settings.isCacheAllocator {} (twinProgram.value ⟨11⟩).name = true := by
      decide +kernel
    exact ⟨CacheName.callsOneOf_iff.2 ⟨_, hcalled, hname⟩, hnamed⟩
  · rw [hcfg, hprogram]
    have hbroken : CacheName.resolve twinProgram {} ⟨15⟩ =
        CacheName.stopAt .handleNotGlobal ⟨1⟩ := by decide +kernel
    intro x hx n hn
    rw [List.mem_singleton.1 hx] at hn
    rw [hn.2] at hbroken
    cases hbroken

end KernelObjects
