import KernelObjects.Proofs.Actions

/-!
# The journal of a descriptor

Allocation sites and leak sites are entered into a descriptor by other analyses, and nothing else
touches them: what flattening puts into a registry has none, and to be found in one more container
changes none. So what a descriptor has of them is told by the actions that were addressed to it, in
their order, through all that happened in between.

Results:
* `Flatten.preserves_journals_handleOf`, `Flatten.preserves_journals_run`: requests keep all
  journals.
* `Session.journal_exec`: an action makes its entry in the one descriptor that it names.
* `Acts.journal`: the journal is made of the actions.
-/
namespace KernelObjects

/-- The allocation sites, the length fields and the leak sites of a descriptor. -/
structure Journal where
  allocSites : OrderedSet ValueId := ∅
  lenByLeakable : OrderedSet Int := ∅
  ledger : Ledger := {}

namespace Journal

variable (j : Journal)

def addAllocSite (call : ValueId) : Journal :=
  { j with allocSites := j.allocSites.insert call }

/-- Enters a leak site, unless there is one already. -/
def addLeak (offset : Int) (v : ValueId) (site : SiteId) : Journal :=
  match j.ledger.add offset v site with
  | some ledger => { j with ledger }
  | none => j

/-- Enters a leak site with its length field, unless there is one already. -/
def addLeakSource (offset : Int) (v : ValueId) (site : SiteId) : Journal :=
  match j.ledger.add offset v site with
  | some ledger => { j with ledger, lenByLeakable := j.lenByLeakable.insert offset }
  | none => j

end Journal

def Descriptor.journal (d : Descriptor) : Journal :=
  ⟨d.allocSites, d.lenByLeakable, d.ledger⟩

/-- What an operation enters into a descriptor. -/
def Operation.entered (j : Journal) : Operation → Journal
  | .note _ (.allocSite call) => j.addAllocSite call
  | .leakSource _ offset v site => j.addLeakSource offset v site
  | .leak _ offset v site => j.addLeak offset v site
  | _ => j

/-- What becomes of the journal of a descriptor with an action. -/
def Action.enter (d : DescriptorRef) (x : Action) (j : Journal) : Journal :=
  match x with
  | .operation op => if op.descriptor? = some d then op.entered j else j
  | _ => j

/-! ## Requests -/

namespace Flatten

variable {cx : FlattenContext} {st : StructId}

theorem Completed.journal {d : Descriptor} (h : Completed cx st d) : d.journal = {} := by
  obtain ⟨⟨_, _, _, _, _, rfl⟩⟩ | ⟨⟨_, _, _, _, _, rfl⟩, size⟩ := h <;> rfl

/-- The journals of a registry, with empty ones beyond its end. -/
def Journals (j : Nat → Journal) (s : FlattenState) : Prop :=
  ∀ n, (s.registry.descriptor n).journal = j n

variable {j : Nat → Journal}

theorem preserves_journals_build (st : StructId) : Preserves (Journals j) (build cx st) := by
  refine preserves_build ⟨id, fun {s handle container offset} hs n => ?_⟩
    (prepare_completed cx st) fun s d hs hd n => ?_
  · obtain ⟨cs, hcs⟩ := s.registry.descriptor_addContainer handle container offset n
    dsimp only
    rw [hcs]
    exact hs n
  · simp only [published, Registry.descriptor_registerName, Registry.descriptor_push]
    split
    · next hn =>
      have hout : s.registry.descriptor n = default := by
        rw [hn]
        simp [Registry.descriptor, Registry.size]
      rw [hd.journal, ← hs n, hout]
      rfl
    · exact hs n

theorem preserves_journals_handleOf (st : StructId) : Preserves (Journals j) (handleOf cx st) :=
  preserves_handleOf preserves_journals_build st

theorem preserves_journals_run : Preserves (Journals j) (run cx) := by
  refine preserves_run preserves_journals_build (fun s st hs n => ?_) fun _ _ hs => hs
  rw [Registry.descriptor_registerName]
  exact hs n

end Flatten

/-! ## Actions -/

namespace Session

variable {s : Session} {d : DescriptorRef}

/-- A change that names a descriptor that there is changes that one alone. -/
theorem descriptor_modifyDescriptor {e : DescriptorRef} (he : e.Exists s)
    (f : Descriptor → Descriptor) (d : DescriptorRef) :
    (s.modifyDescriptor e f).descriptor d =
      if d = e then f (s.descriptor e) else s.descriptor d := by
  cases e with
  | listed a n =>
    have hn : n < (s.analysis a).registry.size := he
    have ha : a.idx < s.analyses.size := by
      by_contra hle
      have hempty : s.analysis a = default := by
        simp [analysis, Array.getD_eq_getD_getElem?, Nat.le_of_not_lt hle]
      rw [hempty] at hn
      exact absurd hn (Nat.not_lt_zero n)
    cases d with
    | listed b k =>
      simp only [modifyDescriptor, descriptor, analysis_modify, DescriptorRef.listed.injEq]
      by_cases hb : b = a
      · subst hb
        rw [if_pos ⟨rfl, ha⟩, Registry.descriptor_modify _ n k f hn]
        simp
      · rw [if_neg fun h => hb h.1, if_neg fun h => hb h.1]
    | loose i => rfl
  | loose i =>
    have hi : i < s.descriptors.size := he
    cases d with
    | listed b k => rfl
    | loose k =>
      simp only [modifyDescriptor, descriptor, Array.getD_eq_getD_getElem?, Array.getElem?_modify,
        DescriptorRef.loose.injEq]
      by_cases hk : k = i
      · subst hk
        simp [hi]
      · rw [if_neg fun h => hk h.symm, if_neg hk]

/-- An operation that neither flattens nor names a descriptor leaves them all alone. -/
theorem descriptor_exec {op : Operation} (hop : op.module? = none) (hop' : op.descriptor? = none)
    (d : DescriptorRef) : (op.exec s).descriptor d = s.descriptor d := by
  cases op with
  | event e =>
    cases e with
    | describe | locate | run => cases hop
    | addAnalysis settings tracker =>
      cases d with
      | listed a n =>
        have hregistry : ((Operation.exec s (.event (.addAnalysis settings tracker))).analysis
            a).registry = (s.analysis a).registry := by
          cases settings <;> cases tracker <;> exact s.registry_push _ rfl a
        rw [descriptor, hregistry]
        rfl
      | loose i => cases settings <;> cases tracker <;> rfl
    | _ => cases d <;> rfl
  | containers => cases hop
  | ask id q =>
    rw [Operation.exec, after_askLayout]
    cases d <;> rfl
  | note | leakSource => cases hop'
  | leak l offset v site =>
    cases l with
    | ofDescriptor e => cases hop'
    | loose i =>
      simp only [Operation.exec, Work.addLeak, after, get_bind]
      cases (s.ledger (.loose i)).add offset v site <;> cases d <;> rfl
  | record m tag inst left right branch =>
    cases m with
    | ofSite | loose => cases d <;> rfl
    | allocation | other => cases hop'
  | addSite x => cases d <;> rfl

/-- An operation that names a descriptor makes its entry there. -/
theorem journal_entered {op : Operation} {e : DescriptorRef} (hop : op.descriptor? = some e)
    (he : e.Exists s) (d : DescriptorRef) :
    ((op.exec s).descriptor d).journal =
      if d = e then op.entered (s.descriptor e).journal else (s.descriptor d).journal := by
  have hmodify : ∀ (f : Descriptor → Descriptor) (j : Journal), (f (s.descriptor e)).journal = j →
      ((s.modifyDescriptor e f).descriptor d).journal =
        if d = e then j else (s.descriptor d).journal := by
    intro f j hj
    rw [descriptor_modifyDescriptor he]
    split
    · exact hj
    · rfl
  have hrefused : (s.descriptor d).journal =
      if d = e then (s.descriptor e).journal else (s.descriptor d).journal := by
    split
    · next hd => rw [hd]
    · rfl
  cases op with
  | note e' n =>
    cases hop
    exact hmodify _ _ (by cases n <;> rfl)
  | leakSource e' offset v site =>
    cases hop
    simp only [Operation.exec, Work.addLeakSource, Descriptor.addLeakSource, after, get_bind,
      Operation.entered, Journal.addLeakSource, Descriptor.journal]
    cases (s.descriptor e).ledger.add offset v site with
    | none => exact hrefused
    | some ledger => exact hmodify _ _ rfl
  | leak l offset v site =>
    cases l with
    | ofDescriptor e' =>
      cases hop
      simp only [Operation.exec, Work.addLeak, ledger, after, get_bind, Operation.entered,
        Journal.addLeak, Descriptor.journal]
      cases (s.descriptor e).ledger.add offset v site with
      | none => exact hrefused
      | some ledger => exact hmodify _ _ rfl
    | loose i => cases hop
  | record m tag inst left right branch =>
    cases m with
    | allocation e' | other e' =>
      cases hop
      exact hmodify _ _ rfl
    | ofSite | loose => cases hop
  | _ => cases hop

/-- The step: an action makes its entry in the descriptor that it names, and nowhere else. -/
theorem journal_exec {x : Action} (hx : x.Proper s) (d : DescriptorRef) :
    ((x.exec s).descriptor d).journal = x.enter d (s.descriptor d).journal := by
  cases x with
  | operation op =>
    simp only [Action.exec, Action.enter]
    cases hop' : op.descriptor? with
    | some e =>
      rw [journal_entered hop' (hx.2.2 e hop')]
      by_cases hd : d = e
      · subst hd
        simp
      · rw [if_neg hd, if_neg fun h => hd (Option.some.inj h).symm]
    | none =>
      rw [if_neg (Option.some_ne_none d).symm]
      cases hop : op.module? with
      | none => rw [descriptor_exec hop hop']
      | some p =>
        let j := fun n => ((s.analysis p.1).registry.descriptor n).journal
        obtain ⟨f, he, hf⟩ := exec_request (s := s) (p := Flatten.Journals j)
          (fun _ => Flatten.preserves_journals_handleOf)
          (fun _ => Flatten.preserves_journals_run) hop
        rw [he]
        cases d with
        | listed b n =>
          rw [descriptor, analysis_takeOver]
          split
          · next hb => rw [hb.1]; exact hf (fun _ => rfl) n
          · rfl
        | loose i => rfl
  | offer id st size => cases d <;> rfl
  | addDescriptor st home layout settings =>
    simp only [Action.exec, Action.enter]
    rcases s.after_addDescriptor st home layout settings with he | ⟨name, he⟩
    · rw [he]
    · rw [he]
      cases d with
      | listed b n => rfl
      | loose i =>
        simp only [descriptor, Array.getD_eq_getD_getElem?, Array.getElem?_push]
        split
        · next hi => simp [hi]; rfl
        · rfl

end Session

/-- A journal has the entries that actions made in it, in their order. -/
theorem Acts.journal {xs : List Action} {s : Session} (h : Acts xs s) (d : DescriptorRef) :
    (s.descriptor d).journal = xs.foldr (Action.enter d) {} := by
  induction h with
  | init =>
    cases d with
    | listed a n => rw [Session.descriptor, Session.registry_empty]; rfl
    | loose i => rfl
  | step _ x hx ih => rw [Session.journal_exec hx, ih, List.foldr_cons]

end KernelObjects
