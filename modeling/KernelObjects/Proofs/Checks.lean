import KernelObjects.Provenance.Check
import Mathlib.Data.List.Induction

/-!
# Recording checks

What a check map says about a comparison is the sum of what was recorded about it: all the sources,
and an outcome that is `both` as soon as two records differ. The order of the records shows in the
order of the sources only. A single record changes one entry, and only adds to it.

Results:
* `addSources_eq`: the sources that are new go to the end, each of them once.
* `CheckMap.guard?_observe`: what a record does to the view `guard?`.
* `Guard.Sums.widen`, `CheckMap.guard?_observeAll`: a guard sums up its records.
* `checks_merge`: records merge, in any order.
-/
namespace KernelObjects

/-- What one call records about a comparison. -/
structure Observation where
  tag : String
  inst : ValueId
  left : List ValueId
  right : List ValueId
  branch : Branch

/-- The record is about this comparison under this tag. -/
def Observation.At (c : Observation) (tag : String) (inst : ValueId) : Prop :=
  c.tag = tag ∧ c.inst = inst

instance (c : Observation) (tag : String) (inst : ValueId) : Decidable (c.At tag inst) :=
  inferInstanceAs (Decidable (_ ∧ _))

/-- What a single record says. -/
def Observation.guard (c : Observation) : Guard :=
  ⟨c.left, c.right, c.branch⟩

namespace CheckMap

/-- What is known about a comparison under a tag. -/
def guard? (m : CheckMap) (tag : String) (inst : ValueId) : Option Guard :=
  (m.get? tag).bind (·.get? inst)

def observe (m : CheckMap) (c : Observation) : CheckMap :=
  m.record c.tag c.inst c.left c.right c.branch

/-- The map after some records, the first of them first. -/
def observeAll (m : CheckMap) (cs : List Observation) : CheckMap :=
  cs.foldl observe m

end CheckMap

/-! ## Sources -/

theorem addSources_cons (known new : List ValueId) (v : ValueId) :
    addSources known (v :: new) =
      addSources (if v ∈ known then known else known ++ [v]) new :=
  rfl

theorem addSources_eq (known new : List ValueId) :
    ∃ extra, addSources known new = known ++ extra ∧ extra.Nodup ∧
      ∀ v, v ∈ extra ↔ v ∈ new ∧ v ∉ known := by
  induction new generalizing known with
  | nil => exact ⟨[], (List.append_nil known).symm, List.nodup_nil, by simp⟩
  | cons u new ih =>
    rw [addSources_cons]
    by_cases hu : u ∈ known
    · rw [if_pos hu]
      obtain ⟨extra, he, hnodup, hmem⟩ := ih known
      refine ⟨extra, he, hnodup, fun v => ?_⟩
      rw [hmem, List.mem_cons]
      grind
    · rw [if_neg hu]
      obtain ⟨extra, he, hnodup, hmem⟩ := ih (known ++ [u])
      refine ⟨u :: extra, by rw [he]; simp, List.nodup_cons.2 ⟨fun h => ?_, hnodup⟩, fun v => ?_⟩
      · simpa using ((hmem u).1 h).2
      · rw [List.mem_cons, hmem, List.mem_append, List.mem_singleton, List.mem_cons]
        grind

theorem mem_addSources {known new : List ValueId} {v : ValueId} :
    v ∈ addSources known new ↔ v ∈ known ∨ v ∈ new := by
  obtain ⟨extra, he, -, hmem⟩ := addSources_eq known new
  rw [he, List.mem_append, hmem]
  tauto

theorem addSources_of_subset {known new : List ValueId} (h : ∀ v ∈ new, v ∈ known) :
    addSources known new = known := by
  obtain ⟨extra, he, -, hmem⟩ := addSources_eq known new
  have hextra : extra = [] := List.eq_nil_iff_forall_not_mem.2 fun v hv =>
    ((hmem v).1 hv).2 (h v ((hmem v).1 hv).1)
  rw [he, hextra, List.append_nil]

/-! ## One record -/

theorem Branch.both_merge (b : Branch) : Branch.both.merge b = .both := by
  cases b <;> rfl

/-- A guard after a record of its comparison. -/
def Guard.observe (g : Guard) (c : Observation) : Guard :=
  g.widen c.left c.right c.branch

theorem Guard.observe_eq_self {g : Guard} {c : Observation} (hleft : ∀ v ∈ c.left, v ∈ g.left)
    (hright : ∀ v ∈ c.right, v ∈ g.right) (hbranch : g.branch.merge c.branch = g.branch) :
    g.observe c = g := by
  unfold observe widen
  rw [addSources_of_subset hleft, addSources_of_subset hright, hbranch]

namespace CheckMap

variable (m : CheckMap) (c : Observation)

theorem guard?_observe (tag : String) (inst : ValueId) :
    (m.observe c).guard? tag inst =
      if c.At tag inst then
        some (((m.guard? tag inst).map (·.observe c)).getD c.guard)
      else m.guard? tag inst := by
  unfold observe record guard?
  rw [Table.get?_insert]
  by_cases ht : tag = c.tag
  · subst ht
    rw [if_pos rfl, Option.bind_some, Table.get?_insert]
    by_cases hi : inst = c.inst
    · subst hi
      rw [if_pos rfl, if_pos ⟨rfl, rfl⟩]
      cases hm : m.get? c.tag with
      | none => rfl
      | some checks =>
        simp only [Option.getD_some, Option.bind_some]
        cases checks.get? c.inst <;> rfl
    · rw [if_neg hi, if_neg fun h => hi h.2.symm]
      cases m.get? c.tag <;> rfl
  · rw [if_neg ht, if_neg fun h => ht h.1.symm]

/-- A record that says nothing new changes nothing. -/
theorem observe_eq_self {m : CheckMap} {c : Observation} {g : Guard}
    (h : m.guard? c.tag c.inst = some g) (hg : g.observe c = g) : m.observe c = m := by
  obtain ⟨checks, hchecks, hget⟩ := Option.bind_eq_some_iff.1 h
  unfold observe record
  simp only [hchecks, Option.getD_some, hget]
  rw [show g.widen c.left c.right c.branch = g from hg, Table.insert_of_get? hget,
    Table.insert_of_get? hchecks]

/-- What one record does to a map. -/
structure Widens : Prop where
  others : ∀ tag inst, ¬ c.At tag inst → (m.observe c).guard? tag inst = m.guard? tag inst
  first : m.guard? c.tag c.inst = none → (m.observe c).guard? c.tag c.inst = some c.guard
  known : ∀ g, m.guard? c.tag c.inst = some g → ∃ left right branch,
    (m.observe c).guard? c.tag c.inst = some ⟨g.left ++ left, g.right ++ right, branch⟩ ∧
    left.Nodup ∧ right.Nodup ∧ (∀ v ∈ left, v ∉ g.left) ∧ (∀ v ∈ right, v ∉ g.right) ∧
    (g.branch = .both → branch = .both)
  again : (m.observe c).observe c = m.observe c

theorem widens : m.Widens c := by
  have hat : c.At c.tag c.inst := ⟨rfl, rfl⟩
  have hget := m.guard?_observe c c.tag c.inst
  rw [if_pos hat] at hget
  refine ⟨fun tag inst h => ?_, fun h => ?_, fun g h => ?_, observe_eq_self hget ?_⟩
  · rw [guard?_observe, if_neg h]
  · rw [hget, h]
    rfl
  · rw [h] at hget
    obtain ⟨left, hl, hnodup, hleft⟩ := addSources_eq g.left c.left
    obtain ⟨right, hr, hnodup', hright⟩ := addSources_eq g.right c.right
    refine ⟨left, right, g.branch.merge c.branch, ?_, hnodup, hnodup', fun v hv => ?_,
      fun v hv => ?_, fun hb => ?_⟩
    · rw [hget, ← hl, ← hr]
      rfl
    · exact ((hleft v).1 hv).2
    · exact ((hright v).1 hv).2
    · rw [hb, Branch.both_merge]
  · cases m.guard? c.tag c.inst with
    | none => exact Guard.observe_eq_self (fun _ hv => hv) (fun _ hv => hv) (Branch.merge_self _)
    | some g =>
      refine Guard.observe_eq_self (fun _ hv => mem_addSources.2 (.inr hv))
        (fun _ hv => mem_addSources.2 (.inr hv)) ?_
      show (g.branch.merge c.branch).merge c.branch = g.branch.merge c.branch
      rw [Branch.merge_assoc, Branch.merge_self]

end CheckMap

/-! ## Many records -/

/-- The guard says what these records say together. -/
structure Guard.Sums (g : Guard) (cs : List Observation) : Prop where
  left : ∀ v, v ∈ g.left ↔ ∃ c ∈ cs, v ∈ c.left
  right : ∀ v, v ∈ g.right ↔ ∃ c ∈ cs, v ∈ c.right
  common : ∀ b, (∀ c ∈ cs, c.branch = b) → g.branch = b
  mixed : (¬ ∃ b, ∀ c ∈ cs, c.branch = b) → g.branch = .both

/-- The guards differ in the order of their sources at most. -/
structure Guard.Alike (g g' : Guard) : Prop where
  left : ∀ v, v ∈ g.left ↔ v ∈ g'.left
  right : ∀ v, v ∈ g.right ↔ v ∈ g'.right
  branch : g.branch = g'.branch

namespace Guard

variable {g g' : Guard} {cs ds : List Observation}

theorem Sums.single (c : Observation) : c.guard.Sums [c] where
  left v := by simp [Observation.guard]
  right v := by simp [Observation.guard]
  common b h := h c (List.mem_singleton_self c)
  mixed h := absurd ⟨c.branch, by simp⟩ h

theorem Sums.widen (h : g.Sums cs) (c : Observation) : (g.observe c).Sums (cs ++ [c]) where
  left v := by
    rw [observe, Guard.widen, mem_addSources, h.left]
    grind
  right v := by
    rw [observe, Guard.widen, mem_addSources, h.right]
    grind
  common b hb := by
    have hc : c.branch = b := hb c (by simp)
    show g.branch.merge c.branch = b
    rw [h.common b fun c' hc' => hb c' (List.mem_append_left _ hc'), hc, Branch.merge_self]
  mixed hmixed := by
    show g.branch.merge c.branch = .both
    by_cases hcommon : ∃ b, ∀ c' ∈ cs, c'.branch = b
    · -- the records agreed until this one
      obtain ⟨b, hb⟩ := hcommon
      have hne : b ≠ c.branch := fun he => hmixed ⟨b, fun c' hc' => by
        rcases List.mem_append.1 hc' with hc' | hc'
        · exact hb c' hc'
        · rw [List.mem_singleton.1 hc', he]⟩
      rw [h.common b hb, Branch.merge, if_neg hne]
    · rw [h.mixed hcommon, Branch.both_merge]

theorem Sums.congr (h : g.Sums cs) (hmem : ∀ c, c ∈ cs ↔ c ∈ ds) : g.Sums ds where
  left v := by simp only [h.left, hmem]
  right v := by simp only [h.right, hmem]
  common b hb := h.common b fun c hc => hb c ((hmem c).1 hc)
  mixed hmixed := h.mixed fun ⟨b, hb⟩ => hmixed ⟨b, fun c hc => hb c ((hmem c).2 hc)⟩

theorem Sums.alike (h : g.Sums cs) (h' : g'.Sums cs) : g.Alike g' where
  left v := (h.left v).trans (h'.left v).symm
  right v := (h.right v).trans (h'.right v).symm
  branch := by
    by_cases hcommon : ∃ b, ∀ c ∈ cs, c.branch = b
    · obtain ⟨b, hb⟩ := hcommon
      rw [h.common b hb, h'.common b hb]
    · rw [h.mixed hcommon, h'.mixed hcommon]

end Guard

namespace CheckMap

theorem observeAll_append_singleton (m : CheckMap) (cs : List Observation) (c : Observation) :
    m.observeAll (cs ++ [c]) = (m.observeAll cs).observe c := by
  simp [observeAll]

/-- A comparison has a guard once it is recorded, and the guard sums up its records. -/
theorem guard?_observeAll (cs : List Observation) (tag : String) (inst : ValueId) :
    let mine := cs.filter fun c => c.At tag inst
    (mine = [] → (observeAll ∅ cs).guard? tag inst = none) ∧
      (mine ≠ [] → ∃ g, (observeAll ∅ cs).guard? tag inst = some g ∧ g.Sums mine) := by
  induction cs using List.reverseRecOn with
  | nil => exact ⟨fun _ => rfl, fun h => absurd rfl h⟩
  | append_singleton cs c ih =>
    intro mine
    rw [observeAll_append_singleton, guard?_observe]
    by_cases hc : c.At tag inst
    · have hmine : mine = cs.filter (fun c => c.At tag inst) ++ [c] := by simp [mine, hc]
      rw [hmine, if_pos hc]
      refine ⟨fun h => absurd h (by simp), fun _ => ⟨_, rfl, ?_⟩⟩
      by_cases hold : cs.filter (fun c => c.At tag inst) = []
      · rw [ih.1 hold, hold]
        exact .single c
      · obtain ⟨g, hg, hsums⟩ := ih.2 hold
        rw [hg]
        exact hsums.widen c
    · have hmine : mine = cs.filter (fun c => c.At tag inst) := by simp [mine, hc]
      rw [hmine, if_neg hc]
      exact ih

end CheckMap

/-- After any records, a map has guards for the comparisons that were recorded: with their common
outcome, or `both` without one, and with all their sources. The order of the records makes no
difference to that. And each record, on any map, leaves the other entries alone, adds sources at the
end that were not there, keeps the outcome `both`, and does nothing when it is repeated. -/
theorem checks_merge (cs : List Observation) :
    (∀ tag inst,
      let mine := cs.filter fun c => c.At tag inst
      (mine = [] → (CheckMap.observeAll ∅ cs).guard? tag inst = none) ∧
        (mine ≠ [] → ∃ g, (CheckMap.observeAll ∅ cs).guard? tag inst = some g ∧ g.Sums mine)) ∧
    (∀ ds, cs.Perm ds → ∀ tag inst,
      Option.Rel Guard.Alike ((CheckMap.observeAll ∅ cs).guard? tag inst)
        ((CheckMap.observeAll ∅ ds).guard? tag inst)) ∧
    ∀ (m : CheckMap) (c : Observation), m.Widens c := by
  refine ⟨CheckMap.guard?_observeAll cs, fun ds hperm tag inst => ?_, CheckMap.widens⟩
  have hmine := hperm.filter fun c => decide (c.At tag inst)
  obtain ⟨hnone, hsome⟩ := CheckMap.guard?_observeAll cs tag inst
  obtain ⟨hnone', hsome'⟩ := CheckMap.guard?_observeAll ds tag inst
  by_cases hempty : cs.filter (fun c => c.At tag inst) = []
  · rw [hnone hempty, hnone' (hempty ▸ hmine).nil_eq.symm]
    exact .none
  · obtain ⟨g, hg, hsums⟩ := hsome hempty
    obtain ⟨g', hg', hsums'⟩ := hsome' fun h => hempty (h ▸ hmine).eq_nil
    rw [hg, hg']
    exact .some (hsums.alike (hsums'.congr fun c => hmine.symm.mem_iff))

/-- Both outcomes were seen, and the first source comes first. -/
example :
    (CheckMap.observeAll ∅ [⟨"len", ⟨0⟩, [⟨1⟩], [], .taken⟩, ⟨"cap", ⟨0⟩, [⟨3⟩], [], .taken⟩,
        ⟨"len", ⟨0⟩, [⟨2⟩, ⟨1⟩], [], .notTaken⟩]).guard? "len" ⟨0⟩ =
      some ⟨[⟨1⟩, ⟨2⟩], [], .both⟩ := by
  decide

end KernelObjects
