import Mathlib.Data.List.Forall2
import KernelObjects.Proofs.CacheNames
import KernelObjects.Proofs.Edits

/-!
# Use lists

The users of a value are all that a client can see of the way in which it is used, and the search
for the creation calls of a global looks at nothing else. Both are exact, whatever edits have made
the program: a value has each user once for each position that it fills there, in the order in which
they were built, and every store of a creation call into a global shows up, once.

Results:
* `Linked.count_users`, `Linked.pairwise_users`: what stands in a user list, and in which order.
* `forall₂_creationCalls`: the creation calls of a global beside the stores that they belong to.
* `users_complete`: both, of every program that edits have made.
-/
namespace KernelObjects

namespace Program

variable {P : Program}

theorem count_flatMap_replicate (n : Nat) (times : Nat → Nat) (u : ValueId) :
    ((List.range n).flatMap fun i => List.replicate (times i) (⟨i⟩ : ValueId)).count u =
      if u.idx < n then times u.idx else 0 := by
  induction n with
  | zero => simp
  | succ n ih =>
    obtain ⟨j⟩ := u
    rw [List.range_succ, List.flatMap_append, List.flatMap_singleton, List.count_append, ih,
      List.count_replicate]
    rcases Nat.lt_trichotomy j n with hlt | rfl | hgt
    · have hne : ¬ n = j := by omega
      simp [hlt, hne, Nat.lt_succ_of_lt hlt]
    · simp
    · have hne : ¬ n = j := by omega
      have hge : ¬ j < n := by omega
      have hge' : ¬ j < n + 1 := by omega
      simp [hne, hge, hge']

theorem Linked.count_users (h : P.Linked) (v u : ValueId) :
    (P.value v).users.count u = (P.value u).operands.count v := by
  rw [h.users v, count_flatMap_replicate]
  split
  · rfl
  · next hu =>
    rw [value_of_size_le (Nat.le_of_not_lt hu)]
    rfl

theorem Linked.pairwise_users (h : P.Linked) (v : ValueId) :
    (P.value v).users.Pairwise (·.idx ≤ ·.idx) := by
  rw [h.users v, List.pairwise_flatMap]
  constructor
  · intro i _
    exact List.pairwise_replicate.2 (.inr (Nat.le_refl i))
  · refine List.pairwise_lt_range.imp fun {i j} hlt u hu w hw => ?_
    rw [List.eq_of_mem_replicate hu, List.eq_of_mem_replicate hw]
    exact Nat.le_of_lt hlt

end Program

namespace CacheName

variable {P : Program} {s : Settings} {g : ValueId}

theorem forall₂_filterMap {α β : Type} (f : α → Option β) (l : List α) :
    List.Forall₂ (fun a b => f a = some b) (l.filter fun a => (f a).isSome) (l.filterMap f) := by
  induction l with
  | nil => exact .nil
  | cons a l ih =>
    cases hf : f a with
    | none => simpa [hf] using ih
    | some b => simpa [hf] using ih

/-- The stores into a global that belong to its creation calls. -/
theorem forall₂_creationCalls (hl : P.Linked) {d : GlobalDef} (hg : P.global? g = some d) :
    ∃ stores : List Nat, stores.Pairwise (· < ·) ∧ (∀ i, i ∈ stores ↔ ∃ c, Creation P s g i c) ∧
      List.Forall₂ (Creation P s g) stores (creationCalls P s g) := by
  let found := fun i : Nat => creationCall? P s g ⟨i⟩
  have hfound : ∀ {i c}, found i = some c ↔ Creation P s g i c := creationCall?_eq_some_iff
  refine ⟨(List.range P.values.size).filter fun i => (found i).isSome,
    List.pairwise_lt_range.filter _, fun i => ?_, ?_⟩
  · rw [List.mem_filter, Option.isSome_iff_exists]
    simp only [hfound]
    constructor
    · exact fun h => h.2
    · rintro ⟨c, hc⟩
      exact ⟨List.mem_range.2 hc.lt_size, c, hc⟩
  · rw [creationCalls_eq hl hg]
    exact (forall₂_filterMap found _).imp fun _ _ => hfound.1

/-- Of every program that edits have made, refused ones among them: a value has another as a user as
often as it is an operand there, its users are in the order in which they were built, and whatever
is built later comes behind them. The creation calls of a global are the calls whose results are
stored into it, one for each store and in the order in which the stores were built, be they in a
block or not. -/
theorem users_complete (hP : Program.Edited {} P) :
    (∀ v u, (P.value v).users.count u = (P.value u).operands.count v) ∧
    (∀ v, (P.value v).users.Pairwise (·.idx ≤ ·.idx)) ∧
    (∀ Q, P.Edited Q → ∀ v : ValueId, v.idx < P.values.size →
      ∃ later, (Q.value v).users = (P.value v).users ++ later ∧
        ∀ u ∈ later, P.values.size ≤ u.idx) ∧
    ∀ (s : Settings) (g : ValueId) (d : GlobalDef), P.global? g = some d →
      ∃ stores : List Nat, stores.Pairwise (· < ·) ∧
        (∀ i, i ∈ stores ↔ ∃ c, Creation P s g i c) ∧
        List.Forall₂ (Creation P s g) stores (creationCalls P s g) := by
  have hl := hP.made.linked
  exact ⟨hl.count_users, hl.pairwise_users, fun Q hQ => hQ.extends.users,
    fun s g d hg => forall₂_creationCalls hl hg⟩

/-- A global, `⟨0⟩`, into which one creation call, `⟨2⟩`, is stored twice, and between that the
global itself. A comparison is refused, and the last store is put into a block. -/
def storeEdits : List Edit :=
  [.global "task_cachep" (.pointerTo .unknown) none false none,
    .function "kmem_cache_create" { ret := .pointerTo .unknown, vararg := true } [] none,
    .instruction (.call ⟨1⟩ []) .unknown "" none,
    .instruction (.store ⟨2⟩ ⟨0⟩) .unknown "" none,
    .instruction (.store ⟨0⟩ ⟨0⟩) .unknown "" none,
    .compare "above" ⟨2⟩ ⟨0⟩ "" none,
    .instruction (.store ⟨2⟩ ⟨0⟩) .unknown "" none,
    .looseBlock "entry",
    .append ⟨6⟩ ⟨5⟩]

theorem edited_storeEdits : Program.Edited {} (Edit.execAll {} storeEdits) :=
  Program.Edited.same.execAll (by decide +kernel)

/-- The store of the global into itself is its user twice, and belongs to no creation call. -/
theorem users_complete_stores :
    Program.Edited {} (Edit.execAll {} storeEdits) ∧
    ((Edit.execAll {} storeEdits).value ⟨0⟩).users.count ⟨4⟩ = 2 ∧
    ∃ stores : List Nat, stores.Pairwise (· < ·) ∧ 3 ∈ stores ∧ 5 ∈ stores ∧ 4 ∉ stores ∧
      List.Forall₂ (Creation (Edit.execAll {} storeEdits) {} ⟨0⟩) stores [⟨2⟩, ⟨2⟩] := by
  obtain ⟨hcount, -, -, hcalls⟩ := users_complete edited_storeEdits
  have hglobal : (Edit.execAll {} storeEdits).global? ⟨0⟩ =
      some ⟨.pointerTo .unknown, none, false, none⟩ := by decide +kernel
  obtain ⟨stores, hsorted, hmem, hall⟩ := hcalls {} ⟨0⟩ _ hglobal
  have hfound : creationCalls (Edit.execAll {} storeEdits) {} ⟨0⟩ = [⟨2⟩, ⟨2⟩] := by
    decide +kernel
  refine ⟨edited_storeEdits, ?_, stores, hsorted, ?_, ?_, ?_, hfound ▸ hall⟩
  · rw [hcount]
    decide +kernel
  · exact (hmem 3).2 ⟨⟨2⟩, creationCall?_eq_some_iff.1 (by decide +kernel)⟩
  · exact (hmem 5).2 ⟨⟨2⟩, creationCall?_eq_some_iff.1 (by decide +kernel)⟩
  · intro h
    obtain ⟨c, hc⟩ := (hmem 4).1 h
    have hnone : creationCall? (Edit.execAll {} storeEdits) {} ⟨0⟩ ⟨4⟩ = none := by decide +kernel
    rw [creationCall?_eq_some_iff.2 hc] at hnone
    cases hnone

end CacheName

end KernelObjects
