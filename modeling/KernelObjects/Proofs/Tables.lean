import KernelObjects.Proofs.Leaves
import KernelObjects.Proofs.Requests

/-!
# Tables mean leaves

After any history in which all requests under one name are made on one target, the table of every
descriptor lists the leaves of its struct, in the order in which they are visited.

Results:
* `table_eq_leaves`: one entry for each leaf, and it says what the route to the leaf says.
-/
namespace KernelObjects

/-- No field has a negative size on the target. -/
def Structs.NoNegative (S : Structs) (t : Target) : Prop :=
  ∀ x, ∀ e ∈ (S.get x).elements, ∀ v, S.sizeOn t e = .ok v → 0 ≤ v

instance (S : Structs) (t : Target) : Decidable (S.NoNegative t) :=
  decidable_of_iff
    (∀ i < S.size, ∀ e ∈ (S.get ⟨i⟩).elements, ∀ v ∈ (S.sizeOn t e).toOption, 0 ≤ v) <| by
    constructor
    · intro h x e he v hv
      have hx : (S.get x).isOpaque = false := by
        cases hb : (S.get x).body <;> simp_all [StructDef.elements, StructDef.isOpaque]
      exact h x.idx (Structs.lt_size_of_body hx) e he v (by simp [hv, Except.toOption])
    · intro h i _ e he v hv
      refine h ⟨i⟩ e he v ?_
      cases hs : S.sizeOn t e <;> simp_all [Except.toOption]

theorem Structs.bytesOn_nonneg {S : Structs} {t : Target} {e : Ty}
    (h : ∀ v, S.sizeOn t e = .ok v → 0 ≤ v) : 0 ≤ S.bytesOn t e := by
  unfold Structs.bytesOn
  cases hv : S.sizeOn t e with
  | error _ => exact Int.le_refl 0
  | ok v => exact h v hv

theorem Structs.NoNegative.bytesOn {S : Structs} {t : Target} (h : S.NoNegative t) {x : StructId}
    {e : Ty} (he : e ∈ (S.get x).elements) : 0 ≤ S.bytesOn t e :=
  bytesOn_nonneg (h x e he)

variable {S : Structs} {L : Layouts} {r : Registry} {m : String} {t : Target}

/-- No field of a struct, or of one that lies in it, has a negative size on the target. -/
def Structs.NoNegativeBelow (S : Structs) (t : Target) (a : StructId) : Prop :=
  ∀ x, S.Reaches a x → ∀ e ∈ (S.get x).elements, 0 ≤ S.bytesOn t e

theorem Structs.NoNegativeBelow.embeds {a b : StructId} (h : S.NoNegativeBelow t a)
    (hb : S.Embeds a b) : S.NoNegativeBelow t b :=
  fun x hx => h x (.head hb hx)

/-- The table of a struct that is flattened on a target, if no size in it is negative. -/
theorem Registry.Consistent.fields_eq_below (hr : r.Consistent S L) {b : StructId} {h : Nat}
    (hflat : r.FlattenedOn S L m t b) (hb : r.handle? b m = some h) (hz : S.NoNegativeBelow t b) :
    (r.descriptor h).shape.fields.toList = S.leafTable t b := by
  suffices htable : (r.descriptor h).shape.fields.toList = S.leafTable t b ∧
      (r.descriptor h).shape.fields ≠ #[] from htable.1
  refine hr.shape_induction_below (P := fun b s => S.NoNegativeBelow t b →
    s.fields.toList = S.leafTable t b ∧ s.fields ≠ #[]) (fun b nested l hl hn hz => ?_) hflat hb hz
  exact ⟨Structs.expand_eq_leaves hl (hz b .refl) fun c hc => hn c hc (hz.embeds hc),
    Structs.fields_expand_ne S t nested b⟩

/-- The tables under a name whose descriptors are on one target. -/
theorem Registry.Consistent.fields_eq (hr : r.Consistent S L)
    (ht : ∀ {b h}, r.handle? b m = some h → r.targetAt L h = t) (hz : S.NoNegative t)
    {b : StructId} {h : Nat} (hb : r.handle? b m = some h) :
    (r.descriptor h).shape.fields.toList = S.leafTable t b :=
  hr.fields_eq_below (hr.flattenedOn ht hb) hb fun _ _ _ he => hz.bytesOn he

theorem table_eq_leaves (σ : AnalysisId → String → Target) {s : Session}
    (h : Reachable (fun a m t => t = σ a m) s) (a : AnalysisId) (i : Nat)
    (hi : i < (s.analysis a).registry.size) :
    let S := s.program.structs
    let r := (s.analysis a).registry
    let st := (r.descriptor i).type
    ∃ m, r.handle? st m = some i ∧
      (S.NoNegative (σ a m) → (S.leaves (σ a m) st).Nodup ∧
        (r.descriptor i).shape.fields.toList =
          (S.leaves (σ a m) st).map (S.entryOf (σ a m))) := by
  intro S r st
  have hr : r.Consistent S s.layouts := h.sound.registries a
  obtain ⟨b, m, hb⟩ := hr.keyed i hi
  obtain rfl : b = st := (hr.type hb).symm
  refine ⟨m, hb, fun hz => ⟨Structs.nodup_leaves (hr.wellFormed hb).founded, ?_⟩⟩
  exact hr.fields_eq h.sound.targets hz hb

/-- A union is flattened as its larger member, and the first entry of an array of structs stands for
the whole. -/
theorem table_eq_leaves_small :
    ∃ i, i < (askedSession.analysis ⟨0⟩).registry.size ∧
      ((askedSession.analysis ⟨0⟩).registry.descriptor i).shape.fields.toList =
        [{ size := 1, offset := 0, realSize := 2 },
          { size := 2, offset := 8, realSize := 4, isArray := true },
          { size := 1, offset := 16, realSize := 8, isPointer := true },
          { size := 2, offset := 40, realSize := 4, isUnion := true },
          { size := 1, offset := 48, realSize := 8, isPointer := true, isUnion := true }] := by
  obtain ⟨i, hi⟩ := handle?_askedSession
  have hr := reachable_askedSession.sound.registries ⟨0⟩
  have hlt := hr.lt hi
  obtain ⟨m, -, htable⟩ := table_eq_leaves (fun _ _ => {}) reachable_askedSession ⟨0⟩ i hlt
  rw [program_askedSession, hr.type hi] at htable
  refine ⟨i, hlt, ((htable (by decide)).2).trans ?_⟩
  decide +kernel

end KernelObjects
