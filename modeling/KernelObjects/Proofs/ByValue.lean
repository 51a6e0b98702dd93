import Mathlib.Data.Finset.Card
import Mathlib.Data.Finset.Range
import Mathlib.Logic.Relation
import KernelObjects.Struct

/-!
# Structs within structs

Which structs lie by value in which, directly (`Embeds`), at any depth (`Holds`, `Reaches`) and at
which offset (`Path`). Arrays are stripped, every member of a union counts, pointers are not
followed. A struct is well formed if nothing that it reaches is opaque, holds itself, or has a
field that is neither a struct nor an integer or a pointer.

Results:
* `wellFormed_iff`: well-formedness, defined from the leaves up, is the absence of those three.
* `rank_lt`: outside of cycles, a struct reaches more structs than any that it embeds.
* `WellFormed.grows`, `WellFormed.path_iff_of_grows`: giving bodies to opaque structs
  changes neither.
-/
namespace KernelObjects

open Relation

/-- A type that takes up memory without being made of others. -/
def Ty.isScalar : Ty → Bool
  | .int _ | .ptr .. => true
  | _ => false

namespace Structs

variable (S : Structs) {a b c : StructId}

/-! ## Reaching by value -/

/-- `b` lies in `a` by value: it is a field of `a`, or the element of an array that is one. -/
def Embeds (a b : StructId) : Prop :=
  ∃ e ∈ (S.get a).elements, e.embedded? = some b

/-- `b` lies properly in `a`, at any depth. -/
def Holds : StructId → StructId → Prop :=
  TransGen S.Embeds

/-- `b` is `a` or lies in it. -/
def Reaches : StructId → StructId → Prop :=
  ReflTransGen S.Embeds

theorem mem_foldl_addEmbedded (es : List Ty) (found : List StructId) :
    b ∈ es.foldl addEmbedded found ↔ b ∈ found ∨ ∃ e ∈ es, e.embedded? = some b := by
  induction es generalizing found with
  | nil => simp
  | cons e es ih =>
    have hadd : b ∈ addEmbedded found e ↔ b ∈ found ∨ e.embedded? = some b := by
      unfold addEmbedded
      cases he : e.embedded? with
      | none => simp
      | some inner =>
        by_cases hm : inner ∈ found
        · simp only [hm, if_true, Option.some.injEq]
          exact ⟨.inl, fun h => h.elim id fun hb => hb ▸ hm⟩
        · simp [hm, eq_comm]
    rw [List.foldl_cons, ih, hadd, List.exists_mem_cons_iff, or_assoc]

theorem mem_embedded : b ∈ S.embedded a ↔ S.Embeds a b := by
  rw [embedded, mem_foldl_addEmbedded]
  simp [Embeds]

variable {S}

/-- What embeds only what is among some structs reaches only what is among them. -/
theorem mem_of_reaches (xs : List StructId) (h : ∀ x ∈ xs, ∀ c ∈ S.embedded x, c ∈ xs)
    (ha : a ∈ xs) (hb : S.Reaches a b) : b ∈ xs := by
  induction hb with
  | refl => exact ha
  | tail _ hbc ih => exact h _ ih _ ((mem_embedded S).2 hbc)

/-- What embeds nothing but itself reaches nothing else. -/
theorem eq_of_reaches (h : ∀ c ∈ S.embedded a, c = a) (hb : S.Reaches a b) : b = a :=
  List.mem_singleton.1 (mem_of_reaches [a] (by simpa using h) (List.mem_singleton.2 rfl) hb)

theorem has_body_of_mem {e : Ty} (he : e ∈ (S.get a).elements) : (S.get a).isOpaque = false := by
  cases hb : (S.get a).body with
  | none => simp [StructDef.elements, hb] at he
  | some es => simp [StructDef.isOpaque, hb]

theorem Embeds.has_body (h : S.Embeds a b) : (S.get a).isOpaque = false := by
  obtain ⟨e, he, -⟩ := h
  exact has_body_of_mem he

theorem embeds_of_getElem? {i : Nat} {e : Ty} (he : (S.get a).elements[i]? = some e)
    (hb : e.embedded? = some b) : S.Embeds a b :=
  ⟨e, List.mem_of_getElem? he, hb⟩

/-! ## Rank -/

variable (S) in
open Classical in
/-- The number of structs that a struct reaches. -/
noncomputable def rank (a : StructId) : Nat :=
  ((Finset.range S.size).filter fun i => S.Reaches a ⟨i⟩).card

theorem rank_le_size (a : StructId) : S.rank a ≤ S.size := by
  classical
  simpa [rank] using Finset.card_filter_le (Finset.range S.size) fun i => S.Reaches a ⟨i⟩

theorem rank_lt (h : S.Embeds a b) (hc : ¬ S.Holds a a) : S.rank b < S.rank a := by
  classical
  apply Finset.card_lt_card
  rw [Finset.ssubset_iff_of_subset]
  · refine ⟨a.idx, ?_, ?_⟩
    · simp only [Finset.mem_filter, Finset.mem_range]
      exact ⟨lt_size_of_body h.has_body, .refl⟩
    · simp only [Finset.mem_filter, not_and]
      exact fun _ hb => hc (TransGen.head' h hb)
  · intro i hi
    simp only [Finset.mem_filter] at hi ⊢
    exact ⟨hi.1, .head h hi.2⟩

/-- Below `a` there are no cycles. -/
def Founded (S : Structs) : StructId → Prop :=
  Acc fun b a => S.Embeds a b

theorem Founded.not_holds_self (h : S.Founded a) : ¬ S.Holds a a := by
  induction h with
  | intro a _ ih =>
    intro hc
    obtain ⟨b, hab, hba⟩ := TransGen.head'_iff.1 hc
    exact ih b hab (TransGen.tail' hba hab)

theorem Founded.embeds (h : S.Founded a) (hb : S.Embeds a b) : S.Founded b :=
  h.inv hb

theorem Founded.reaches (h : S.Founded a) (hb : S.Reaches a b) : S.Founded b := by
  induction hb with
  | refl => exact h
  | tail _ hbc ih => exact ih.embeds hbc

/-- Without a cycle within reach, going down comes to an end. -/
theorem founded_of_not_holds (h : ∀ x, S.Reaches a x → ¬ S.Holds x x) : S.Founded a := by
  induction hr : S.rank a using Nat.strong_induction_on generalizing a with
  | _ n ih =>
    refine .intro a fun b hb => ?_
    have hlt : S.rank b < n := hr ▸ rank_lt hb (h a .refl)
    exact ih _ hlt (fun x hx => h x (.head hb hx)) rfl

/-- Structs that embed only earlier ones form no cycle. -/
theorem founded_of_earlier (h : ∀ i < S.size, ∀ b ∈ S.embedded ⟨i⟩, b.idx < i) (a : StructId) :
    S.Founded a := by
  have hlt : ∀ a b, S.Embeds a b → b.idx < a.idx := fun a b hb =>
    h a.idx (lt_size_of_body hb.has_body) b ((mem_embedded S).2 hb)
  induction hr : a.idx using Nat.strong_induction_on generalizing a with
  | _ n ih => exact .intro a fun b hb => ih b.idx (hr ▸ hlt a b hb) b rfl

/-! ## Well-formed structs -/

variable (S) in
/-- A struct that has a body, the fields of which are scalars and well-formed structs. -/
inductive WellFormed : StructId → Prop where
  | mk {a : StructId} (body : (S.get a).isOpaque = false)
      (scalars : ∀ e ∈ (S.get a).elements, e.embedded? = none → e.stripArrays.isScalar = true)
      (inner : ∀ b, S.Embeds a b → WellFormed b) : WellFormed a

namespace WellFormed

theorem has_body (h : S.WellFormed a) : (S.get a).isOpaque = false :=
  match h with | .mk body _ _ => body

theorem scalar (h : S.WellFormed a) {e : Ty} (he : e ∈ (S.get a).elements)
    (hn : e.embedded? = none) : e.stripArrays.isScalar = true :=
  match h with | .mk _ scalars _ => scalars e he hn

theorem embeds (h : S.WellFormed a) (hb : S.Embeds a b) : S.WellFormed b :=
  match h with | .mk _ _ inner => inner b hb

theorem reaches (h : S.WellFormed a) (hb : S.Reaches a b) : S.WellFormed b := by
  induction hb with
  | refl => exact h
  | tail _ hbc ih => exact ih.embeds hbc

theorem founded (h : S.WellFormed a) : S.Founded a := by
  induction h with
  | mk _ _ _ ih => exact .intro _ ih

end WellFormed

theorem wellFormed_iff :
    S.WellFormed a ↔
      (∀ x, S.Reaches a x → (S.get x).isOpaque = false) ∧
      (∀ x, S.Reaches a x → ¬ S.Holds x x) ∧
      (∀ x, S.Reaches a x → ∀ e ∈ (S.get x).elements, e.embedded? = none →
        e.stripArrays.isScalar = true) := by
  constructor
  · intro h
    exact ⟨fun x hx => (h.reaches hx).has_body,
      fun x hx => (h.reaches hx).founded.not_holds_self, fun x hx e => (h.reaches hx).scalar⟩
  · rintro ⟨hbody, hcycle, hscalar⟩
    have hf := founded_of_not_holds hcycle
    induction hf with
    | intro a _ ih =>
      refine .mk (hbody a .refl) (hscalar a .refl) fun b hb => ih b hb ?_ ?_ ?_
      · exact fun x hx => hbody x (.head hb hx)
      · exact fun x hx => hcycle x (.head hb hx)
      · exact fun x hx => hscalar x (.head hb hx)

/-! ## Paths and their offsets -/

variable (S) in
/-- A way of at least one field from `a` down to `b`, and the sum of the offsets of its fields. -/
inductive Path (off : StructId → Nat → Int) : StructId → StructId → Int → Prop where
  | last {a b : StructId} {i : Nat} {e : Ty} (field : (S.get a).elements[i]? = some e)
      (inner : e.embedded? = some b) : Path off a b (off a i)
  | step {a b c : StructId} {i : Nat} {e : Ty} {k : Int} (field : (S.get a).elements[i]? = some e)
      (inner : e.embedded? = some b) (rest : Path off b c k) : Path off a c (off a i + k)

theorem Path.holds {off : StructId → Nat → Int} {k : Int} (h : S.Path off a b k) :
    S.Holds a b := by
  induction h with
  | last field inner => exact .single (embeds_of_getElem? field inner)
  | step field inner _ ih => exact .head (embeds_of_getElem? field inner) ih

theorem Path.congr {off off' : StructId → Nat → Int} {k : Int}
    (ho : ∀ x, S.Reaches a x → off x = off' x) (h : S.Path off a b k) : S.Path off' a b k := by
  induction h with
  | last field inner => rw [ho _ .refl]; exact .last field inner
  | step field inner _ ih =>
    rw [ho _ .refl]
    exact .step field inner (ih fun x hx => ho x (.head (embeds_of_getElem? field inner) hx))

/-! ## Growth -/

/-- Structs are added and opaque ones are given bodies; nothing else changes. -/
structure Grows (S S' : Structs) : Prop where
  size_le : S.size ≤ S'.size
  get_eq : ∀ a, (S.get a).isOpaque = false → S'.get a = S.get a

variable {S' : Structs}

theorem Grows.trans {S'' : Structs} (h : S.Grows S') (h' : S'.Grows S'') : S.Grows S'' where
  size_le := Nat.le_trans h.size_le h'.size_le
  get_eq a ha := by
    have hget := h.get_eq a ha
    rw [h'.get_eq a (hget ▸ ha), hget]

theorem Grows.embeds_iff (h : S.Grows S') (ha : (S.get a).isOpaque = false) :
    S'.Embeds a b ↔ S.Embeds a b := by
  rw [Embeds, Embeds, h.get_eq a ha]

theorem Grows.reaches (h : S.Grows S') (hr : S.Reaches a b) : S'.Reaches a b := by
  induction hr with
  | refl => exact .refl
  | tail _ hbc ih => exact ih.tail ((h.embeds_iff hbc.has_body).2 hbc)

theorem WellFormed.grows (hw : S.WellFormed a) (h : S.Grows S') : S'.WellFormed a := by
  induction hw with
  | mk body scalars inner ih =>
    have hg := h.get_eq _ body
    refine .mk (hg ▸ body) (hg ▸ scalars) fun b hb => ih b ?_
    exact (h.embeds_iff body).1 hb

theorem WellFormed.path_iff_of_grows (hw : S.WellFormed a) (h : S.Grows S')
    {off : StructId → Nat → Int} {k : Int} : S'.Path off a b k ↔ S.Path off a b k := by
  constructor
  · intro hp
    induction hp with
    | last field inner => rw [h.get_eq _ hw.has_body] at field; exact .last field inner
    | step field inner _ ih =>
      rw [h.get_eq _ hw.has_body] at field
      exact .step field inner (ih (hw.embeds (embeds_of_getElem? field inner)))
  · intro hp
    induction hp with
    | last field inner => rw [← h.get_eq _ hw.has_body] at field; exact .last field inner
    | step field inner _ ih =>
      have hb := hw.embeds (embeds_of_getElem? field inner)
      rw [← h.get_eq _ hw.has_body] at field
      exact .step field inner (ih hb)

end Structs

end KernelObjects
