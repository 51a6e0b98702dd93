/-!
# Sets of byte offsets

A finite set of offsets as the list of its members in ascending order, so that equal sets are equal
lists and nothing is left to sort when one is shown. Several offsets are placed from the last one to
the first: as a rule they ascend and lie below those that are there already, so that each finds its
place at the front.

Results:
* `mem_insert`, `mem_union`, `mem_ofList`, `mem_shift`: the members after each operation.
-/
namespace KernelObjects

/-- A finite set of offsets. -/
@[ext]
structure OffsetSet where
  items : List Int
  ascending : items.Pairwise (· < ·)

namespace OffsetSet

instance : EmptyCollection OffsetSet := ⟨[], .nil⟩

instance : Inhabited OffsetSet := ⟨∅⟩

instance : Membership Int OffsetSet := ⟨fun s o => o ∈ s.items⟩

theorem mem_def {o : Int} {s : OffsetSet} : o ∈ s ↔ o ∈ s.items := Iff.rfl

instance (o : Int) (s : OffsetSet) : Decidable (o ∈ s) :=
  inferInstanceAs (Decidable (o ∈ s.items))

instance : DecidableEq OffsetSet := fun s t =>
  decidable_of_iff (s.items = t.items) OffsetSet.ext_iff.symm

/-- Puts an offset at its place in an ascending list. -/
def place (o : Int) : List Int → List Int
  | [] => [o]
  | x :: xs => if o < x then o :: x :: xs else if o = x then x :: xs else x :: place o xs

theorem mem_place {o p : Int} {xs : List Int} : p ∈ place o xs ↔ p = o ∨ p ∈ xs := by
  induction xs with
  | nil => simp [place]
  | cons x xs ih =>
    rw [place]
    split
    · exact List.mem_cons
    · split
      · next h => simp [h]
      · simp only [List.mem_cons, ih, or_left_comm]

theorem ascending_place {o : Int} {xs : List Int} (h : xs.Pairwise (· < ·)) :
    (place o xs).Pairwise (· < ·) := by
  induction xs with
  | nil => simp [place]
  | cons x xs ih =>
    have ⟨hx, hxs⟩ := List.pairwise_cons.1 h
    rw [place]
    split
    · next hlt =>
      refine List.pairwise_cons.2 ⟨fun y hy => ?_, h⟩
      rcases List.mem_cons.1 hy with rfl | hy
      · exact hlt
      · exact Int.lt_trans hlt (hx y hy)
    · next hnlt =>
      split
      · exact h
      · next hne =>
        refine List.pairwise_cons.2 ⟨fun y hy => ?_, ih hxs⟩
        rcases mem_place.1 hy with rfl | hy
        · omega
        · exact hx y hy

/-- The set with one more offset. -/
def insert (s : OffsetSet) (o : Int) : OffsetSet :=
  ⟨place o s.items, ascending_place s.ascending⟩

/-- Puts every offset of a list at its place, the last one first. -/
def placeAll (os xs : List Int) : List Int :=
  os.foldr place xs

theorem mem_placeAll {p : Int} {os xs : List Int} : p ∈ placeAll os xs ↔ p ∈ os ∨ p ∈ xs := by
  induction os with
  | nil => simp [placeAll]
  | cons o os ih =>
    have : placeAll (o :: os) xs = place o (placeAll os xs) := rfl
    rw [this, mem_place, ih, List.mem_cons, or_assoc]

theorem ascending_placeAll {os xs : List Int} (h : xs.Pairwise (· < ·)) :
    (placeAll os xs).Pairwise (· < ·) := by
  induction os with
  | nil => exact h
  | cons o os ih => exact ascending_place ih

/-- The set with all offsets of another one. -/
def union (s t : OffsetSet) : OffsetSet :=
  ⟨placeAll s.items t.items, ascending_placeAll t.ascending⟩

/-- The offsets of a list. -/
def ofList (os : List Int) : OffsetSet :=
  ⟨placeAll os [], ascending_placeAll .nil⟩

/-- The offsets within a part that starts at byte `base`, as offsets within the whole. -/
def shift (s : OffsetSet) (base : Int) : OffsetSet :=
  ⟨s.items.map (· + base), List.pairwise_map.2 (s.ascending.imp (Int.add_lt_add_right · base))⟩

/-- Whether there is no offset. -/
def isEmpty (s : OffsetSet) : Bool :=
  s.items.isEmpty

@[simp]
theorem not_mem_empty (o : Int) : o ∉ (∅ : OffsetSet) :=
  List.not_mem_nil

@[simp]
theorem mem_insert {s : OffsetSet} {o p : Int} : p ∈ s.insert o ↔ p = o ∨ p ∈ s :=
  mem_place

@[simp]
theorem mem_union {s t : OffsetSet} {p : Int} : p ∈ s.union t ↔ p ∈ s ∨ p ∈ t :=
  mem_placeAll

@[simp]
theorem mem_ofList {os : List Int} {p : Int} : p ∈ ofList os ↔ p ∈ os := by
  rw [mem_def, ofList, mem_placeAll]
  simp

@[simp]
theorem mem_shift {s : OffsetSet} {base p : Int} : p ∈ s.shift base ↔ p - base ∈ s := by
  simp only [mem_def, shift, List.mem_map]
  constructor
  · rintro ⟨o, ho, rfl⟩
    simpa using ho
  · exact fun h => ⟨p - base, h, by omega⟩

end OffsetSet

end KernelObjects
