/-!
# Sets that remember the order of arrival

A list without repetitions; a new member goes to the end, an old one changes nothing.

Results:
* `items_insert`: the members after an insertion, and their order.
* `mem_insert`: an insertion adds its member and nothing else.
-/
namespace KernelObjects

/-- A finite set whose members are listed in order of arrival. -/
@[ext]
structure OrderedSet (α : Type) where
  items : List α
  nodup : items.Nodup

namespace OrderedSet

variable {α : Type}

def empty : OrderedSet α := ⟨[], List.nodup_nil⟩

instance : Inhabited (OrderedSet α) := ⟨empty⟩

instance : EmptyCollection (OrderedSet α) := ⟨empty⟩

instance : Membership α (OrderedSet α) := ⟨fun s a => a ∈ s.items⟩

theorem mem_def {a : α} {s : OrderedSet α} : a ∈ s ↔ a ∈ s.items := Iff.rfl

@[simp]
theorem items_empty : (∅ : OrderedSet α).items = [] := rfl

variable [DecidableEq α]

instance (a : α) (s : OrderedSet α) : Decidable (a ∈ s) :=
  inferInstanceAs (Decidable (a ∈ s.items))

instance : DecidableEq (OrderedSet α) := fun s t =>
  decidable_of_iff (s.items = t.items) OrderedSet.ext_iff.symm

/-- The set with `a`, at the end if it is new. -/
def insert (s : OrderedSet α) (a : α) : OrderedSet α :=
  if h : a ∈ s.items then s
  else
    ⟨s.items ++ [a],
      List.nodup_append.2 ⟨s.nodup, by simp, by simp; exact fun x hx he => h (he ▸ hx)⟩⟩

/-- The set with every member of a list, one after the other. -/
def insertAll (s : OrderedSet α) (as : List α) : OrderedSet α :=
  as.foldl insert s

/-- The members of a list, each at its first position. -/
def ofList (as : List α) : OrderedSet α :=
  empty.insertAll as

/-- Whether there is no member. -/
def isEmpty (s : OrderedSet α) : Bool :=
  s.items.isEmpty

/-- The number of members. -/
def size (s : OrderedSet α) : Nat :=
  s.items.length

theorem items_insert (s : OrderedSet α) (a : α) :
    (s.insert a).items = if a ∈ s then s.items else s.items ++ [a] := by
  unfold insert
  split
  · next h => simp [mem_def, h]
  · next h => simp [mem_def, h]

@[simp]
theorem mem_insert {s : OrderedSet α} {a b : α} : b ∈ s.insert a ↔ b ∈ s ∨ b = a := by
  rw [mem_def, items_insert]
  split
  · next h =>
    refine ⟨Or.inl, ?_⟩
    rintro (h' | rfl)
    · exact h'
    · exact h
  · simp [mem_def]

@[simp]
theorem mem_insertAll {s : OrderedSet α} {as : List α} {b : α} :
    b ∈ s.insertAll as ↔ b ∈ s ∨ b ∈ as := by
  induction as generalizing s with
  | nil => simp [insertAll]
  | cons a as ih =>
    have : s.insertAll (a :: as) = (s.insert a).insertAll as := rfl
    rw [this, ih, mem_insert, List.mem_cons, or_assoc]

@[simp]
theorem mem_ofList {as : List α} {b : α} : b ∈ ofList as ↔ b ∈ as :=
  mem_insertAll.trans (or_iff_right List.not_mem_nil)

theorem ofList_append_singleton (as : List α) (a : α) :
    ofList (as ++ [a]) = (ofList as).insert a := by
  simp [ofList, insertAll]

end OrderedSet

end KernelObjects
