/-!
# Tables in order of insertion

A finite map as a list of bindings with distinct keys. A new key goes to the end; binding an old
key anew keeps its place.

Results:
* `get?_insert`: what an insertion does to the view `get?`.
* `keys_insert`: what it does to the order of the keys.
-/
namespace KernelObjects

/-- Bindings with distinct keys, oldest key first. -/
@[ext]
structure Table (κ υ : Type) where
  entries : List (κ × υ)
  nodup : (entries.map Prod.fst).Nodup

namespace Table

variable {κ υ : Type}

def empty : Table κ υ := ⟨[], List.nodup_nil⟩

instance : Inhabited (Table κ υ) := ⟨empty⟩

instance : EmptyCollection (Table κ υ) := ⟨empty⟩

/-- The keys, oldest first. -/
def keys (t : Table κ υ) : List κ :=
  t.entries.map Prod.fst

/-- The bound values, in the order of their keys. -/
def values (t : Table κ υ) : List υ :=
  t.entries.map Prod.snd

/-- The number of bindings. -/
def size (t : Table κ υ) : Nat :=
  t.entries.length

/-- Whether there is no binding. -/
def isEmpty (t : Table κ υ) : Bool :=
  t.entries.isEmpty

variable [DecidableEq κ]

instance [DecidableEq υ] : DecidableEq (Table κ υ) := fun s t =>
  decidable_of_iff (s.entries = t.entries) Table.ext_iff.symm

/-- The value of the first binding of a key. -/
def find (k : κ) : List (κ × υ) → Option υ
  | [] => none
  | e :: es => if e.1 = k then some e.2 else find k es

/-- The value bound to a key. -/
def get? (t : Table κ υ) (k : κ) : Option υ :=
  find k t.entries

/-- Whether a key is bound. -/
def contains (t : Table κ υ) (k : κ) : Bool :=
  (t.get? k).isSome

/-- Puts the value at the key's place, or at the end without one. -/
def put (k : κ) (v : υ) : List (κ × υ) → List (κ × υ)
  | [] => [(k, v)]
  | e :: es => if e.1 = k then (k, v) :: es else e :: put k v es

theorem keys_put (k : κ) (v : υ) (es : List (κ × υ)) :
    (put k v es).map Prod.fst =
      if k ∈ es.map Prod.fst then es.map Prod.fst else es.map Prod.fst ++ [k] := by
  induction es with
  | nil => simp [put]
  | cons e es ih =>
    rw [put]
    split
    · next h => simp [h]
    · next h =>
      have h' : ¬ k = e.1 := fun he => h he.symm
      simp only [List.map_cons, ih, List.mem_cons, h', false_or]
      split <;> simp

theorem mem_put {k : κ} {v : υ} {es : List (κ × υ)} {p : κ × υ} (h : p ∈ put k v es) :
    p = (k, v) ∨ p ∈ es := by
  induction es with
  | nil => exact .inl (List.mem_singleton.1 h)
  | cons e es ih =>
    unfold put at h
    split at h
    · rcases List.mem_cons.1 h with h | h
      · exact .inl h
      · exact .inr (List.mem_cons_of_mem _ h)
    · rcases List.mem_cons.1 h with h | h
      · exact .inr (h ▸ List.mem_cons_self ..)
      · exact (ih h).imp_right (List.mem_cons_of_mem _)

/-- Binds a key, at its old place if it has one. -/
def insert (t : Table κ υ) (k : κ) (v : υ) : Table κ υ :=
  ⟨put k v t.entries, by
    rw [keys_put]
    split
    · exact t.nodup
    · next h =>
      exact List.nodup_append.2 ⟨t.nodup, by simp, by
        intro a ha b hb he
        simp only [List.mem_singleton] at hb
        exact h (hb ▸ he ▸ ha)⟩⟩

/-- Binds a key that is not bound yet. -/
def insertNew (t : Table κ υ) (k : κ) (v : υ) : Table κ υ :=
  if t.contains k then t else t.insert k v

/-- Binds every pair of a list, one after the other. -/
def insertAll (t : Table κ υ) (ps : List (κ × υ)) : Table κ υ :=
  ps.foldl (fun t p => t.insert p.1 p.2) t

theorem find_put (k k' : κ) (v : υ) (es : List (κ × υ)) :
    find k' (put k v es) = if k' = k then some v else find k' es := by
  induction es with
  | nil => simp [put, find, eq_comm]
  | cons e es ih => grind [put, find]

@[simp]
theorem get?_empty (k : κ) : (∅ : Table κ υ).get? k = none := rfl

@[simp]
theorem get?_insert (t : Table κ υ) (k k' : κ) (v : υ) :
    (t.insert k v).get? k' = if k' = k then some v else t.get? k' :=
  find_put k k' v t.entries

theorem put_of_find {k : κ} {v : υ} {es : List (κ × υ)} (h : find k es = some v) :
    put k v es = es := by
  induction es with
  | nil => cases h
  | cons e es ih => grind [put, find]

/-- Binding a key to the value that it has changes nothing. -/
theorem insert_of_get? {t : Table κ υ} {k : κ} {v : υ} (h : t.get? k = some v) :
    t.insert k v = t :=
  Table.ext (put_of_find h)

theorem put_of_find_none {k : κ} {v : υ} {es : List (κ × υ)} (h : find k es = none) :
    put k v es = es ++ [(k, v)] := by
  induction es with
  | nil => rfl
  | cons e es ih => grind [put, find]

theorem entries_insert_new {t : Table κ υ} {k : κ} (h : t.get? k = none) (v : υ) :
    (t.insert k v).entries = t.entries ++ [(k, v)] :=
  put_of_find_none h

theorem find_isSome_iff (k : κ) (es : List (κ × υ)) :
    (find k es).isSome ↔ k ∈ es.map Prod.fst := by
  induction es with
  | nil => simp [find]
  | cons e es ih => grind [find]

theorem mem_of_find {k : κ} {v : υ} {es : List (κ × υ)} (h : find k es = some v) :
    (k, v) ∈ es := by
  induction es with
  | nil => cases h
  | cons e es ih =>
    rw [find] at h
    split at h
    · next he => cases h; rw [← he]; exact List.mem_cons_self ..
    · exact List.mem_cons_of_mem _ (ih h)

theorem find_of_mem {es : List (κ × υ)} (hnodup : (es.map Prod.fst).Nodup) {e : κ × υ}
    (h : e ∈ es) : find e.1 es = some e.2 := by
  induction es with
  | nil => cases h
  | cons x es ih => grind [find]

theorem get?_of_mem {t : Table κ υ} {e : κ × υ} (h : e ∈ t.entries) : t.get? e.1 = some e.2 :=
  find_of_mem t.nodup h

theorem contains_iff (t : Table κ υ) (k : κ) : t.contains k = true ↔ k ∈ t.keys :=
  find_isSome_iff k t.entries

theorem keys_insert (t : Table κ υ) (k : κ) (v : υ) :
    (t.insert k v).keys = if k ∈ t.keys then t.keys else t.keys ++ [k] :=
  keys_put k v t.entries

@[simp]
theorem get?_insertNew (t : Table κ υ) (k k' : κ) (v : υ) :
    (t.insertNew k v).get? k' = if k' = k then some ((t.get? k).getD v) else t.get? k' := by
  unfold insertNew contains
  cases h : t.get? k <;> simp
  intro he
  rw [he, h]

end Table

end KernelObjects
