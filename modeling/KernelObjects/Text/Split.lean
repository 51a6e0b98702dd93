/-!
# Cutting a text at a separator

`splitOn sep` cuts at every occurrence of one character and keeps empty parts, so a text without
the separator is one part; `cut sep` cuts at the first occurrence only.

Results:
* `splitOn_ne_nil`: there is always a part.
* `join_splitOn`: putting the separator back between the parts gives the text.
* `subset_of_mem_splitOn`, `not_mem_of_mem_splitOn`: a part holds characters of the text, and not
  the separator.
* `splitOn_join`: cutting gives back the parts that a text was put together from.
* `splitOn_eq_cut`: the first part is what `cut` gives.
-/
namespace KernelObjects.Text

/-- The parts between the occurrences of `sep`, empty ones included. -/
def splitOn (sep : Char) : List Char → List (List Char)
  | [] => [[]]
  | c :: cs =>
    if c = sep then [] :: splitOn sep cs
    else
      match splitOn sep cs with
      | [] => [[c]]
      | part :: parts => (c :: part) :: parts

/-- The text before and after the first `sep`; the second part is empty without one. -/
def cut (sep : Char) : List Char → List Char × List Char
  | [] => ([], [])
  | c :: cs => if c = sep then ([], cs) else ((cut sep cs).map (c :: ·) id)

/-- The parts with `sep` between them. -/
def join (sep : Char) : List (List Char) → List Char
  | [] => []
  | [part] => part
  | part :: parts => part ++ sep :: join sep parts

theorem splitOn_ne_nil (sep : Char) (s : List Char) : splitOn sep s ≠ [] := by
  cases s with
  | nil => simp [splitOn]
  | cons c cs =>
    rw [splitOn]
    split
    · simp
    · split <;> simp

theorem join_splitOn (sep : Char) (s : List Char) : join sep (splitOn sep s) = s := by
  induction s with
  | nil => rfl
  | cons c cs ih =>
    have hne := splitOn_ne_nil sep cs
    rw [splitOn]
    split
    · next h =>
      cases hs : splitOn sep cs with
      | nil => exact absurd hs hne
      | cons p ps => rw [join, ← hs, ih, h]; rfl; simp
    · split
      · next hs => exact absurd hs hne
      · next p ps hs =>
        rw [hs] at ih
        cases ps with
        | nil => simpa [join] using ih
        | cons q qs => simpa [join] using ih

theorem subset_of_mem_splitOn {sep : Char} {s part : List Char} (h : part ∈ splitOn sep s) :
    part ⊆ s := by
  induction s generalizing part with
  | nil => simp_all [splitOn]
  | cons c cs ih =>
    rw [splitOn] at h
    split at h
    · rcases List.mem_cons.1 h with rfl | h
      · exact List.nil_subset _
      · exact List.subset_cons_of_subset c (ih h)
    · split at h
      · next hs => exact absurd hs (splitOn_ne_nil sep cs)
      · next p ps hs =>
        rcases List.mem_cons.1 h with rfl | h
        · exact List.cons_subset_cons c (ih (by simp [hs]))
        · exact List.subset_cons_of_subset c (ih (by simp [hs, h]))

theorem not_mem_of_mem_splitOn {sep : Char} {s part : List Char} (h : part ∈ splitOn sep s) :
    sep ∉ part := by
  induction s generalizing part with
  | nil => simp_all [splitOn]
  | cons c cs ih =>
    rw [splitOn] at h
    split at h
    · rcases List.mem_cons.1 h with rfl | h
      · simp
      · exact ih h
    · next hc =>
      split at h
      · next hs => exact absurd hs (splitOn_ne_nil sep cs)
      · next p ps hs =>
        rcases List.mem_cons.1 h with rfl | h
        · have hp : sep ∉ p := ih (by simp [hs])
          simp [hp, Ne.symm hc]
        · exact ih (by simp [hs, h])

theorem cut_snd_subset (sep : Char) (s : List Char) : (cut sep s).2 ⊆ s := by
  induction s with
  | nil => exact List.Subset.refl _
  | cons c cs ih =>
    rw [cut]
    split
    · exact List.subset_cons_self c cs
    · exact List.subset_cons_of_subset c ih

theorem splitOn_of_not_mem {sep : Char} {s : List Char} (h : sep ∉ s) : splitOn sep s = [s] := by
  induction s with
  | nil => rfl
  | cons c cs ih =>
    rw [List.mem_cons, not_or] at h
    rw [splitOn, if_neg (Ne.symm h.1), ih h.2]

theorem splitOn_append_cons {sep : Char} {s : List Char} (h : sep ∉ s) (rest : List Char) :
    splitOn sep (s ++ sep :: rest) = s :: splitOn sep rest := by
  induction s with
  | nil => rw [List.nil_append, splitOn, if_pos rfl]
  | cons c cs ih =>
    rw [List.mem_cons, not_or] at h
    rw [List.cons_append, splitOn, if_neg (Ne.symm h.1), ih h.2]

theorem splitOn_join {sep : Char} {parts : List (List Char)} (h : ∀ part ∈ parts, sep ∉ part)
    (hne : parts ≠ []) : splitOn sep (join sep parts) = parts := by
  induction parts with
  | nil => exact absurd rfl hne
  | cons part parts ih =>
    obtain ⟨hpart, hparts⟩ := List.forall_mem_cons.1 h
    cases parts with
    | nil => exact splitOn_of_not_mem hpart
    | cons q qs => rw [join, splitOn_append_cons hpart, ih hparts (List.cons_ne_nil q qs)]; simp

/-- Without a separator there is one part; otherwise the first part is what `cut` gives, and the
others are those of the rest. -/
theorem splitOn_eq_cut (sep : Char) (s : List Char) :
    splitOn sep s = [(cut sep s).1] ∧ (cut sep s).2 = [] ∨
      splitOn sep s = (cut sep s).1 :: splitOn sep (cut sep s).2 := by
  induction s with
  | nil => exact .inl ⟨rfl, rfl⟩
  | cons c cs ih =>
    by_cases hc : c = sep
    · refine .inr ?_
      rw [splitOn, cut, if_pos hc, if_pos hc]
    · rw [splitOn, cut, if_neg hc, if_neg hc]
      rcases ih with ⟨h, hrest⟩ | h
      · rw [h]
        exact .inl ⟨rfl, hrest⟩
      · rw [h]
        exact .inr rfl

end KernelObjects.Text
