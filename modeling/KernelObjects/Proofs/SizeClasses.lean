import KernelObjects.Proofs.CacheFaults
import Mathlib.Order.Bounds.Basic
import Mathlib.Algebra.Order.Ring.Int

/-!
# The classes of sizes

The class of a size is a power of two: the least one that holds the size and is not below the
smallest class. Its name says which power it is, and nothing else. Four classes are named after a
number of kilobytes, all others after their number of bytes; a number of bytes has no letter in it,
so no two classes share a name. A class of too many digits has none.

Results:
* `isLeast_leastShift`: the search ends at the least exponent.
* `className_injective`: the name gives the class.
* `name_eq_ok_iff`: when there is a name, and which.
* `sizeClass_exact`: the class of every size, and which sizes share a name.
* `sizeClass_unnamed`: sizes of one class without a name.
-/
namespace KernelObjects.SizeClass

/-! ## The least exponent -/

theorem cast_shift (k : Nat) : ((1 <<< k : Nat) : Int) = 2 ^ k := by
  rw [Nat.one_shiftLeft, Nat.cast_pow, Nat.cast_ofNat]

theorem isLeast_leastShift {minShift : Int} (size : Int) (h : 0 ≤ minShift) :
    IsLeast {k : Nat | minShift ≤ k ∧ size ≤ 2 ^ k} (leastShift size minShift.toNat) := by
  have hle := le_leastShift size minShift.toNat
  have hsize := le_shift_leastShift size minShift.toNat
  rw [cast_shift] at hsize
  refine ⟨⟨by omega, hsize⟩, ?_⟩
  rintro j ⟨hj, hsize'⟩
  by_contra hlt
  have hmin : minShift.toNat ≤ j := by omega
  have hpassed := lt_of_lt_leastShift hmin (Nat.lt_of_not_le hlt)
  rw [cast_shift] at hpassed
  exact absurd hsize' (Int.not_le.2 hpassed)

/-- A larger size has a class of its own exactly if there is a power of two in between. -/
theorem leastShift_ne_iff {size size' minShift : Int} (h : 0 ≤ minShift) (hle : size ≤ size') :
    leastShift size' minShift.toNat ≠ leastShift size minShift.toNat ↔
      ∃ j : Nat, minShift ≤ j ∧ size ≤ 2 ^ j ∧ 2 ^ j < size' := by
  obtain ⟨⟨hmin, hsize⟩, hleast⟩ := isLeast_leastShift size h
  obtain ⟨⟨hmin', hsize'⟩, hleast'⟩ := isLeast_leastShift size' h
  constructor
  · intro hne
    refine ⟨_, hmin, hsize, Int.lt_of_not_ge fun hge => hne ?_⟩
    exact Nat.le_antisymm (hleast' ⟨hmin, hge⟩) (hleast ⟨hmin', Int.le_trans hle hsize'⟩)
  · rintro ⟨j, hj, hbelow, habove⟩ heq
    have hpow : (2 : Int) ^ leastShift size minShift.toNat ≤ 2 ^ j :=
      pow_le_pow_right₀ one_le_two (hleast ⟨hj, hbelow⟩)
    rw [heq] at hsize'
    exact absurd (Int.le_trans hsize' hpow) (Int.not_le.2 habove)

/-! ## The name of a class -/

/-- How the class of `2 ^ k` bytes is written. -/
def classText : Nat → String
  | 9 => "1k"
  | 10 => "2k"
  | 11 => "4k"
  | 12 => "8k"
  | k => toString (2 ^ k)

/-- The name of the class of `2 ^ k` bytes. -/
def className (k : Nat) : String :=
  "kmalloc-" ++ classText k

/-- The class of `2 ^ k` bytes can be written. -/
def Writable (k : Nat) : Prop :=
  2 ^ k < Nat.pow 10 Text.Numeral.maxDigits

theorem classText_of_bytes {k : Nat} (h : k < 9 ∨ 12 < k) : classText k = toString (2 ^ k) := by
  unfold classText
  split <;> first | omega | rfl

theorem letter_mem_classText_iff (k : Nat) :
    'k' ∈ (classText k).toList ↔ 9 ≤ k ∧ k ≤ 12 := by
  by_cases hk : k < 9 ∨ 12 < k
  · refine iff_of_false (fun hmem => ?_) (by omega)
    -- a number of bytes is written in digits
    rw [classText_of_bytes hk] at hmem
    have hdigit := Nat.isDigit_of_mem_toDigits (by decide) (by decide) (Nat.toList_repr ▸ hmem)
    exact absurd hdigit (by decide)
  · refine iff_of_true ?_ (by omega)
    obtain rfl | rfl | rfl | rfl : k = 9 ∨ k = 10 ∨ k = 11 ∨ k = 12 := by omega
    all_goals simp [classText]

theorem classText_injective : Function.Injective classText := by
  intro k j h
  -- the letter tells the two kinds of text apart, so both classes are of one kind
  have hletter : (9 ≤ k ∧ k ≤ 12) ↔ (9 ≤ j ∧ j ≤ 12) := by
    rw [← letter_mem_classText_iff, h, letter_mem_classText_iff]
  by_cases hk : k < 9 ∨ 12 < k
  · rw [classText_of_bytes hk, classText_of_bytes (by omega)] at h
    have hread : ∀ n : Nat, Nat.ofDigitChars 10 (toString n).toList 0 = n := fun n => by
      rw [Nat.toString_eq_repr, Nat.toList_repr, Nat.ofDigitChars_ten_toDigits]
    have hpow : 2 ^ k = 2 ^ j := by rw [← hread (2 ^ k), h, hread]
    exact Nat.pow_right_injective (Nat.le_refl 2) hpow
  · have hkilo : ∀ a ∈ [9, 10, 11, 12], ∀ b ∈ [9, 10, 11, 12],
        classText a = classText b → a = b := by decide
    exact hkilo k (by simp; omega) j (by simp; omega) h

theorem className_injective : Function.Injective className := fun _ _ h =>
  classText_injective ((String.append_right_inj _).1 h)

theorem bucketName_shift {k : Nat} (h : Writable k) : bucketName (1 <<< k) = .ok (className k) := by
  by_cases hk : k < 9 ∨ 12 < k
  · -- the ranges of `bucketName` hold no other power of two
    have hbytes : 1 <<< k < 512 ∨ 8192 ≤ 1 <<< k := by
      rcases hk with hk | hk
      · exact .inl (Nat.lt_of_le_of_lt (shift_le_shift (Nat.le_of_lt_succ hk)) (by decide))
      · exact .inr (Nat.le_trans (by decide : 8192 ≤ 1 <<< 13) (shift_le_shift hk))
    have hwrite : Text.Numeral.write? (1 <<< k : Nat) = some (toString (1 <<< k)) :=
      Text.Numeral.write?_eq_some_iff.2 ⟨by rwa [Int.natAbs_natCast, Nat.one_shiftLeft], rfl⟩
    unfold bucketName
    rw [if_neg (by omega), if_neg (by omega), if_neg (by omega), if_neg (by omega), hwrite,
      className, classText_of_bytes hk, Nat.one_shiftLeft]
  · obtain rfl | rfl | rfl | rfl : k = 9 ∨ k = 10 ∨ k = 11 ∨ k = 12 := by omega
    all_goals rfl

theorem bucketName_shift_of_not_writable {k : Nat} (h : ¬ Writable k) :
    bucketName (1 <<< k) = .error .unwritable := by
  have hle : Nat.pow 10 Text.Numeral.maxDigits ≤ 1 <<< k := by
    rw [Nat.one_shiftLeft]
    exact Nat.le_of_not_lt h
  exact bucketName_of_le hle (Nat.le_trans (eight_thousand_le (by decide)) hle)

theorem name_eq_ok_iff {size minShift : Int} {n : String} (h : 0 ≤ minShift) :
    name size minShift = .ok n ↔
      Writable (leastShift size minShift.toNat) ∧
        n = className (leastShift size minShift.toNat) := by
  have hnamed : ∀ m, name size minShift = .ok m → Writable (leastShift size minShift.toNat) ∧
      m = className (leastShift size minShift.toNat) := by
    intro m hm
    unfold name at hm
    split at hm
    · cases hm
    · by_cases hw : Writable (leastShift size minShift.toNat)
      · rw [bucketName_shift hw] at hm
        cases hm
        exact ⟨hw, rfl⟩
      · rw [bucketName_shift_of_not_writable hw] at hm
        cases hm
  refine ⟨hnamed n, ?_⟩
  rintro ⟨hw, rfl⟩
  obtain ⟨m, hm⟩ := (exists_name_iff h).2 ⟨leastShift size minShift.toNat, le_leastShift ..,
    le_shift_leastShift .., by rw [Nat.one_shiftLeft]; exact hw⟩
  rw [hm, (hnamed m hm).2]

/-! ## Classes and names -/

theorem name_of_neg {size minShift : Int} (h : minShift < 0) :
    name size minShift = .error .negativeShift := by
  rw [name, outOfReach?, if_pos h]

/-- The class of a size is the least power of two that holds it and is not below the smallest class.
It has a name exactly if it can be written, and then this name is that of all sizes of the class and
of no other. So with one smallest class, the name changes exactly where a power of two is passed
that is not below it. -/
theorem sizeClass_exact (size minShift : Int) :
    (minShift < 0 → name size minShift = .error .negativeShift) ∧
    (0 ≤ minShift →
      ∃ k, leastShift size minShift.toNat = k ∧
        IsLeast {k : Nat | minShift ≤ k ∧ size ≤ 2 ^ k} k ∧
        (∀ n, name size minShift = .ok n ↔ Writable k ∧ n = className k) ∧
        (¬ Writable k → minShift < storeLimit → name size minShift = .error .unwritable) ∧
        ∀ n, name size minShift = .ok n →
          (∀ size' minShift', 0 ≤ minShift' →
            (name size' minShift' = .ok n ↔ leastShift size' minShift'.toNat = k)) ∧
          ∀ size', size ≤ size' →
            (name size' minShift ≠ .ok n ↔
              ∃ j : Nat, minShift ≤ j ∧ size ≤ 2 ^ j ∧ 2 ^ j < size')) := by
  refine ⟨name_of_neg, fun h => ⟨_, rfl, isLeast_leastShift size h, fun n => name_eq_ok_iff h, ?_,
    fun n hn => ?_⟩⟩
  · intro hw hlimit
    rw [name_eq h hlimit, bucketName_shift_of_not_writable hw]
  · obtain ⟨hw, rfl⟩ := (name_eq_ok_iff h).1 hn
    have hshare : ∀ size' minShift', 0 ≤ minShift' →
        (name size' minShift' = .ok (className (leastShift size minShift.toNat)) ↔
          leastShift size' minShift'.toNat = leastShift size minShift.toNat) := by
      intro size' minShift' h'
      rw [name_eq_ok_iff h']
      constructor
      · exact fun hname => (className_injective hname.2).symm
      · intro heq
        rw [heq]
        exact ⟨hw, rfl⟩
    refine ⟨hshare, fun size' hle => ?_⟩
    rw [← leastShift_ne_iff h hle]
    exact not_congr (hshare size' minShift h)

/-- Sizes on both sides of 512 bytes, a smallest class that cannot be written, and one that is no
class. -/
theorem sizeClass_exact_kilo :
    (name 257 3 = .ok "kmalloc-1k" ∧ name 512 9 = .ok "kmalloc-1k" ∧
      name 513 3 ≠ .ok "kmalloc-1k") ∧
    name 1 20000 = .error .unwritable ∧ name 257 (-1) = .error .negativeShift := by
  refine ⟨?_, ?_, (sizeClass_exact 257 (-1)).1 (by decide)⟩
  · obtain ⟨k, -, hleast, hname, -, hshare⟩ := (sizeClass_exact 257 3).2 (by decide)
    have hnine : IsLeast {k : Nat | (3 : Int) ≤ k ∧ (257 : Int) ≤ 2 ^ k} 9 :=
      ⟨⟨by decide, by decide⟩, fun j hj => Nat.le_of_not_lt fun hlt => by
        have := pow_le_pow_right₀ (one_le_two (α := Int)) (Nat.le_of_lt_succ hlt)
        exact absurd (Int.le_trans hj.2 this) (by decide)⟩
    obtain rfl := hleast.unique hnine
    have hw : Writable 9 := Nat.lt_of_lt_of_le (by decide) (eight_thousand_le (by decide))
    have hsmall : name 257 3 = .ok "kmalloc-1k" := (hname _).2 ⟨hw, rfl⟩
    have hclass : leastShift 512 (Int.toNat 9) = 9 := by
      rw [leastShift]
      rfl
    exact ⟨hsmall, ((hshare _ hsmall).1 512 9 (by decide)).2 hclass,
      ((hshare _ hsmall).2 513 (by decide)).2 ⟨9, by decide, by decide, by decide⟩⟩
  · obtain ⟨k, -, hleast, -, hunnamed, -⟩ := (sizeClass_exact 1 20000).2 (by decide)
    refine hunnamed (fun hw => ?_) (by decide)
    have hdigits : 4 * Text.Numeral.maxDigits ≤ k :=
      Nat.le_trans (by decide) (Int.ofNat_le.1 hleast.1.1)
    have hlong := ten_pow_le_shift hdigits
    rw [Nat.one_shiftLeft] at hlong
    exact absurd hw (Nat.not_lt.2 hlong)

/-- No bytes and one byte have one class here, and no name. -/
theorem sizeClass_unnamed :
    leastShift 0 20000 = leastShift 1 20000 ∧
      ¬ ∃ n, name 0 20000 = .ok n ∧ name 1 20000 = .ok n := by
  have hpos : 1 ≤ 1 <<< 20000 := shift_pos 20000
  refine ⟨?_, fun ⟨n, h, _⟩ => by cases h⟩
  rw [leastShift, if_neg (by omega), leastShift, if_neg (by omega)]

end KernelObjects.SizeClass
