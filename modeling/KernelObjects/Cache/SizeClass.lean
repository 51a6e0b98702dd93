import KernelObjects.Fault
import KernelObjects.Text.Numeral

/-!
# Size classes

The general allocator serves an object from the cache of the least power of two that holds it, and
that is not below the smallest class. The classes of 512 to 4096 bytes are named in kilobytes, each
after a cache of twice its size; all others are named by their number of bytes, as far as it can be
written. A smallest class that is out of reach is refused without a look at the size. How much
memory there is for a number depends on the machine; the limit for that is the one of a single
machine.

Results:
* `lt_of_lt_leastShift`, `le_shift_leastShift`, `le_leastShift`: the exponent is the least one.
* `name_eq`: the class gives the name, also where it is only known to be too long to be written.
-/
namespace KernelObjects.SizeClass

theorem shift_pos (k : Nat) : 0 < 1 <<< k := by
  rw [Nat.one_shiftLeft]
  exact Nat.two_pow_pos k

theorem shift_le_shift {k j : Nat} (h : k ≤ j) : 1 <<< k ≤ 1 <<< j := by
  rw [Nat.one_shiftLeft, Nat.one_shiftLeft]
  exact Nat.pow_le_pow_right (by decide) h

/-- The least exponent from `k` on whose power of two is not below `size`. -/
def leastShift (size : Int) (k : Nat) : Nat :=
  if ((1 <<< k : Nat) : Int) < size then leastShift size (k + 1) else k
termination_by (size - (1 <<< k : Nat)).toNat
decreasing_by
  have := shift_pos k
  rw [Nat.shiftLeft_succ]
  omega

/-- The name of the cache for blocks of `bucket` bytes. -/
def bucketName (bucket : Nat) : Except Fault String :=
  if 4096 ≤ bucket ∧ bucket < 8192 then .ok "kmalloc-8k"
  else if 2048 ≤ bucket ∧ bucket < 4096 then .ok "kmalloc-4k"
  else if 1024 ≤ bucket ∧ bucket < 2048 then .ok "kmalloc-2k"
  else if 512 ≤ bucket ∧ bucket < 1024 then .ok "kmalloc-1k"
  else
    match Text.Numeral.write? bucket with
    | some bytes => .ok ("kmalloc-" ++ bytes)
    | none => .error .unwritable

/-- From this exponent on a power of two cannot be written: it has four bits for each digit that a
numeral may have. -/
def writeLimit : Nat := 4 * Text.Numeral.maxDigits

/-- From this exponent on a power of two is not kept in memory: it takes 16 gigabytes. This is the
limit of one machine, not of the naming rule; another machine keeps more of them, or fewer. -/
def storeLimit : Nat := 1 <<< 37

/-- From this exponent on a power of two has no address: in words of 4 bytes with 30 bits each,
behind a header of 24 bytes, it ends beyond the last of 2 ^ 63 bytes. -/
def addressLimit : Nat := 30 * ((1 <<< 63 - 25) / 4 - 1) + 1

/-- Why no class is looked for from an exponent on. -/
def outOfReach? (minShift : Int) : Option Fault :=
  if minShift < 0 then some .negativeShift
  else if addressLimit ≤ minShift.toNat then some .unaddressable
  else if storeLimit ≤ minShift.toNat then some .unstorable
  else if writeLimit ≤ minShift.toNat then some .unwritable
  else none

/-- The name of the cache for an object of `size` bytes, where `2 ^ minShift` bytes is the smallest
class. -/
def name (size minShift : Int) : Except Fault String :=
  match outOfReach? minShift with
  | some fault => .error fault
  | none => bucketName (1 <<< leastShift size minShift.toNat)

theorem le_leastShift (size : Int) (k : Nat) : k ≤ leastShift size k := by
  fun_induction leastShift size k with
  | case1 k h ih => omega
  | case2 k h => omega

theorem le_shift_leastShift (size : Int) (k : Nat) : size ≤ (1 <<< leastShift size k : Nat) := by
  fun_induction leastShift size k with
  | case1 k h ih => exact ih
  | case2 k h => omega

theorem lt_of_lt_leastShift {size : Int} {k j : Nat} (hk : k ≤ j) (hj : j < leastShift size k) :
    ((1 <<< j : Nat) : Int) < size := by
  fun_induction leastShift size k with
  | case1 k h ih =>
    rcases Nat.eq_or_lt_of_le hk with rfl | hlt
    · exact h
    · exact ih hlt hj
  | case2 k h => omega

/-! ## Classes that cannot be written -/

theorem bucketName_of_le {bucket : Nat} (h : Nat.pow 10 Text.Numeral.maxDigits ≤ bucket)
    (h' : 8192 ≤ bucket) : bucketName bucket = .error .unwritable := by
  have : Text.Numeral.write? bucket = none := by
    rw [Text.Numeral.write?, Int.natAbs_natCast, if_neg (Nat.not_lt.2 h)]
  have h1 : ¬ bucket < 8192 := by omega
  have h2 : ¬ bucket < 4096 := by omega
  have h3 : ¬ bucket < 2048 := by omega
  have h4 : ¬ bucket < 1024 := by omega
  simp only [bucketName, h1, h2, h3, h4, and_false, if_false, this]

theorem ten_pow_le_shift {digits shift : Nat} (h : 4 * digits ≤ shift) :
    Nat.pow 10 digits ≤ 1 <<< shift :=
  calc
    10 ^ digits ≤ (2 ^ 4) ^ digits := Nat.pow_le_pow_left (by decide) digits
    _ = 2 ^ (4 * digits) := (Nat.pow_mul 2 4 digits).symm
    _ = 1 <<< (4 * digits) := (Nat.one_shiftLeft _).symm
    _ ≤ 1 <<< shift := shift_le_shift h

theorem outOfReach?_of_lt {minShift : Int} (h : 0 ≤ minShift) (h' : minShift < storeLimit) :
    outOfReach? minShift = if writeLimit ≤ minShift.toNat then some .unwritable else none := by
  have hs : ¬ storeLimit ≤ minShift.toNat := by omega
  have ha : ¬ addressLimit ≤ minShift.toNat := fun hle =>
    hs (Nat.le_trans (by decide : storeLimit ≤ addressLimit) hle)
  rw [outOfReach?, if_neg (Int.not_lt.2 h), if_neg ha, if_neg hs]

theorem name_eq {size minShift : Int} (h : 0 ≤ minShift) (h' : minShift < storeLimit) :
    name size minShift = bucketName (1 <<< leastShift size minShift.toNat) := by
  rw [name, outOfReach?_of_lt h h']
  by_cases hk : writeLimit ≤ minShift.toNat
  · have hs := Nat.le_trans hk (le_leastShift size minShift.toNat)
    have h13 : 13 ≤ writeLimit := by decide
    have h8k : 1 <<< 13 ≤ 1 <<< leastShift size minShift.toNat :=
      shift_le_shift (Nat.le_trans h13 hs)
    rw [if_pos hk, bucketName_of_le (ten_pow_le_shift hs) h8k]
  · rw [if_neg hk]

end KernelObjects.SizeClass
