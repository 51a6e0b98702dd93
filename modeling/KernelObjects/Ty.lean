import KernelObjects.Fault

/-!
# Types

The types of a program: integers, pointers, arrays, functions and structs. A type may be unknown,
as a whole or in a part; a pointer to something unknown is an opaque pointer. All but structs are
equal when they are built alike; a struct is equal to itself only.

Results:
* `same_iff`: the structural comparison decides equality.
* `stripArrays_stripArrays`, `stripArrays_ne_array`: stripping leaves no array outside.
-/
namespace KernelObjects

/-- A type. Sizes and counts are unbounded integers, negative ones included. -/
inductive Ty where
  | unknown
  | void
  | int (bits : Int)
  | ptr (pointee : Ty) (space : Int)
  | array (elem : Ty) (count : Int)
  | func (ret : Ty) (params : List Ty) (vararg : Bool)
  | struct (id : StructId)
  deriving Inhabited, Repr

namespace Ty

/-! ## Equality -/

mutual

/-- Whether two types are built alike. -/
def same : Ty → Ty → Bool
  | .unknown, .unknown => true
  | .void, .void => true
  | .int m, .int n => m == n
  | .ptr a s, .ptr b t => same a b && s == t
  | .array a m, .array b n => same a b && m == n
  | .func a ps v, .func b qs w => same a b && sameAll ps qs && v == w
  | .struct s, .struct t => s == t
  | _, _ => false

/-- Whether two lists of types are built alike. -/
def sameAll : List Ty → List Ty → Bool
  | [], [] => true
  | a :: as, b :: bs => same a b && sameAll as bs
  | _, _ => false

end

mutual

theorem same_self : ∀ a : Ty, same a a = true
  | .unknown | .void => rfl
  | .int _ | .struct _ => by simp [same]
  | .ptr a _ | .array a _ => by simp [same, same_self a]
  | .func a ps _ => by simp [same, same_self a, sameAll_self ps]

theorem sameAll_self : ∀ as : List Ty, sameAll as as = true
  | [] => rfl
  | a :: as => by simp [sameAll, same_self a, sameAll_self as]

end

mutual

theorem eq_of_same : ∀ a b : Ty, same a b = true → a = b
  | .unknown, b, h => by cases b <;> simp_all [same]
  | .void, b, h => by cases b <;> simp_all [same]
  | .int _, b, h => by cases b <;> simp_all [same]
  | .struct _, b, h => by cases b <;> simp_all [same]
  | .ptr a _, b, h => by
    cases b <;> simp [same] at h
    simp [eq_of_same a _ h.1, h.2]
  | .array a _, b, h => by
    cases b <;> simp [same] at h
    simp [eq_of_same a _ h.1, h.2]
  | .func a ps _, b, h => by
    cases b <;> simp [same] at h
    simp [eq_of_same a _ h.1.1, eq_of_sameAll ps _ h.1.2, h.2]

theorem eq_of_sameAll : ∀ as bs : List Ty, sameAll as bs = true → as = bs
  | [], bs, h => by cases bs <;> simp_all [sameAll]
  | a :: as, bs, h => by
    cases bs <;> simp [sameAll] at h
    simp [eq_of_same a _ h.1, eq_of_sameAll as _ h.2]

end

theorem same_iff (a b : Ty) : same a b = true ↔ a = b :=
  ⟨eq_of_same a b, fun h => h ▸ same_self a⟩

instance : DecidableEq Ty := fun a b => decidable_of_iff _ (same_iff a b)

/-! ## Shape -/

/-- The type, or another one where it is unknown. -/
def or : Ty → Ty → Ty
  | .unknown, other => other
  | t, _ => t

/-- The pointer to a type in the default address space. -/
def pointerTo (t : Ty) : Ty :=
  .ptr t 0

/-- Whether objects of the type have a size; of an unknown type that cannot be told. -/
def isSized : Ty → Except Fault Bool
  | .unknown => .error .unknownType
  | .void | .func .. => .ok false
  | _ => .ok true

def isPointer : Ty → Bool
  | .ptr .. => true
  | _ => false

def isArray : Ty → Bool
  | .array .. => true
  | _ => false

/-- What a pointer points to; nothing else is known to point to anything. -/
def pointee : Ty → Ty
  | .ptr t _ => t
  | _ => .unknown

/-- A pointer whose pointee is a function. -/
def isFunctionPointer : Ty → Bool
  | .ptr (.func ..) _ => true
  | _ => false

/-- The element type under all array dimensions. -/
def stripArrays : Ty → Ty
  | .array e _ => e.stripArrays
  | t => t

/-- The struct under all pointers and array dimensions. -/
def underlyingStruct? : Ty → Option StructId
  | .struct s => some s
  | .ptr t _ => t.underlyingStruct?
  | .array e _ => e.underlyingStruct?
  | _ => none

/-- The struct that an object of the type holds by value, under all array dimensions. -/
def embedded? (t : Ty) : Option StructId :=
  match t.stripArrays with
  | .struct s => some s
  | _ => none

/-- What holds of every type that is no array, and of an array if it holds of its elements, holds of
every type. -/
@[elab_as_elim]
theorem array_induction {motive : Ty → Prop} (array : ∀ e n, motive e → motive (.array e n))
    (other : ∀ t, t.isArray = false → motive t) : ∀ t, motive t
  | .array e n => array e n (array_induction array other e)
  | .unknown | .void | .int _ | .ptr .. | .func .. | .struct _ => other _ rfl

theorem stripArrays_ne_array (t e : Ty) (n : Int) : t.stripArrays ≠ .array e n := by
  fun_induction stripArrays t with
  | case1 _ _ ih => exact ih
  | case2 t h => exact fun he => h e n he

theorem stripArrays_stripArrays (t : Ty) : t.stripArrays.stripArrays = t.stripArrays := by
  fun_induction stripArrays t with
  | case1 _ _ ih => exact ih
  | case2 t h => rw [stripArrays.eq_2 _ h]

/-! ## Text -/

mutual

/-- The text of a type, given the text of every struct. What is written first fails first: the
count of an array before its elements, the parameters of a function before its result. -/
def text (structText : StructId → Except Fault String) : Ty → Except Fault String
  | .unknown => return "None"
  | .void => return "void"
  | .int bits => do return "i" ++ (← numberText bits)
  | .ptr .unknown _ => return "ptr"
  | .ptr t _ => do return (← t.text structText) ++ "*"
  | .array e n => do
    let count ← numberText n
    let elem ← e.text structText
    return "[" ++ count ++ " x " ++ elem ++ "]"
  | .func r ps v => do
    let params ← texts structText ps
    let ret ← r.text structText
    return ret ++ " (" ++ String.intercalate ", " (params ++ if v then ["..."] else []) ++ ")"
  | .struct s => structText s

/-- The texts of a list of types. -/
def texts (structText : StructId → Except Fault String) : List Ty → Except Fault (List String)
  | [] => return []
  | t :: ts => do
    let first ← t.text structText
    let rest ← texts structText ts
    return first :: rest

end

end Ty

end KernelObjects
