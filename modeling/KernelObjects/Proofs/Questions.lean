import KernelObjects.Proofs.Memo

/-!
# Questions to a layout

A client asks a layout how a struct is laid out, or how a type is aligned and how many bytes it
takes. Each question has a plain answer, which looks at the target and the bodies and remembers
nothing.

Results:
* `LayoutQuestion.answers`: with a sound memo, every question gets its plain answer.
* `grows_setBody`: giving a body to an opaque struct makes structs grow, so memos stay sound.
-/
namespace KernelObjects

/-! ## Bodies -/

theorem Structs.grows_setBody {S : Structs} {st : StructId} (h : (S.get st).isOpaque = true)
    (es : List Ty) (packed : Bool) : S.Grows (S.setBody st es packed) := by
  have hsize : (S.setBody st es packed).size = S.size := Array.size_modify
  refine ⟨Nat.le_of_eq hsize.symm, fun a ha => ?_⟩
  have hne : st.idx ≠ a.idx := by
    intro he
    obtain rfl : st = a := by cases st; cases a; simp_all
    rw [h] at ha
    cases ha
  simp only [setBody, get, Array.getD_eq_getD_getElem?, Array.getElem?_modify, if_neg hne]

/-! ## Questions -/

/-- What a layout can be asked. -/
inductive LayoutQuestion where
  | layout (st : StructId)
  | alignment (type : Ty)
  | storeSize (type : Ty)
  | allocSize (type : Ty)
  deriving DecidableEq, Repr

namespace LayoutQuestion

/-- What the answer consists of. -/
abbrev Answer : LayoutQuestion → Type
  | .layout _ => StructLayout
  | .alignment _ | .storeSize _ | .allocSize _ => Int

/-- The question, put to a layout with its memo. -/
def ask (t : Target) (S : Structs) : (q : LayoutQuestion) → LayoutQuery q.Answer
  | .layout st => structLayout t S st
  | .alignment type => KernelObjects.alignment t S type
  | .storeSize type => KernelObjects.storeSize t S type
  | .allocSize type => KernelObjects.allocSize t S type

/-- The answer without a memo. -/
def plain (t : Target) (S : Structs) : (q : LayoutQuestion) → Except Fault q.Answer
  | .layout st => S.layoutOn t st
  | .alignment type => alignmentWith t S (S.layoutOn t) type
  | .storeSize (.int bits) => .ok (Target.intBytes bits)
  | .storeSize (.ptr ..) => .ok t.pointerSize
  | .storeSize type | .allocSize type => S.sizeOn t type

/-- The struct whose body the answer depends on. -/
def struct? : LayoutQuestion → Option StructId
  | .layout st => some st
  | .alignment type | .storeSize type | .allocSize type => type.embedded?

variable {t : Target} {S : Structs}

theorem answers (q : LayoutQuestion) (hf : ∀ st, q.struct? = some st → S.Founded st) :
    Answers t S (q.ask t S) (q.plain t S) := by
  cases q with
  | layout st => exact structLayout_answers (hf st rfl)
  | alignment type => exact .alignmentWith fun b hb => structLayout_answers (hf b hb)
  | allocSize type => exact allocSize_answers hf
  | storeSize type =>
    cases type with
    | int bits => exact .pure _
    | ptr _ _ => exact .pure _
    | _ => exact allocSize_answers hf

end LayoutQuestion

end KernelObjects
