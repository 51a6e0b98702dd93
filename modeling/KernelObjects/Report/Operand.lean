import KernelObjects.Program.Text
import KernelObjects.Provenance.Check

/-!
# Comparisons in reports

A comparison is written as descriptions of its operands around a symbol. An operand is described by
its kind and a detail: the struct and field that an address computation leads to, a constant, the
function that was called. The symbol is that of the outcome seen; an asterisk says that both were.
-/
namespace KernelObjects

/-- The symbols of a comparison that holds and of one that does not. -/
def Predicate.symbols : Predicate → String × String
  | .slt | .ult => ("<", ">=")
  | .sgt | .ugt => (">", "<=")
  | .sle | .ule => ("<=", ">")
  | .sge | .uge => (">=", "<")
  | .eq => ("==", "!=")
  | .ne => ("!=", "==")

/-- The symbol of a comparison for the outcomes seen. -/
def Predicate.render (p : Predicate) : Branch → String
  | .taken => " [" ++ p.symbols.1 ++ "] "
  | .notTaken => " [" ++ p.symbols.2 ++ "] "
  | .both => " [" ++ p.symbols.1 ++ "]* "

/-- The symbol for a comparison and an outcome given as text and code. The code has to be one; a
text that names no comparison has no symbol. -/
def renderPredicate (predicate : String) (branch : Int) : Except Fault String := do
  let b ← Branch.ofCode branch
  match Predicate.ofText? predicate with
  | some p => return p.render b
  | none => return ""

namespace Program

/-- The name of the module of an instruction. -/
def instrModuleName (P : Program) (v : ValueId) : Except Fault (Option String) :=
  (P.instrModule v).map fun m => m.map fun m => (P.module m).name

/-- The struct and field that an address computation leads to. -/
def describeGep (P : Program) (v : ValueId) (source : Ty) (indices : List ValueId) :
    Except Fault String :=
  match source with
  | .struct st =>
    match indices[1]?.bind P.intValue? with
    | some n => do
      let name ← scopeName P.structs st (← P.instrModuleName v)
      return s!"<{name}, {← numberText n}>"
    | none => .error (.worded .sourceNotConstant (P.text v))
  | _ => .error (.worded .sourceNotStruct (P.text v))

/-- The function that a call names, or the call itself. -/
def describeCall (P : Program) (v : ValueId) : Except Fault String :=
  match P.calledFunction? v with
  | none => do return s!"<CallInst, {← P.text v}>"
  | some f =>
    let name := (P.value f).name
    if P.isIntrinsic f then return s!"<Intrinsic, {name}>"
    else if name.isEmpty then do return s!"<CallInst, {← P.text v}>"
    else return s!"<CallInst, {name}>"

/-- An operand of a comparison: its kind and a detail. -/
def describe (P : Program) (v : ValueId) : Except Fault String :=
  match (P.value v).kind with
  | .instr (.gep source _ indices) _ _ => P.describeGep v source indices
  | .int n => do return s!"<C, {← numberText n}>"
  | .null => return "<C, null>"
  | .instr (.call ..) _ _ => P.describeCall v
  | .arg .. => do return s!"<Arg, {← P.text v}>"
  | .instr (.bitcast _) _ _ => do return s!"<BitCast, {← P.text v}>"
  | _ => do return s!"<Unknown, {← P.text v}>"

/-- An operand of a comparison between bars. -/
def renderOperand (P : Program) (v : ValueId) : Except Fault String :=
  (P.describe v).map fun d => s!"| {d} |"

/-- A guarded comparison: its left sources, its symbol and its right sources. -/
def renderGuard (P : Program) (p : Predicate) (g : Guard) : Except Fault String := do
  let left ← g.left.mapM P.renderOperand
  let right ← g.right.mapM P.renderOperand
  return String.join (left ++ [p.render g.branch] ++ right)

end Program

end KernelObjects
