import KernelObjects.Fault
import KernelObjects.Ty

/-!
# Values

What a program consists of, types apart: constants, globals, functions, blocks and instructions.
A value refers to other values by their identity. Its *operands* are the values it is computed
from; every value lists its *users*, one entry for each operand position that it fills.
-/
namespace KernelObjects

/-- A place in a source text. -/
structure Loc where
  file : String
  line : Int
  column : Int := 0                     -- zero: not known
  deriving DecidableEq, Inhabited, Repr

def Loc.text (l : Loc) : Except Fault String := do
  let line ← numberText l.line
  if l.column = 0 then return s!"{l.file}:{line}"
  else return s!"{l.file}:{line}:{← numberText l.column}"

/-- Integer comparisons; `u` is for unsigned, `s` for signed. -/
inductive Predicate where
  | eq
  | ne
  | ugt
  | uge
  | ult
  | ule
  | sgt
  | sge
  | slt
  | sle
  deriving DecidableEq, Inhabited, Repr

namespace Predicate

def text : Predicate → String
  | .eq => "eq"
  | .ne => "ne"
  | .ugt => "ugt"
  | .uge => "uge"
  | .ult => "ult"
  | .ule => "ule"
  | .sgt => "sgt"
  | .sge => "sge"
  | .slt => "slt"
  | .sle => "sle"

def all : List Predicate :=
  [.eq, .ne, .ugt, .uge, .ult, .ule, .sgt, .sge, .slt, .sle]

/-- The comparison with this text. -/
def ofText? (s : String) : Option Predicate :=
  all.find? fun p => p.text == s

/-- The comparison with this text, or a fault. -/
def ofText (s : String) : Except Fault Predicate :=
  match ofText? s with
  | some p => .ok p
  | none => .error .unreadable

theorem ofText?_text (p : Predicate) : ofText? p.text = some p := by
  cases p <;> decide

end Predicate

/-- The instructions. -/
inductive Instr where
  | call (callee : ValueId) (args : List ValueId)
  | load (source : ValueId)
  | store (value dest : ValueId)
  | gep (source : Ty) (base : ValueId) (indices : List ValueId)
  | icmp (predicate : Predicate) (lhs rhs : ValueId)
  | bitcast (value : ValueId)
  | alloca (type : Ty)
  | other (operands : List ValueId)
  deriving DecidableEq, Inhabited, Repr

namespace Instr

def opcode : Instr → String
  | .call .. => "call"
  | .load _ => "load"
  | .store .. => "store"
  | .gep .. => "getelementptr"
  | .icmp .. => "icmp"
  | .bitcast _ => "bitcast"
  | .alloca _ => "alloca"
  | .other _ => "instruction"

/-- The values that an instruction is computed from; the callee of a call comes last. -/
def operands : Instr → List ValueId
  | .call callee args => args ++ [callee]
  | .load source => [source]
  | .store value dest => [value, dest]
  | .gep _ base indices => base :: indices
  | .icmp _ lhs rhs => [lhs, rhs]
  | .bitcast value => [value]
  | .alloca _ => []
  | .other operands => operands

end Instr

/-- The type of a function. -/
structure Signature where
  ret : Ty
  params : List Ty := []
  vararg : Bool := false
  deriving DecidableEq, Inhabited, Repr

def Signature.ty (s : Signature) : Ty :=
  .func s.ret s.params s.vararg

/-- The signature that a function type spells out. -/
def Ty.signature : Ty → Except Fault Signature
  | .func ret params vararg => .ok ⟨ret, params, vararg⟩
  | _ => .error .wrongKind

/-- A global variable. -/
structure GlobalDef where
  type : Ty                             -- of the variable itself, not of its address
  init : Option ValueId := none
  constant : Bool := false
  home : Option ModuleId := none
  deriving DecidableEq, Inhabited, Repr

/-- A function; without blocks it is only declared. -/
structure FunctionDef where
  signature : Signature
  args : List ValueId := []
  blocks : List ValueId := []
  home : Option ModuleId := none
  deriving DecidableEq, Inhabited, Repr

/-- What a value is. -/
inductive ValueKind where
  | plain                                                   -- known by name and type only
  | int (value : Int)
  | null
  | data (bytes : List UInt8)
  | expr (opcode : String) (operands : List ValueId) (inBounds : Bool)
  | global (g : GlobalDef)
  | function (f : FunctionDef)
  | arg (owner : ValueId) (index : Nat)
  | block (owner : Option ValueId) (members : List ValueId)
  | instr (i : Instr) (loc : Option Loc) (parent : Option ValueId)
  deriving DecidableEq, Inhabited, Repr

/-- A value. -/
structure Value where
  type : Ty := .unknown
  name : String := ""
  kind : ValueKind := .plain
  users : List ValueId := []
  deriving DecidableEq, Inhabited, Repr

namespace Value

/-- The values that a value is computed from. The initial value of a global is none of them. -/
def operands (v : Value) : List ValueId :=
  match v.kind with
  | .expr _ operands _ => operands
  | .instr i _ _ => i.operands
  | _ => []

def isInstr (v : Value) : Bool :=
  match v.kind with
  | .instr .. => true
  | _ => false

/-- A constant address computation that stays within the bounds of the types that it indexes. -/
def isInBoundsGep (v : Value) : Bool :=
  match v.kind with
  | .expr opcode _ inBounds => opcode == "getelementptr" && inBounds
  | _ => false

/-- A character array: constant data whose elements are bytes. -/
def isCharArray (v : Value) : Bool :=
  match v.kind, v.type with
  | .data _, .array (.int 8) _ => true
  | _, _ => false

end Value

/-- The bytes before the first zero. -/
def cString (bytes : List UInt8) : List UInt8 :=
  bytes.takeWhile (· != 0)

end KernelObjects
