import KernelObjects.Program.Basic

/-!
# The text of values

A value has a short form, in which it appears as an operand, and a full form. Neither can be written
if a number in it has too many digits, or if there is no end to the text of a type.
-/
namespace KernelObjects.Program

/-- Bytes between quotes, as far as they are text; a zero byte is written out. -/
def dataRef (bytes : List UInt8) : String :=
  let chars := (Text.Utf8.lossy bytes).toList.flatMap fun c =>
    if c = '\x00' then ['\\', '0', '0'] else [c]
  "c\"" ++ String.ofList chars ++ "\""

/-- The short form of a named value. -/
def localRef (name : String) : String :=
  if name.isEmpty then "%<unnamed>" else "%" ++ name

/-- The short form of a global or of a function. -/
def globalRef (name : String) : String :=
  "@" ++ name

/-- The short form of a value. The first argument bounds how deep constant expressions are
nested; an operand is older than its expression, so the position of a value is bound enough. -/
def refTo (P : Program) : Nat → ValueId → Except Fault String
  | 0, _ => .error .endless
  | n + 1, v =>
    let x := P.value v
    match x.kind with
    | .int k => numberText k
    | .null => return "null"
    | .data bytes => return dataRef bytes
    | .expr opcode operands _ => do
      let operands ← operands.mapM (P.refTo n)
      return opcode ++ " (" ++ String.intercalate ", " operands ++ ")"
    | .global .. | .function .. => return globalRef x.name
    | .plain | .arg .. | .block .. | .instr .. => return localRef x.name

/-- The short form of a value. -/
def ref (P : Program) (v : ValueId) : Except Fault String :=
  P.refTo (v.idx + 1) v

/-- The short forms of values, between commas. -/
def refs (P : Program) (vs : List ValueId) : Except Fault String := do
  return String.intercalate ", " (← vs.mapM P.ref)

/-- An instruction without its name. The arguments of a call are written before its type. -/
def body (P : Program) (type : Ty) : Instr → Except Fault String
  | .call callee args => do
    let args ← P.refs args
    return s!"call {← P.structs.text type} {← P.ref callee}({args})"
  | .load source => do return s!"load {← P.structs.text type}, {← P.ref source}"
  | .icmp p lhs rhs => do return s!"icmp {p.text} {← P.ref lhs}, {← P.ref rhs}"
  | .bitcast v => do return s!"bitcast {← P.ref v} to {← P.structs.text type}"
  | .alloca t => do return s!"alloca {← P.structs.text t}"
  | i@(.store ..) | i@(.gep ..) | i@(.other _) => do return s!"{i.opcode} {← P.refs i.operands}"

/-- The full form of a value. The initial value of a global is written before its type. -/
def text (P : Program) (v : ValueId) : Except Fault String :=
  let x := P.value v
  match x.kind with
  | .int k => do return s!"{← P.structs.text x.type} {← numberText k}"
  | .null => do return s!"{← P.structs.text x.type} null"
  | .data bytes => do return s!"{← P.structs.text x.type} {dataRef bytes}"
  | .global g => do
    let sort := if g.constant then "constant" else "global"
    let start ← match g.init with
      | some i => do pure (" " ++ (← P.ref i))
      | none => pure ""
    return s!"{globalRef x.name} = {sort} {← P.structs.text g.type}{start}"
  | .function f => do
    let sort := if f.blocks.isEmpty then "declare" else "define"
    return s!"{sort} {← P.structs.text f.signature.ret} {globalRef x.name}"
  | .arg .. => do return s!"{← P.structs.text x.type} %{x.name}"
  | .instr i _ _ => do
    let body ← P.body x.type i
    return if x.name.isEmpty || x.type = .void then body else s!"%{x.name} = {body}"
  | .plain | .expr .. | .block .. => P.ref v

/-- The full form of a value, and the place of an instruction in the source where it is known. -/
def located (P : Program) (v : ValueId) : Except Fault String := do
  let text ← P.text v
  match (P.value v).kind with
  | .instr _ (some loc) _ => return s!"{text}  {← loc.text}"
  | _ => return text

end KernelObjects.Program
