import KernelObjects.Layout
import KernelObjects.Program.Value
import KernelObjects.Struct
import KernelObjects.Text.Utf8

/-!
# Programs

The structs, the values and the modules of a program. All three only grow: a value is built from
values that are there already, and building it enters it into the user list of each of its
operands.

Results:
* `operands_construct`: building a value leaves the operands of all others alone.
* `value_construct_users`: and lets their user lists grow at the end only.
-/
namespace KernelObjects

/-- A compilation unit. Its tables are ordered by first definition of a name. -/
structure Module where
  name : String
  layout : LayoutId
  sourceFile : String
  structs : Table String StructId := ∅
  globals : Table String ValueId := ∅
  functions : Table String ValueId := ∅
  deriving Inhabited

def Module.summary (m : Module) : String :=
  s!"Module({m.name}, {m.structs.size} structs, {m.functions.size} functions)"

/-- Whether the module's struct of that name is this very struct. -/
def Module.defines (m : Module) (S : Structs) (st : StructId) : Bool :=
  m.structs.get? (S.get st).name = some st

/-- A program under construction. -/
structure Program where
  structs : Structs := {}
  values : Array Value := #[]
  modules : Array Module := #[]
  deriving Inhabited

namespace Program

def value (P : Program) (v : ValueId) : Value :=
  P.values.getD v.idx {}

def module (P : Program) (m : ModuleId) : Module :=
  P.modules.getD m.idx default

/-- Changes one value in place. -/
def modifyValue (P : Program) (v : ValueId) (f : Value → Value) : Program :=
  { P with values := P.values.modify v.idx f }

/-- Changes one module in place. -/
def modifyModule (P : Program) (m : ModuleId) (f : Module → Module) : Program :=
  { P with modules := P.modules.modify m.idx f }

/-- Enters a user into the list of a value. -/
def addUser (user : ValueId) (values : Array Value) (v : ValueId) : Array Value :=
  values.modify v.idx fun x => { x with users := x.users ++ [user] }

/-- Adds a value and enters it as a user of each of its operands, once for each position. -/
def construct (P : Program) (v : Value) : ValueId × Program :=
  let id : ValueId := ⟨P.values.size⟩
  (id, { P with values := v.operands.foldl (addUser id) (P.values.push v) })

/-! ## What building a value does to the others -/

theorem getElem?_addUser (user : ValueId) (values : Array Value) (v : ValueId) (i : Nat) :
    (addUser user values v)[i]? =
      values[i]?.map fun x => if i = v.idx then { x with users := x.users ++ [user] } else x := by
  unfold addUser
  rw [Array.getElem?_modify]
  by_cases h : v.idx = i
  · simp [h]
  · simp [h, Ne.symm h]

theorem getElem?_foldl_addUser (user : ValueId) (ops : List ValueId) (values : Array Value)
    (i : Nat) :
    (ops.foldl (addUser user) values)[i]? =
      values[i]?.map fun x =>
        { x with users := x.users ++ List.replicate (ops.countP fun o => o.idx = i) user } := by
  induction ops generalizing values with
  | nil => simp
  | cons o os ih =>
    rw [List.foldl_cons, ih, getElem?_addUser, Option.map_map]
    congr 1
    funext x
    by_cases h : i = o.idx
    · subst h
      simp [List.replicate_succ, Function.comp]
    · have h' : ¬ o.idx = i := fun e => h e.symm
      simp [h, h']

/-- After `construct`, an older value has the new one as a user once for each operand position
that it fills, behind the users it had. -/
theorem value_construct_users (P : Program) (v : Value) (u : ValueId) (h : u.idx < P.values.size) :
    (P.construct v).2.value u =
      { P.value u with
        users := (P.value u).users ++
          List.replicate (v.operands.countP fun o => o.idx = u.idx) ⟨P.values.size⟩ } := by
  have h' : P.values[u.idx]? = some P.values[u.idx] := Array.getElem?_eq_getElem h
  simp only [construct, value, Array.getD_eq_getD_getElem?, getElem?_foldl_addUser,
    Array.getElem?_push, Nat.ne_of_lt h, if_false, h']
  rfl

theorem operands_construct (P : Program) (v : Value) (u : ValueId) (h : u.idx < P.values.size) :
    ((P.construct v).2.value u).operands = (P.value u).operands := by
  rw [value_construct_users P v u h]
  rfl

/-! ## Constants and globals -/

def constInt (P : Program) (n : Int) (type : Ty) : ValueId × Program :=
  P.construct { type, kind := .int n }

/-- The null of a pointer type, or of an opaque pointer. -/
def constNull (P : Program) (type : Ty) : ValueId × Program :=
  P.construct { type := type.or (.pointerTo .unknown), kind := .null }

/-- An array with one element for each byte. -/
def constData (P : Program) (bytes : List UInt8) (elem : Ty) : ValueId × Program :=
  P.construct { type := .array elem bytes.length, kind := .data bytes }

/-- The bytes of a text, with a zero at the end if that is asked for. -/
def constString (P : Program) (text : String) (terminated : Bool) : ValueId × Program :=
  P.constData (Text.Utf8.encode text ++ if terminated then [0] else []) (.int 8)

def constExpr (P : Program) (opcode : String) (operands : List ValueId) (type : Ty)
    (inBounds : Bool) : ValueId × Program :=
  P.construct { type, kind := .expr opcode operands inBounds }

/-- Several 64-bit constants, one after the other. -/
def constInts (P : Program) : List Int → List ValueId × Program
  | [] => ([], P)
  | n :: ns =>
    let (v, P) := P.constInt n (.int 64)
    let (vs, P) := P.constInts ns
    (v :: vs, P)

/-- An address computed from a base and constant indices. -/
def constGep (P : Program) (base : ValueId) (indices : List Int) (inBounds : Bool) :
    ValueId × Program :=
  let (vs, P) := P.constInts indices
  P.constExpr "getelementptr" (base :: vs) (.pointerTo (.int 8)) inBounds

def constBitcast (P : Program) (v : ValueId) (type : Ty) : ValueId × Program :=
  P.constExpr "bitcast" [v] type false

/-- A global, entered into its module under its name. -/
def global (P : Program) (name : String) (type : Ty) (init : Option ValueId)
    (constant : Bool) (home : Option ModuleId) : ValueId × Program :=
  let (v, P) := P.construct
    { type := .pointerTo type, name, kind := .global ⟨type, init, constant, home⟩ }
  match home with
  | none => (v, P)
  | some m => (v, P.modifyModule m fun x => { x with globals := x.globals.insert name v })

/-! ## Functions and blocks -/

/-- The argument names: those given, then the position of each further parameter. -/
def argNames (given : List String) (count : Nat) : List String :=
  given ++ (List.range' given.length (count - given.length)).map toString

/-- Adds the arguments of a function, from position `i` on. -/
def addArgs (P : Program) (owner : ValueId) : Nat → List (Ty × String) → List ValueId × Program
  | _, [] => ([], P)
  | i, (type, name) :: rest =>
    let (v, P) := P.construct { type, name, kind := .arg owner i }
    let (vs, P) := P.addArgs owner (i + 1) rest
    (v :: vs, P)

/-- A function without a body, entered into its module under its name. -/
def function (P : Program) (name : String) (signature : Signature) (names : List String)
    (home : Option ModuleId) : ValueId × Program :=
  let (f, P) := P.construct
    { type := .pointerTo signature.ty, name, kind := .function ⟨signature, [], [], home⟩ }
  let params := signature.params.zip (argNames names signature.params.length)
  let (args, P) := P.addArgs f 0 params
  let P := P.modifyValue f fun v => { v with kind := .function ⟨signature, args, [], home⟩ }
  match home with
  | none => (f, P)
  | some m => (f, P.modifyModule m fun x => { x with functions := x.functions.insert name f })

/-- The module's function of that name, declared if there is none. The type matters only then. -/
def declare (P : Program) (m : ModuleId) (name : String) (type : Ty) :
    Except Fault (ValueId × Program) :=
  match (P.module m).functions.get? name with
  | some f => .ok (f, P)
  | none => type.signature.map fun signature => P.function name signature [] (some m)

/-- The function that a value is. -/
def function? (P : Program) (v : ValueId) : Option FunctionDef :=
  match (P.value v).kind with
  | .function f => some f
  | _ => none

/-- The global that a value is. -/
def global? (P : Program) (v : ValueId) : Option GlobalDef :=
  match (P.value v).kind with
  | .global g => some g
  | _ => none

/-- The instruction that a value is. -/
def instr? (P : Program) (v : ValueId) : Option Instr :=
  match (P.value v).kind with
  | .instr i _ _ => some i
  | _ => none

/-- The callee and the arguments of the call that a value is. -/
def call? (P : Program) (v : ValueId) : Option (ValueId × List ValueId) :=
  match P.instr? v with
  | some (.call callee args) => some (callee, args)
  | _ => none

/-- The operands of a constant expression or an instruction; nothing else has any to ask for. -/
def operands? (P : Program) (v : ValueId) : Option (List ValueId) :=
  match (P.value v).kind with
  | .expr .. | .instr .. => some (P.value v).operands
  | _ => none

/-- A block at the end of a function; without a name it is called by its position. -/
def addBlock (P : Program) (f : ValueId) (name : String) : Except Fault (ValueId × Program) :=
  (orWrongKind (P.function? f)).map fun d =>
    let name := if name.isEmpty then s!"bb{d.blocks.length}" else name
    let (b, P) := P.construct { name, kind := .block (some f) [] }
    (b, P.modifyValue f fun v => { v with kind := .function { d with blocks := d.blocks ++ [b] } })

/-- A block outside all functions. -/
def looseBlock (P : Program) (name : String) : ValueId × Program :=
  P.construct { name, kind := .block none [] }

/-- Puts a value at the end of a block; an instruction or a block then belongs to that block. -/
def append (P : Program) (block v : ValueId) : Except Fault Program :=
  let belong (x : Value) : Value :=
    match x.kind with
    | .instr i loc _ => { x with kind := .instr i loc (some block) }
    | .block _ members => { x with kind := .block (some block) members }
    | _ => x
  match (P.value block).kind with
  | .block owner members =>
    let enter (x : Value) : Value := { x with kind := .block owner (members ++ [v]) }
    .ok ((P.modifyValue block enter).modifyValue v belong)
  | _ => .error .wrongKind

/-! ## Instructions -/

/-- The type of a call where none is given: what the called function returns. -/
def callType (P : Program) (callee : ValueId) : Ty :=
  match P.function? callee with
  | some f => f.signature.ret
  | none => .void

/-- The type of a load where none is given: what the address points to. -/
def loadType (P : Program) (source : ValueId) : Ty :=
  (P.value source).type.pointee

/-- The number that a constant integer is. -/
def intValue? (P : Program) (v : ValueId) : Option Int :=
  match (P.value v).kind with
  | .int n => some n
  | _ => none

/-- The type that indices lead to from a type, unknown if they lead nowhere; a struct takes a
constant within its fields. -/
def indexedType (S : Structs) : Ty → List (Option Int) → Ty
  | t, [] => t
  | .struct s, some n :: rest =>
    if 0 ≤ n then
      match (S.get s).elements[n.toNat]? with
      | some t => indexedType S t rest
      | none => .unknown
    else .unknown
  | .array e _, _ :: rest => indexedType S e rest
  | _, _ :: _ => .unknown

/-- The type of an address computation where none is given. The first index moves over whole
objects and does not change the type. -/
def gepType (P : Program) (source : Ty) (indices : List ValueId) : Ty :=
  .pointerTo (indexedType P.structs source (indices.tail.map P.intValue?))

/-- The type of an instruction where none is given; it may be unknown. -/
def naturalType (P : Program) : Instr → Ty
  | .call callee _ => P.callType callee
  | .load source => P.loadType source
  | .store .. => .void
  | .gep source _ indices => P.gepType source indices
  | .icmp .. => .int 1
  | .alloca type => .pointerTo type
  | .bitcast _ | .other _ => .unknown

/-- Adds an instruction that belongs to no block. -/
def instruction (P : Program) (i : Instr) (type : Ty) (name : String) (loc : Option Loc) :
    ValueId × Program :=
  P.construct { type := type.or (P.naturalType i), name, kind := .instr i loc none }

/-! ## Modules -/

/-- Adds a module; its source file is its name if none is given. -/
def addModule (P : Program) (name : String) (layout : LayoutId) (sourceFile : String) :
    ModuleId × Program :=
  let file := if sourceFile.isEmpty then name else sourceFile
  (⟨P.modules.size⟩, { P with modules := P.modules.push { name, layout, sourceFile := file } })

/-- Adds a struct. -/
def defineStruct (P : Program) (d : StructDef) : StructId × Program :=
  let (st, structs) := P.structs.define d
  (st, { P with structs })

def setBody (P : Program) (st : StructId) (elements : List Ty) (packed : Bool) : Program :=
  { P with structs := P.structs.setBody st elements packed }

/-- Enters a struct into a module under its name. -/
def addStruct (P : Program) (m : ModuleId) (st : StructId) : Program :=
  P.modifyModule m fun x => { x with structs := x.structs.insert (P.structs.get st).name st }

/-- Defines a struct in a module. -/
def createStruct (P : Program) (m : ModuleId) (d : StructDef) : StructId × Program :=
  let (st, P) := P.defineStruct d
  (st, P.addStruct m st)

/-! ## Where a value is -/

/-- The block that an instruction belongs to. -/
def parent? (P : Program) (v : ValueId) : Option ValueId :=
  match (P.value v).kind with
  | .instr _ _ parent => parent
  | _ => none

/-- The function or the block that a block belongs to. -/
def blockOwner? (P : Program) (b : ValueId) : Option ValueId :=
  match (P.value b).kind with
  | .block owner _ => owner
  | _ => none

/-- The values of a block, in order. -/
def blockMembers (P : Program) (b : ValueId) : List ValueId :=
  match (P.value b).kind with
  | .block _ members => members
  | _ => []

/-- The values of a block, in order, for a caller who may have something else. -/
def members (P : Program) (b : ValueId) : Except Fault (List ValueId) :=
  match (P.value b).kind with
  | .block _ members => .ok members
  | _ => .error .notListed

/-- The module of a function, or of the function that a block lies in. The first argument bounds
how deep blocks are nested; it is reached only by a block that lies in itself. -/
def ownerModuleTo (P : Program) : Nat → ValueId → Except Fault (Option ModuleId)
  | 0, _ => .error .endless
  | n + 1, v =>
    match (P.value v).kind with
    | .function f => .ok f.home
    | .block (some owner) _ => P.ownerModuleTo n owner
    | _ => .ok none

/-- The module of a block. -/
def blockModule (P : Program) (b : ValueId) : Except Fault (Option ModuleId) :=
  P.ownerModuleTo (P.values.size + 1) b

/-- What the block of an instruction belongs to: its function, unless blocks are nested. -/
def instrFunction? (P : Program) (v : ValueId) : Option ValueId :=
  (P.parent? v).bind P.blockOwner?

/-- The module of an instruction. -/
def instrModule (P : Program) (v : ValueId) : Except Fault (Option ModuleId) :=
  match P.parent? v with
  | some b => P.blockModule b
  | none => .ok none

/-- The module that a value belongs to. Constants, arguments and plain values belong to none, and
are not asked. -/
def home (P : Program) (v : ValueId) : Except Fault (Option ModuleId) :=
  match (P.value v).kind with
  | .global g => .ok g.home
  | .function f => .ok f.home
  | .block .. => P.blockModule v
  | .instr .. => P.instrModule v
  | .plain | .int _ | .null | .data _ | .expr .. | .arg .. => .error .wrongKind

/-- The function that a call names; none for a call through a pointer. -/
def calledFunction? (P : Program) (v : ValueId) : Option ValueId :=
  match P.call? v with
  | some (callee, _) => if (P.function? callee).isSome then some callee else none
  | none => none

/-- A function that the compiler provides. -/
def isIntrinsic (P : Program) (f : ValueId) : Bool :=
  "llvm.".toList.isPrefixOf (P.value f).name.toList

end Program

/-- The name of a struct throughout a program: its base name, or, for a literal, its text after
the name of its module. -/
def scopeName (S : Structs) (st : StructId) (moduleName : Option String) : Except Fault String :=
  let d := S.get st
  if d.isLiteral then do return moduleName.getD "?" ++ ":" ++ (← S.structText st)
  else return d.baseName

end KernelObjects
