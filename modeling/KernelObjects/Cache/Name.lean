import KernelObjects.Program.Text
import KernelObjects.Settings

/-!
# The name of a dedicated cache

An allocation call such as `kmem_cache_alloc(foo_cachep, …)` names its cache through a global.
Somewhere the result of a creation call is stored into that global, and the first argument of the
creation call leads to a constant character array: the name of the cache.

The way is walked step by step. Each step takes one kind of node and breaks on any other; the
break says where and why. A start that is no call, or a constant expression without operands, is a
fault of another kind.
-/
namespace KernelObjects.CacheName

/-- Whether the characters of one text stand next to each other in another. -/
def occursIn (sub : List Char) : List Char → Bool
  | [] => sub.isEmpty
  | c :: cs => sub.isPrefixOf (c :: cs) || occursIn sub cs

variable (P : Program) (s : Settings)

/-- Breaks the chain at a node. -/
def stopAt {α : Type} (cause : BreakCause) (node : ValueId) : Except Fault α :=
  .error (.brokenChain ⟨cause, node⟩)

/-! ## From the allocation call to the global that holds the cache -/

/-- The arguments of a call. -/
def callArgs (v : ValueId) : Except Fault (List ValueId) :=
  (orWrongKind (P.call? v)).map Prod.snd

/-- The address that a load reads; any other value is taken as it is. -/
def throughLoad (v : ValueId) : ValueId :=
  match P.instr? v with
  | some (.load source) => source
  | _ => v

/-- The value under a constant bitcast; any other value is taken as it is. -/
def throughBitcast (v : ValueId) : Except Fault ValueId :=
  match (P.value v).kind with
  | .expr "bitcast" operands _ =>
    match operands with
    | inner :: _ => .ok inner
    | [] => .error .outOfRange
  | _ => .ok v

/-- Whether a global of this type can hold a cache. An opaque pointer can; otherwise the struct
under pointers and arrays has to be the cache struct. -/
def holdsCache : Ty → Bool
  | .ptr .unknown _ => true
  | t =>
    match t.underlyingStruct? with
    | some st => (P.structs.get st).baseName = s.cacheStruct
    | none => false

/-- The global that holds the cache of an allocation call. -/
def handle (call : ValueId) : Except Fault ValueId :=
  match callArgs P call with
  | .error e => .error e
  | .ok [] => stopAt .noArguments call
  | .ok (arg :: _) =>
    match throughBitcast P (throughLoad P arg) with
    | .error e => .error e
    | .ok v =>
      match P.global? v with
      | none => stopAt .handleNotGlobal v
      | some g =>
        if holdsCache P s g.type then .ok v
        else stopAt (.notCacheHandle (Program.globalRef (P.value v).name) s.cacheStruct) v

/-! ## From that global to the creation calls -/

/-- The creation call whose result a user of the global stores into it. -/
def creationCall? (handle user : ValueId) : Option ValueId :=
  match P.instr? user with
  | some (.store v dest) =>
    if dest = handle then
      match P.calledFunction? v with
      | some f => if occursIn s.cacheCreator.toList (P.value f).name.toList then some v else none
      | none => none
    else none
  | _ => none

/-- The creation calls whose results are stored into a global, in the order of the stores. -/
def creationCalls (handle : ValueId) : List ValueId :=
  (P.value handle).users.filterMap (creationCall? P s handle)

/-! ## From a creation call to the name -/

/-- The global that a name argument stands for. -/
def nameGlobal (arg : ValueId) : Except Fault ValueId :=
  match (P.value arg).kind with
  | .global _ => .ok arg
  | .expr opcode operands inBounds =>
    if opcode = "getelementptr" ∧ inBounds then
      match operands with
      | base :: _ => .ok base
      | [] => .error .outOfRange
    else stopAt .nameNotInBounds arg
  | _ => stopAt .nameNotConstant arg

/-- The initial value of a constant global. -/
def constantInit (v : ValueId) : Except Fault ValueId :=
  match P.global? v with
  | none => stopAt .baseNotGlobal v
  | some g =>
    match g.constant, g.init with
    | true, some init => .ok init
    | _, _ => stopAt (.notConstantGlobal (Program.globalRef (P.value v).name)) v

/-- The text of a character array, up to its first zero. -/
def characters (v : ValueId) : Except Fault (List UInt8) :=
  match (P.value v).kind with
  | .data bytes => if (P.value v).isCharArray then .ok (cString bytes) else stopAt .notCharacters v
  | _ => stopAt .notCharacters v

/-- The name that a creation call gives its cache. -/
def ofCreation (call : ValueId) : Except Fault (List UInt8) :=
  match callArgs P call with
  | .error e => .error e
  | .ok [] => stopAt .creationWithoutArguments call
  | .ok (arg :: _) => do
    let base ← nameGlobal P arg
    let init ← constantInit P base
    characters P init

/-! ## The whole way -/

/-- The name given by the first creation call that leads to one. Without such a call the last
break is the reason; any other fault ends the search. -/
def ofCreations (failure : ChainBreak) : List ValueId → Except Fault (List UInt8)
  | [] => .error (.brokenChain failure)
  | call :: rest =>
    match ofCreation P call with
    | .ok n => .ok n
    | .error (.brokenChain b) => ofCreations b rest
    | .error e => .error e

/-- The name of the cache that an allocation call draws from. -/
def resolve (call : ValueId) : Except Fault (List UInt8) :=
  match handle P s call with
  | .error e => .error e
  | .ok g => ofCreations P ⟨.noCreation s.cacheCreator, g⟩ (creationCalls P s g)

end KernelObjects.CacheName
