import KernelObjects.Cache.Name
import KernelObjects.Cache.SizeClass
import KernelObjects.Log

/-!
# The cache behind a type

The cache of a type is told from the calls that allocate it. A call to a cache allocator whose chain
leads to a name settles it; failing that, one call to a general allocator gives the size class;
failing that, nothing is known. A broken chain drops its call only, and is logged; a value that is
no call ends the search.
-/
namespace KernelObjects.CacheName

variable (P : Program) (s : Settings)

/-- The name of the function that a call names; none for a call through a pointer. -/
def calleeName (call : ValueId) : Except Fault (Option String) :=
  (orWrongKind (P.call? call)).map fun _ =>
    (P.calledFunction? call).map fun f => (P.value f).name

/-- Logs a remark about one call. What becomes of a remark that cannot be written is up to who keeps
the log; here it is left out. -/
def remark (message : Except Fault String) : EStateM Fault Log Unit :=
  modify fun log =>
    match message with
    | .ok text => log.emit .debug .cacheNames text
    | .error _ => log

/-- The answer once no call has led to a name. -/
def fallback (generic : Bool) (size : Int) : Except Fault (List UInt8) :=
  if generic then (SizeClass.name size s.minShift).map Text.Utf8.encode else .ok []

/-- Goes through the calls in order. `generic` says whether a general allocator was met. -/
def classifyFrom (size : Int) : Bool → List ValueId → EStateM Fault Log (List UInt8)
  | generic, [] => fun log =>
    match fallback s generic size with
    | .ok n => .ok n log
    | .error e => .error e log
  | generic, call :: rest =>
    match calleeName P call with
    | .error e => throw e
    | .ok none => do
      remark ((P.text call).map fun text => s!"skipping indirect allocation call {text}")
      classifyFrom size generic rest
    | .ok (some callee) =>
      let generic := generic || s.isGenericAllocator callee
      if s.isCacheAllocator callee then
        match resolve P s call with
        | .ok n => pure n
        | .error (.brokenChain b) => do
          remark ((P.text call).map fun text => s!"cache name of '{text}' unresolved: {b.message}")
          classifyFrom size generic rest
        | .error e => throw e
      else classifyFrom size generic rest

/-- The name of the cache behind objects of `size` bytes that these calls allocate; empty if
nothing is known. -/
def classify (calls : List ValueId) (size : Int) : EStateM Fault Log (List UInt8) :=
  classifyFrom P s size false calls

end KernelObjects.CacheName
