import KernelObjects.Ident
import KernelObjects.Text.Numeral

/-!
# Faults

Every way in which an operation can fail, by cause, and the wording of those that have one.

* A fault of the *contract* is a caller's mistake: a type that cannot be laid out or flattened, an
  index outside a field table, a site recorded twice, a change to a finished table.
* A *broken chain* says where the way from an allocation call to the name of its cache ended.
* The rest has no wording: an index outside a sequence, a missing descriptor, a numeral or code
  that denotes nothing, a number too large to be written, kept or addressed, an alignment of zero,
  a value or a type of the wrong kind, a question without end.

A fault is worded before it is raised. If what it is about cannot be written, it gives way to the
fault of writing that.
-/
namespace KernelObjects

/-- What cannot be done with a struct that has no body. -/
inductive OpaqueAction where
  | layOut
  | flatten
  | queryContainers
  deriving DecidableEq, Repr

def OpaqueAction.text : OpaqueAction → String
  | .layOut => "lay out"
  | .flatten => "flatten"
  | .queryContainers => "query containers of"

/-- The two ways to number the fields of a descriptor. -/
inductive FieldNumbering where
  | expanded
  | declared
  deriving DecidableEq, Repr

def FieldNumbering.text : FieldNumbering → String
  | .expanded => "field"
  | .declared => "original field"

/-! ## Broken chains -/

/-- The steps from an allocation call to the name of its cache. -/
inductive ChainStage where
  | handle        -- allocation call to the global that holds the cache
  | global        -- that global to the creation calls stored into it
  | createCall    -- creation call to its name argument
  | nameExpr      -- name argument to the global that holds the text
  | nameGlobal    -- that global to its initial value
  | charArray     -- initial value to its characters
  deriving DecidableEq, Repr

def ChainStage.text : ChainStage → String
  | .handle => "handle"
  | .global => "global"
  | .createCall => "create_call"
  | .nameExpr => "name_expr"
  | .nameGlobal => "name_global"
  | .charArray => "char_array"

/-- Why a chain broke. -/
inductive BreakCause where
  | noArguments
  | handleNotGlobal
  | notCacheHandle (global cacheStruct : String)
  | noCreation (creator : String)
  | creationWithoutArguments
  | nameNotConstant
  | nameNotInBounds
  | baseNotGlobal
  | notConstantGlobal (global : String)
  | notCharacters
  deriving DecidableEq, Repr

/-- The stage at which each cause arises. -/
def BreakCause.stage : BreakCause → ChainStage
  | .noArguments | .handleNotGlobal | .notCacheHandle .. => .handle
  | .noCreation _ => .global
  | .creationWithoutArguments => .createCall
  | .nameNotConstant | .nameNotInBounds => .nameExpr
  | .baseNotGlobal | .notConstantGlobal _ => .nameGlobal
  | .notCharacters => .charArray

def BreakCause.reason : BreakCause → String
  | .noArguments => "allocation call has no arguments"
  | .handleNotGlobal => "cache handle is not a module global"
  | .notCacheHandle global cacheStruct => s!"global {global} is not a {cacheStruct} handle"
  | .noCreation creator => s!"no store of a {creator} result"
  | .creationWithoutArguments => "creation call has no arguments"
  | .nameNotConstant => "name is not a constant expression"
  | .nameNotInBounds => "name is not an in-bounds constant GEP"
  | .baseNotGlobal => "GEP base is not a global"
  | .notConstantGlobal global => s!"{global} is not a constant global"
  | .notCharacters => "initializer is not a character array"

/-- Where and why a chain broke. -/
structure ChainBreak where
  cause : BreakCause
  node : ValueId
  deriving DecidableEq, Repr

def ChainBreak.message (b : ChainBreak) : String :=
  s!"[{b.cause.stage.text}] {b.cause.reason}"

/-! ## All faults -/

/-- The cause of a failure. Types and values are given by their text. -/
inductive Fault where
  | noAlignment (type : String)
  | notSized (type : String)
  | opaqueType (name : String) (action : OpaqueAction)
  | embedsItself (type : String)
  | definedNowhere (name : String)
  | sourceNotStruct (value : String)
  | sourceNotConstant (value : String)
  | fieldIndex (numbering : FieldNumbering) (index : Int) (size : Nat)
  | duplicateSite (offset : Int) (value : String)
  | tableFinished (name : String)
  | brokenChain (chainBreak : ChainBreak)
  | outOfRange
  | missingDescriptor
  | unreadable            -- a numeral or a code that denotes nothing
  | unwritable            -- a number of too many digits
  | unstorable            -- a number that does not fit into memory
  | unaddressable         -- a number that no memory could hold
  | negativeShift
  | zeroAlignment
  | unknownType           -- asked for its size
  | wrongKind             -- a value or a type that lacks what is asked of it
  | notListed             -- something without members asked for them
  | endless               -- a way that leads back to where it started
  deriving DecidableEq, Repr

/-- The wording of a fault, if it has one. -/
def Fault.message : Fault → Option String
  | .noAlignment type => some s!"type {type} has no alignment"
  | .notSized type => some s!"type {type} is not sized"
  | .opaqueType name action => some s!"cannot {action.text} opaque type '{name}'"
  | .embedsItself type => some s!"type {type} embeds itself by value"
  | .definedNowhere name => some s!"type {name} is not defined by any analysed module"
  | .sourceNotStruct value => some s!"comparison source {value} does not index a struct"
  | .sourceNotConstant value => some s!"GEP index of {value} is not constant"
  | .fieldIndex numbering index size =>
    some s!"{numbering.text} index {index} out of range [0, {size})"
  | .duplicateSite offset value =>
    some s!"site already recorded at offset {offset} for {value}; sites are write-once"
  | .tableFinished name => some s!"field table of {name} is finalized"
  | .brokenChain b => some b.message
  | .outOfRange | .missingDescriptor | .unreadable | .unwritable | .unstorable | .unaddressable
  | .negativeShift | .zeroAlignment | .unknownType | .wrongKind | .notListed | .endless => none

/-- The text of a number, as a part of a larger text. -/
def numberText (n : Int) : Except Fault String :=
  match Text.Numeral.write? n with
  | some s => .ok s
  | none => .error .unwritable

/-- The fault about what has that text, or else the fault of writing the text. -/
def Fault.worded (fault : String → Fault) : Except Fault String → Fault
  | .ok text => fault text
  | .error e => e

@[simp]
theorem Fault.worded_ok (fault : String → Fault) (text : String) :
    worded fault (.ok text) = fault text := rfl

@[simp]
theorem Fault.worded_error (fault : String → Fault) (e : Fault) :
    worded fault (.error e) = e := rfl

/-- A thing of the kind asked for; without one, what was given is of the wrong kind. -/
def orWrongKind {α : Type} : Option α → Except Fault α
  | some a => .ok a
  | none => .error .wrongKind

end KernelObjects
