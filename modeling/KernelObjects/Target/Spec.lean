import KernelObjects.Fault
import KernelObjects.Target
import KernelObjects.Text.DecimalDigit
import KernelObjects.Text.Numeral
import KernelObjects.Text.Split

/-!
# Layout specifications

A specification is a text of tokens between hyphens; empty tokens do not count. A token is a head
and fields between colons, with numbers in bits:

* `e` or `E`: little or big endian;
* `p:<size>:<align>` or `p0:…`: pointers;
* `i<width>:<align>`: integers of one width;
* `a:<align>`: aggregates.

A later token overrides an earlier one for the same setting. The pointers of other address spaces
are passed over in silence; any other token is ignored, and reported as such.
-/
namespace KernelObjects.Target.Spec

open KernelObjects.Text

/-- What one token sets, in bytes. -/
inductive Setting where
  | endian (little : Bool)
  | pointer (size align : Int)
  | integer (bits align : Int)
  | aggregate (align : Int)
  deriving DecidableEq, Repr

/-- What a token is. -/
inductive Reading where
  | sets (s : Setting)
  | malformed                           -- recognised, but a number cannot be read
  | silent                              -- the pointers of another address space
  | ignored
  deriving DecidableEq, Repr

/-- The tokens of a specification. -/
def tokens (spec : List Char) : List (List Char) :=
  (splitOn '-' spec).filter fun t => !t.isEmpty

/-- The fields after the head of a token. -/
def fields (rest : List Char) : List (List Char) :=
  if rest.isEmpty then [] else splitOn ':' rest

/-- Whole bytes from a number of bits, rounded down. -/
def bytes (bits : Int) : Int :=
  bits.fdiv 8

/-- The setting made from numbers that may be unreadable. -/
def reading (s : Option Setting) : Reading :=
  match s with
  | some s => .sets s
  | none => .malformed

/-- What a token with this head and these fields is, `e` and `E` apart. -/
def readFields : List Char → List (List Char) → Reading
  | 'p' :: space, size :: align :: _ =>
    if space = [] ∨ space = ['0'] then
      reading do return .pointer (bytes (← Numeral.read? size)) (bytes (← Numeral.read? align))
    else .silent
  | 'i' :: width, align :: _ =>
    if !width.isEmpty && width.all DecimalDigit.isForm then
      reading do return .integer (← Numeral.read? width) (max 1 (bytes (← Numeral.read? align)))
    else .ignored
  | ['a'], align :: _ =>
    if align.isEmpty then .ignored
    else reading do return .aggregate (max 1 (bytes (← Numeral.read? align)))
  | _, _ => .ignored

/-- What a token is. -/
def readToken (token : List Char) : Reading :=
  if token = ['e'] then .sets (.endian true)
  else if token = ['E'] then .sets (.endian false)
  else readFields (cut ':' token).1 (fields (cut ':' token).2)

/-- The target with one setting changed. -/
def apply (t : Target) : Setting → Target
  | .endian little => { t with littleEndian := little }
  | .pointer size align => { t with pointerSize := size, pointerAlign := align }
  | .integer bits align => { t with intAligns := t.intAligns.insert bits align }
  | .aggregate align => { t with aggregateAlign := align }

/-- The outcome of reading a specification, and the tokens that were ignored before it was
settled. -/
structure Outcome where
  result : Except Fault Target
  ignored : List (List Char)

/-- Reads tokens one by one, up to the first malformed one. -/
def readTokens (t : Target) : List (List Char) → Outcome
  | [] => ⟨.ok t, []⟩
  | token :: rest =>
    match readToken token with
    | .sets s => readTokens (apply t s) rest
    | .malformed => ⟨.error .unreadable, []⟩
    | .silent => readTokens t rest
    | .ignored =>
      let o := readTokens t rest
      ⟨o.result, token :: o.ignored⟩

/-- The target that a specification describes. -/
def parse (spec : String) : Outcome :=
  readTokens { spec } (tokens spec.toList)

end KernelObjects.Target.Spec
