import KernelObjects.Descriptor
import KernelObjects.Report.Basic
import KernelObjects.Report.Operand

/-!
# Reports on one descriptor

What a descriptor says about allocation, leaks and guards.
-/
namespace KernelObjects

/-- What a report reads. -/
structure Reporter where
  program : Program
  site : SiteId → Site
  color : Bool := false

namespace Reporter

open Report (write)

variable (R : Reporter)

/-- The headline of a descriptor, bold and green. -/
def header (d : Descriptor) : Report Unit :=
  let line := "[+] " ++ d.name
  write ((if R.color then "\x1b[1m\x1b[32m" ++ line ++ "\x1b[0m" else line) ++ "\n")

/-- A dividing line, cyan. -/
def banner (line : String) : Report Unit :=
  write ((if R.color then "\x1b[36m" ++ line ++ "\x1b[0m" else line) ++ "\n")

/-- A line with a value, and where it is. -/
def locatedLine (v : ValueId) : Report Unit := do
  write ((← orRaise (R.program.located v)) ++ "\n")

/-- The instructions that allocate the type. -/
def allocInsts (d : Descriptor) : Report Unit :=
  d.allocInsts.items.forM R.locatedLine

/-- The instructions that leak the type. -/
def leakInsts (d : Descriptor) : Report Unit :=
  d.leakInsts.items.forM fun v => do write ((← orRaise (R.program.text v)) ++ "\n")

/-- The module in which a value is first used by an instruction that lies in one. -/
def firstUse (v : ValueId) : Except Fault (Option String) :=
  (R.program.value v).users.findSomeM? fun u =>
    if (R.program.value u).isInstr then R.program.instrModuleName u else pure none

/-- A line with the name of a struct. -/
def structLine (st : StructId) : String :=
  s!"StructType : {(R.program.structs.get st).name}\n"

/-- The source of a site, and where it is used unless it is an instruction. -/
def fromLine (v : ValueId) : Report Unit := do
  write ("from Value " ++ (← orRaise (R.program.located v)))
  unless (R.program.value v).isInstr do
    match ← orRaise (R.firstUse v) with
    | some m => write (" in " ++ m)
    | none => pure ()
  write "\n"

/-- Where the length and the bytes of a site come from. -/
def siteLines (s : Site) : Report Unit := do
  match s.lenValue, s.lenStruct with
  | some v, some st => do
    write ("len Value " ++ (← orRaise (R.program.located v)) ++ "\n")
    write (R.structLine st)
  | _, _ => pure ()
  match s.fromValue with
  | some v => R.fromLine v
  | none => pure ()
  match s.fromStruct with
  | some st => write (R.structLine st)
  | none => pure ()
  write "\n"

/-- One leak with its site. -/
def leak (offset : Int) (v : ValueId) (id : SiteId) : Report Unit := do
  let s := R.site id
  let copy ← orRaise (R.program.located v)
  write s!"{copy} {s.leakType.description} at offset : {← orRaise (numberText offset)}\n"
  R.siteLines s

/-- Allocation and leaks; of a type that is never allocated only if that is asked for. -/
def leaks (d : Descriptor) (allocatedOnly : Bool) : Report Unit :=
  if allocatedOnly && d.allocInsts.isEmpty then pure ()
  else do
    R.header d
    write "AllocInst:\n"
    R.allocInsts d
    write "LeakInst:\n"
    d.ledger.sites.forM fun (offset, v, id) => R.leak offset v id

/-- Allocation and leaks of a type that has leaks. -/
def allocatedLeaks (d : Descriptor) : Report Unit :=
  if d.ledger.byOffset.isEmpty then pure ()
  else do
    R.leaks d true
    write "\n\n"

/-- One comparison of a check map. -/
def check (inst : ValueId) (g : Guard) : Report Unit := do
  R.locatedLine inst
  match R.program.instr? inst with
  | some (.icmp p _ _) => write (← orRaise (R.program.renderGuard p g))
  | _ => pure ()
  write "\n------------------------------------------\n"

/-- The comparisons of a check map, by tag. -/
def checkMap (m : CheckMap) : Report Unit :=
  m.entries.forM fun (tag, checks) => do
    write s!"--------------- field offset: {tag}-------------\n"
    checks.entries.forM fun (inst, g) => R.check inst g

/-- The checks on the way from one retrieval of a length to one leak. Both have to be
instructions. -/
def checkChain (leakSite : ValueId) (s : Site) : Report Unit :=
  match s.lenValue with
  | none => pure ()
  | some len =>
    if (R.program.value leakSite).isInstr && (R.program.value len).isInstr then do
      R.banner "=================== Retrieve Site ================="
      R.locatedLine len
      R.banner "=================== Leak Site ================="
      R.locatedLine leakSite
      R.banner "=================== Checks ==================="
      R.checkMap s.checks
    else pure ()

/-- All check chains, by length field. -/
def checkChains (d : Descriptor) : Report Unit :=
  d.ledger.byOffset.entries.forM fun (offset, sources) => do
    let offset ← orRaise (numberText offset)
    R.banner s!"<<<<<<<<<<<<<<<<< Length offset: {offset} >>>>>>>>>>>>>>>>"
    sources.entries.forM fun (v, id) => R.checkChain v (R.site id)

/-- The check chains of an allocated type under its headline. -/
def leakChecks (d : Descriptor) : Report Unit :=
  if d.allocInsts.isEmpty then pure ()
  else do
    R.header d
    R.checkChains d

/-- One line for each length field of an allocated type. -/
def simplified (d : Descriptor) : Report Unit :=
  if d.allocInsts.isEmpty then pure ()
  else d.ledger.offsets.forM fun offset => do
    write s!"{d.name} {← orRaise (numberText offset)}\n"

/-- Leaks, and on request check chains, of every allocated type; the result is their number. -/
def overview (checks : Bool) : List Descriptor → Report Nat
  | [] => pure 0
  | d :: ds =>
    if d.allocInsts.isEmpty then overview checks ds
    else do
      R.leaks d true
      if checks then R.checkChains d
      return (← overview checks ds) + 1

end Reporter

end KernelObjects
