import KernelObjects.Cache.Classify
import KernelObjects.Registry.Containers
import KernelObjects.Session.Basic
import KernelObjects.Target.Spec
import KernelObjects.Text.Quoted

/-!
# Working in a session

Layout questions, flattening, notes on descriptors and the classification of caches, on the objects
that a session holds.
-/
namespace KernelObjects.Work

/-! ## Layouts -/

/-- Logs a token of a layout specification that was ignored. -/
def ignoredToken (token : List Char) : Work Unit :=
  let quoted := String.ofList (Text.Quoted.render token)
  let message := s!"ignoring data-layout token {quoted}"
  modify fun s => { s with log := s.log.emit .debug .layout message }

/-- Makes a layout from a specification. -/
def parseLayout (spec : String) : Work LayoutId := do
  let outcome := Target.Spec.parse spec
  outcome.ignored.forM ignoredToken
  addLayout (← orRaise outcome.result)

/-- Asks a layout a question about the structs of the program. -/
def askLayout {α : Type} (id : LayoutId) (query : Target → Structs → LayoutQuery α) : Work α :=
  fun s =>
    onPart Session.layouts (fun layouts s => { s with layouts })
      (Layouts.onTarget id fun t => query t s.program.structs) s

/-! ## Registries -/

/-- What flattening reads, in the scope of a module and with its layout unless another one is
given. -/
def contextFor (s : Session) (a : AnalysisId) (home : ModuleId) (layout : Option LayoutId) :
    FlattenContext :=
  let id := (s.analysis a).settings
  { program := s.program, settings := s.settingsOf (some id), settingsId := id
    home, layout := layout.getD (s.program.module home).layout }

/-- What flattening for an analysis changes. -/
def stateFor (s : Session) (a : AnalysisId) : FlattenState :=
  { layouts := s.layouts, registry := (s.analysis a).registry
    tracker := s.tracker (s.analysis a).tracker, log := s.log }

/-- Takes over what flattening for an analysis has changed. -/
def takeOver (a : AnalysisId) (f : FlattenState) (s : Session) : Session :=
  { s with
    layouts := f.layouts, log := f.log
    analyses := s.analyses.modify a.idx fun x => { x with registry := f.registry }
    trackers := s.trackers.modify (s.analysis a).tracker.idx fun _ => f.tracker }

/-- Runs an action of flattening for an analysis, in the scope of a module and with its layout
unless another one is given. -/
def flatten {α : Type} (a : AnalysisId) (home : ModuleId) (layout : Option LayoutId)
    (act : FlattenContext → Flatten α) : Work α := fun s =>
  onPart (stateFor · a) (takeOver a) (act (contextFor s a home layout)) s

/-- The position of the descriptor of a struct, which is built if it is not there. -/
def handleOf (a : AnalysisId) (st : StructId) (home : ModuleId) (layout : Option LayoutId) :
    Work Nat :=
  flatten a home layout fun cx => Flatten.handleOf cx st

/-- The descriptor of a struct, which is built if it is not there. -/
def descriptorOf (a : AnalysisId) (st : StructId) (home : ModuleId) (layout : Option LayoutId) :
    Work DescriptorRef := do
  return .listed a (← handleOf a st home layout)

/-- The descriptor at a position; a negative position counts from the end. -/
def descriptorAt (a : AnalysisId) (i : Int) : Work DescriptorRef := do
  return .listed a (← orRaise (((← get).analysis a).registry.position i))

/-- Flattens a module. -/
def run (a : AnalysisId) (home : ModuleId) (layout : Option LayoutId) : Work Nat :=
  flatten a home layout Flatten.run

/-- The names of the containers of a struct, seen from a module. -/
def containerNames (a : AnalysisId) (name : String) (home : ModuleId) : Work (OrderedSet String) :=
  flatten a home none fun cx => Flatten.containerNames cx name

/-! ## Descriptors -/

/-- Changes the table of a descriptor that is not finished. -/
def reshape (d : DescriptorRef) (f : Shape → Shape) : Work Unit := do
  let changed ← orRaise (((← get).descriptor d).reshape f)
  modify fun s => s.modifyDescriptor d fun _ => changed

/-- Adds a note to a descriptor. -/
def note (d : DescriptorRef) (n : Note) : Work Unit :=
  modify fun s => s.modifyDescriptor d (·.note n)

/-- Notes that a struct lies in a container. -/
def addContainer (d : DescriptorRef) (container : StructId) (offset : Int) : Work Unit :=
  modify fun s => s.modifyDescriptor d (·.addContainer container offset)

/-- Settles and finishes a descriptor. It stays unfinished if its size cannot be told. -/
def finish (d : DescriptorRef) : Work Unit := do
  modify fun s => s.modifyDescriptor d Descriptor.settle
  let x := (← get).descriptor d
  if x.lacksAllocSize (← get).program.structs then
    let size ← askLayout x.layout fun t S => allocSize t S (.struct x.type)
    note d (.allocSize size)
  modify fun s => s.modifyDescriptor d Descriptor.finish

/-- The key of a site as a fault words it: the length field, then the value. -/
def siteKey (P : Program) (offset : Int) (v : ValueId) : Except Fault String := do
  let _ ← numberText offset
  P.text v

/-- The fault of entering a second site. -/
def duplicateSite (s : Session) (offset : Int) (v : ValueId) : Fault :=
  .worded (.duplicateSite offset) (siteKey s.program offset v)

/-- Enters a leak site into a descriptor. -/
def addLeakSource (d : DescriptorRef) (offset : Int) (v : ValueId) (site : SiteId) : Work Unit := do
  let s ← get
  match (s.descriptor d).addLeakSource offset v site with
  | some x => modify fun s => s.modifyDescriptor d fun _ => x
  | none => throw (duplicateSite s offset v)

/-- Enters a leak site into a ledger. -/
def addLeak (l : LedgerRef) (offset : Int) (v : ValueId) (site : SiteId) : Work Unit := do
  let s ← get
  match (s.ledger l).add offset v site with
  | some ledger => set (s.setLedger l ledger)
  | none => throw (duplicateSite s offset v)

/-- Records an observation of a guarding comparison. -/
def record (m : CheckMapRef) (tag : String) (inst : ValueId) (left right : List ValueId)
    (branch : Branch) : Work Unit :=
  modify fun s => s.modifyCheckMap m fun x => x.record tag inst left right branch

/-! ## Caches -/

/-- The name of the cache that an allocation call draws from. -/
def resolve (settings : Option SettingsId) (call : ValueId) : Work (List UInt8) := do
  let s ← get
  orRaise (CacheName.resolve s.program (s.settingsOf settings) call)

/-- The name of the cache behind objects of a size that these calls allocate. -/
def classify (settings : Option SettingsId) (calls : List ValueId) (size : Int) :
    Work (List UInt8) := do
  let s ← get
  onLog (CacheName.classify s.program (s.settingsOf settings) calls size)

/-- The name of the cache behind a type. -/
def allocCache (d : Descriptor) : Work (List UInt8) :=
  classify d.settings d.allocSites.items d.allocSize

end KernelObjects.Work
