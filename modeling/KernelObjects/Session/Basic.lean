import KernelObjects.Descriptor
import KernelObjects.Log
import KernelObjects.Registry.Basic
import KernelObjects.Settings

/-!
# Sessions

A session holds everything that one client works with: a program, layouts, settings, registries and
what was noted beside them. Objects are shared by reference: two registries may have the same
settings or the same tracker, and a check map or a ledger may be reached through the descriptor or
the site that it belongs to.

Every operation of a session is an action that may fail; what it did before stays.
-/
namespace KernelObjects

/-- A tracker of the largest struct. -/
structure TrackerId where
  idx : Nat
  deriving DecidableEq, Inhabited, Repr

/-- An analysis. -/
structure AnalysisId where
  idx : Nat
  deriving DecidableEq, Inhabited, Repr

/-- A registry with the settings and the tracker that it uses. -/
structure Analysis where
  settings : SettingsId
  tracker : TrackerId
  registry : Registry := {}
  deriving Inhabited

/-- A descriptor: in a registry, or one that was made by itself. -/
inductive DescriptorRef where
  | listed (analysis : AnalysisId) (handle : Nat)
  | loose (position : Nat)
  deriving DecidableEq, Inhabited, Repr

/-- A check map: of a site, of a descriptor, or one that was made by itself. -/
inductive CheckMapRef where
  | ofSite (site : SiteId)
  | allocation (d : DescriptorRef)
  | other (d : DescriptorRef)
  | loose (position : Nat)
  deriving DecidableEq, Inhabited, Repr

/-- A ledger: of a descriptor, or one that was made by itself. -/
inductive LedgerRef where
  | ofDescriptor (d : DescriptorRef)
  | loose (position : Nat)
  deriving DecidableEq, Inhabited, Repr

/-- Everything that one client works with. -/
structure Session where
  program : Program := {}
  layouts : Layouts := {}
  settings : Array Settings := #[]
  trackers : Array Tracker := #[]
  analyses : Array Analysis := #[]
  descriptors : Array Descriptor := #[]           -- those outside all registries
  sites : Array Site := #[]
  checkMaps : Array CheckMap := #[]               -- those outside all sites and descriptors
  ledgers : Array Ledger := #[]                   -- those outside all descriptors
  log : Log := {}
  deriving Inhabited

/-- An operation of a session. -/
abbrev Work (α : Type) := EStateM Fault Session α

namespace Session

/-! ## Reading -/

/-- The settings with that identity; the defaults without one. -/
def settingsOf (s : Session) (id : Option SettingsId) : Settings :=
  (id.bind fun i => s.settings[i.idx]?).getD {}

def tracker (s : Session) (id : TrackerId) : Tracker :=
  s.trackers.getD id.idx {}

def analysis (s : Session) (id : AnalysisId) : Analysis :=
  s.analyses.getD id.idx default

def site (s : Session) (id : SiteId) : Site :=
  s.sites.getD id.idx {}

def descriptor (s : Session) : DescriptorRef → Descriptor
  | .listed a handle => (s.analysis a).registry.descriptor handle
  | .loose i => s.descriptors.getD i default

def checkMap (s : Session) : CheckMapRef → CheckMap
  | .ofSite id => (s.site id).checks
  | .allocation d => (s.descriptor d).allocChecks
  | .other d => (s.descriptor d).otherChecks
  | .loose i => s.checkMaps.getD i ∅

def ledger (s : Session) : LedgerRef → Ledger
  | .ofDescriptor d => (s.descriptor d).ledger
  | .loose i => s.ledgers.getD i {}

/-- The descriptors of an analysis, in the order in which they were built. -/
def listed (s : Session) (a : AnalysisId) : List Descriptor :=
  (s.analysis a).registry.arena.toList

/-! ## Changing -/

def modifyDescriptor (s : Session) (d : DescriptorRef) (f : Descriptor → Descriptor) : Session :=
  match d with
  | .listed a handle =>
    { s with analyses := s.analyses.modify a.idx fun x =>
        { x with registry := x.registry.modify handle f } }
  | .loose i => { s with descriptors := s.descriptors.modify i f }

def modifyCheckMap (s : Session) (m : CheckMapRef) (f : CheckMap → CheckMap) : Session :=
  match m with
  | .ofSite id =>
    { s with sites := s.sites.modify id.idx fun x => { x with checks := f x.checks } }
  | .allocation d => s.modifyDescriptor d fun x => { x with allocChecks := f x.allocChecks }
  | .other d => s.modifyDescriptor d fun x => { x with otherChecks := f x.otherChecks }
  | .loose i => { s with checkMaps := s.checkMaps.modify i f }

def setLedger (s : Session) (l : LedgerRef) (ledger : Ledger) : Session :=
  match l with
  | .ofDescriptor d => s.modifyDescriptor d fun x => { x with ledger }
  | .loose i => { s with ledgers := s.ledgers.modify i fun _ => ledger }

end Session

/-! ## Making objects -/

namespace Work

/-- Extends the program. -/
def extend {α : Type} (f : Program → α × Program) : Work α := fun s =>
  let (a, program) := f s.program
  .ok a { s with program }

/-- Extends the program in a way that may be refused. -/
def tryExtend {α : Type} (f : Program → Except Fault (α × Program)) : Work α := fun s =>
  match f s.program with
  | .ok (a, program) => .ok a { s with program }
  | .error e => .error e s

/-- Makes a layout for a target. -/
def addLayout (t : Target) : Work LayoutId := fun s =>
  let (id, layouts) := s.layouts.define t
  .ok id { s with layouts }

/-- The given layout, or a new one for the default target. -/
def layoutOrDefault : Option LayoutId → Work LayoutId
  | some id => pure id
  | none => addLayout {}

/-- Makes a module; without a layout it gets one of its own for the default target. -/
def addModule (name : String) (layout : Option LayoutId) (sourceFile : String) : Work ModuleId := do
  let layout ← layoutOrDefault layout
  extend fun P => P.addModule name layout sourceFile

/-- Makes settings. -/
def addSettings (x : Settings) : Work SettingsId := fun s =>
  .ok ⟨s.settings.size⟩ { s with settings := s.settings.push x }

/-- Makes settings from an environment, and logs how many allocators they name. -/
def addEnvironment (env : Table String String) : Work SettingsId := do
  let x := Settings.ofEnvironment env
  modify fun s => { s with log := s.log.emit .debug .settings x.familySizes }
  addSettings x

/-- Names one more allocator in existing settings. -/
def addAllocator (id : SettingsId) (family : Family) (name : String) : Work Unit :=
  modify fun s => { s with settings := s.settings.modify id.idx (·.addAllocator family name) }

/-- Makes a tracker. -/
def addTracker : Work TrackerId := fun s =>
  .ok ⟨s.trackers.size⟩ { s with trackers := s.trackers.push {} }

/-- Offers a struct to a tracker; says whether it became the largest. -/
def offer (id : TrackerId) (st : StructId) (size : Int) : Work Bool := fun s =>
  let t := s.tracker id
  .ok (t.size < size) { s with trackers := s.trackers.modify id.idx (·.update st size) }

/-- Makes an analysis; what is not given is made for it. -/
def addAnalysis (settings : Option SettingsId) (tracker : Option TrackerId) : Work AnalysisId := do
  let settings ← match settings with
    | some id => pure id
    | none => addSettings {}
  let tracker ← match tracker with
    | some id => pure id
    | none => addTracker
  fun s => .ok ⟨s.analyses.size⟩ { s with analyses := s.analyses.push { settings, tracker } }

/-- Makes a site. -/
def addSite (x : Site) : Work SiteId := fun s =>
  .ok ⟨s.sites.size⟩ { s with sites := s.sites.push x }

/-- Makes a check map that belongs to nothing. -/
def addCheckMap : Work CheckMapRef := fun s =>
  .ok (.loose s.checkMaps.size) { s with checkMaps := s.checkMaps.push ∅ }

/-- Makes a ledger that belongs to nothing. -/
def addLedger : Work LedgerRef := fun s =>
  .ok (.loose s.ledgers.size) { s with ledgers := s.ledgers.push {} }

/-- Makes a descriptor outside all registries, with nothing built. -/
def addDescriptor (st : StructId) (home : ModuleId) (layout : Option LayoutId)
    (settings : Option SettingsId) : Work DescriptorRef := fun s =>
  let m := s.program.module home
  match scopeName s.program.structs st (some m.name) with
  | .error e => .error e s
  | .ok name =>
    let d : Descriptor := { type := st, home, layout := layout.getD m.layout, settings, name }
    .ok (.loose s.descriptors.size) { s with descriptors := s.descriptors.push d }

/-! ## The log -/

/-- Opens an empty log. -/
def openLog (level : Level) : Work Unit :=
  modify fun s => { s with log := .opened level }

/-- Takes the records out of the log; `none` if it is not opened. -/
def takeLog : Work (Option String) := fun s =>
  .ok s.log.text? { s with log := s.log.cleared }

/-- Runs an action on the log only. -/
def onLog {α : Type} (act : EStateM Fault Log α) : Work α :=
  onPart Session.log (fun log s => { s with log }) act

end Work

end KernelObjects
