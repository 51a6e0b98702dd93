/-!
# The log

Records have a level and a source. Nothing is kept before the log is opened; afterwards the records
at or above the chosen level are kept, one line each, until they are taken out.
-/
namespace KernelObjects

/-- How much a record matters. -/
inductive Level where
  | debug
  | info
  | warning
  deriving DecidableEq, Repr

namespace Level

/-- The severity as a number. -/
def rank : Level → Nat
  | .debug => 10
  | .info => 20
  | .warning => 30

/-- Five characters for each level. -/
def tag : Level → String
  | .debug => "DEBUG"
  | .info => "INFO "
  | .warning => "WARNI"

/-- The level that a verbosity asks for: warnings only, then information, then everything. -/
def ofVerbosity (v : Int) : Level :=
  if v = 1 then .info else if 2 ≤ v then .debug else .warning

end Level

/-- The part of the library that a record comes from. -/
inductive Source where
  | registry
  | cacheNames
  | settings
  | layout
  | report
  deriving DecidableEq, Repr

/-- The name of a source in the log. -/
def Source.text : Source → String
  | .registry => "slabstruct.analyzer"
  | .cacheNames => "slabstruct.alloc_cache"
  | .settings => "slabstruct.config"
  | .layout => "slabstruct.datalayout"
  | .report => "slabstruct.report"

/-- The kept lines, and the level from which on records are kept. -/
structure Log where
  threshold : Option Level := none      -- absent: not opened
  lines : Array String := #[]
  deriving DecidableEq, Inhabited, Repr

namespace Log

/-- An empty log that keeps records from a level on. -/
def opened (level : Level) : Log :=
  ⟨some level, #[]⟩

/-- The line of a record. The time is not recorded. -/
def line (level : Level) (source : Source) (message : String) : String :=
  "00:00:00 [" ++ level.tag ++ "] " ++ source.text ++ ": " ++ message ++ "\n"

/-- Keeps a record if its level is high enough. -/
def emit (log : Log) (level : Level) (source : Source) (message : String) : Log :=
  match log.threshold with
  | none => log
  | some t =>
    if t.rank ≤ level.rank then { log with lines := log.lines.push (line level source message) }
    else log

/-- The text of the kept records; `none` if the log is not opened. -/
def text? (log : Log) : Option String :=
  log.threshold.map fun _ => String.join log.lines.toList

/-- The log without its records. -/
def cleared (log : Log) : Log :=
  { log with lines := #[] }

end Log

end KernelObjects
