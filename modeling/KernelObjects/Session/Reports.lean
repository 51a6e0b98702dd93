import KernelObjects.Report.Dump
import KernelObjects.Report.Listing
import KernelObjects.Session.Analysis

/-!
# Reports of a session

A report has an outcome and a text; if it fails, the text is what was written before. The reports on
a whole registry also say in the log how much they wrote, if they come to their end.
-/
namespace KernelObjects.Work

/-- The outcome of a report and what it wrote. -/
structure Written (τ α : Type) where
  outcome : Except Fault α
  text : τ

/-- Runs a report on what the session holds. -/
def report {α : Type} (color : Bool) (act : Reporter → Report α) :
    Work (Written String α) := fun s =>
  let R : Reporter := { program := s.program, site := s.site, color }
  match act R "" with
  | .ok a text => .ok ⟨.ok a, text⟩ s
  | .error e text => .ok ⟨.error e, text⟩ s

/-- Logs the end of a report. -/
def reported (message : String) : Work Unit :=
  modify fun s => { s with log := s.log.emit .info .report message }

/-- The report on every allocated type of an analysis. -/
def overview (a : AnalysisId) (checks color : Bool) : Work (Written String Nat) := do
  let ds := (← get).listed a
  let w ← report color fun R => R.overview checks ds
  match w.outcome with
  | .ok n => reported s!"reported {n} allocated types"
  | .error _ => pure ()
  return w

/-- The line for a type with a known cache. -/
def cacheLine (name : String) (cache : List UInt8) : List UInt8 :=
  Text.Utf8.encode name ++ Text.Utf8.encode "," ++ cache ++ Text.Utf8.encode "\n"

/-- One line for each type whose cache is known; the result is their number. -/
def cacheLines : List Descriptor → Nat → List UInt8 → Work (Written (List UInt8) Nat)
  | [], n, text => pure ⟨.ok n, text⟩
  | d :: ds, n, text => fun s =>
    match allocCache d s with
    | .error e s => .ok ⟨.error e, text⟩ s
    | .ok cache s =>
      if cache.isEmpty then cacheLines ds n text s
      else cacheLines ds (n + 1) (text ++ cacheLine d.name cache) s

/-- The caches behind the types of an analysis. -/
def cacheReport (a : AnalysisId) : Work (Written (List UInt8) Nat) := do
  let ds := (← get).listed a
  let w ← cacheLines ds 0 []
  match w.outcome with
  | .ok n => reported s!"resolved caches for {n} of {ds.length} types"
  | .error _ => pure ()
  return w

/-- A listing of the types of an analysis. -/
def listing (a : AnalysisId) (l : Listing) : Work (Written String (Option Nat)) := do
  let s ← get
  report false fun R => l.render R.program (s.listed a) (s.tracker (s.analysis a).tracker)

end KernelObjects.Work
