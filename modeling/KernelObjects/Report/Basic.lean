import KernelObjects.Fault

/-!
# Reports

A report writes a text piece by piece. One that fails keeps what it has written; the piece that it
failed at is not written at all.
-/
namespace KernelObjects

/-- A report under way, on the text that it has written. -/
abbrev Report (α : Type) := EStateM Fault String α

/-- Writes one piece of text. -/
def Report.write (s : String) : Report Unit :=
  modify (· ++ s)

end KernelObjects
