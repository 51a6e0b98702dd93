import KernelObjects.Table
import KernelObjects.Ty

/-!
# Targets

What a machine says about memory: the size of a pointer and the alignments of pointers, integers
and aggregates, all in bytes. Integer alignments are given for some widths; any other width takes
the alignment of the next wider one, or of the widest.
-/
namespace KernelObjects

/-- The alignments of integers, by width in bits, where nothing else is said. -/
def defaultIntAligns : Table Int Int :=
  Table.empty.insertAll [(1, 1), (8, 1), (16, 2), (32, 4), (64, 8), (128, 16)]

/-- The memory parameters of a machine. -/
structure Target where
  pointerSize : Int := 8
  pointerAlign : Int := 8
  littleEndian : Bool := true
  intAligns : Table Int Int := defaultIntAligns
  aggregateAlign : Int := 1
  spec : String := ""                   -- the text that the parameters were read from
  deriving DecidableEq, Inhabited

namespace Target

/-- The width whose alignment an integer of `bits` bits takes. -/
def governingWidth (t : Target) (bits : Int) : Option Int :=
  match (t.intAligns.keys.filter fun w => bits ≤ w).min? with
  | some w => some w
  | none => t.intAligns.keys.max?

/-- The alignment of an integer of `bits` bits. -/
def intAlign (t : Target) (bits : Int) : Int :=
  ((t.governingWidth bits).bind t.intAligns.get?).getD 1

/-- The bytes that an integer of `bits` bits fills. -/
def intBytes (bits : Int) : Int :=
  (bits + 7).fdiv 8

/-- One line about a target. -/
def summary (t : Target) : String :=
  let spec := if t.spec.isEmpty then "default" else t.spec
  s!"DataLayout({spec})"

end Target

end KernelObjects
