import KernelObjects.Registry.WorkList

/-!
# Containers by name

The structs that hold the struct of a given name by value, directly or not, asked for and answered
by name.
-/
namespace KernelObjects.Flatten

variable (cx : FlattenContext)

/-- The context for work on another module, with the layout of that module. -/
def inModule (m : ModuleId) : FlattenContext :=
  { cx with home := m, layout := (cx.program.module m).layout }

/-- The names of the containers of the struct called `name`, seen from the module of the context.
Nothing is known of a name that was never met. If names cannot be written, the fault is that of the
container that comes first in the order of identities. -/
def containerNames (name : String) : Flatten (OrderedSet String) := do
  match (← get).registry.structNamed? name with
  | none => return ∅
  | some st =>
    if (cx.structs.get st).isOpaque then throw (.opaqueType name .queryContainers)
    else
      match (← get).registry.definingModule? cx.program st (some cx.home) with
      | none => throw (.definedNowhere name)
      | some home =>
        let handle ← handleOf (inModule cx home) st
        let d := (← get).registry.descriptor handle
        let scope := (cx.program.module home).name
        let containers := (d.places.map Prod.fst).eraseReps
        let names ← orRaise (containers.mapM fun st => scopeName cx.structs st (some scope))
        return .ofList names

end KernelObjects.Flatten
