/-!
# Identities

Structs, values, modules, layouts, settings and sites live in arenas that only grow, and an object
is named by its position there. Two objects with equal contents at two positions are two objects.
-/
namespace KernelObjects

/-- A struct type. -/
structure StructId where
  idx : Nat
  deriving DecidableEq, Inhabited, Repr

/-- A value of the program: a constant, a global, a function, a block or an instruction. -/
structure ValueId where
  idx : Nat
  deriving DecidableEq, Inhabited, Repr

/-- A module: one compilation unit. -/
structure ModuleId where
  idx : Nat
  deriving DecidableEq, Inhabited, Repr

/-- A data layout with its memo. -/
structure LayoutId where
  idx : Nat
  deriving DecidableEq, Inhabited, Repr

/-- A group of settings, which may change. -/
structure SettingsId where
  idx : Nat
  deriving DecidableEq, Inhabited, Repr

/-- A leaking or accepting site. -/
structure SiteId where
  idx : Nat
  deriving DecidableEq, Inhabited, Repr

end KernelObjects
