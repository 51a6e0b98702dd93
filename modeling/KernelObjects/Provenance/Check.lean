import KernelObjects.Fault
import KernelObjects.Ident
import KernelObjects.Table

/-!
# Guarding comparisons

Which comparisons guard a transfer, filed under a tag for the field concerned. Of each comparison
the sources of its two operands are kept, and which of its outcomes were seen on the way to the
transfer. A repeated record only widens what is known.

Results:
* `merge_comm`, `merge_assoc`, `merge_self`: outcomes merge as a join.
-/
namespace KernelObjects

/-- The outcomes of a comparison that reach the transfer. -/
inductive Branch where
  | taken
  | notTaken
  | both
  deriving DecidableEq, Inhabited, Repr

namespace Branch

def code : Branch → Nat
  | .taken => 0
  | .notTaken => 1
  | .both => 2

/-- The outcome with this code. -/
def ofCode (n : Int) : Except Fault Branch :=
  if n = 0 then .ok .taken
  else if n = 1 then .ok .notTaken
  else if n = 2 then .ok .both
  else .error .unreadable

/-- What is known after two observations. -/
def merge (a b : Branch) : Branch :=
  if a = b then a else .both

theorem merge_self (a : Branch) : a.merge a = a := by
  simp [merge]

theorem merge_comm (a b : Branch) : a.merge b = b.merge a := by
  cases a <;> cases b <;> rfl

theorem merge_assoc (a b c : Branch) : (a.merge b).merge c = a.merge (b.merge c) := by
  cases a <;> cases b <;> cases c <;> rfl

end Branch

/-- What is known about one guarding comparison. -/
structure Guard where
  left : List ValueId
  right : List ValueId
  branch : Branch
  deriving DecidableEq, Inhabited, Repr

/-- The list with those values at its end that it does not hold yet. -/
def addSources (known new : List ValueId) : List ValueId :=
  new.foldl (fun acc v => if v ∈ acc then acc else acc ++ [v]) known

/-- A guard after one more observation. -/
def Guard.widen (g : Guard) (left right : List ValueId) (branch : Branch) : Guard :=
  ⟨addSources g.left left, addSources g.right right, g.branch.merge branch⟩

/-- Comparisons by tag, then by instruction. -/
abbrev CheckMap := Table String (Table ValueId Guard)

/-- Records an observation of a comparison. The first one is kept as it is given. -/
def CheckMap.record (m : CheckMap) (tag : String) (inst : ValueId) (left right : List ValueId)
    (branch : Branch) : CheckMap :=
  let checks := (m.get? tag).getD ∅
  let guard := match checks.get? inst with
    | none => ⟨left, right, branch⟩
    | some g => g.widen left right branch
  m.insert tag (checks.insert inst guard)

end KernelObjects
