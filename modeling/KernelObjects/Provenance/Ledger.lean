import KernelObjects.Provenance.Check

/-!
# The ledger of leaks

For each length field of a type, and each value that copies data out or in by that length, one
site. A site is written once; it says where the data lives and where the copied bytes and the
length came from.

Results:
* `get?_add`: what an entry does to the view `get?`.
* `add_eq_none_iff`: an entry is refused exactly if there is one already.
-/
namespace KernelObjects

/-- Where leaked bytes live. -/
inductive LeakType where
  | stack
  | heapSame
  | heapOther
  | unknown
  deriving DecidableEq, Inhabited, Repr

namespace LeakType

/-- The kind of memory with this code. -/
def ofCode (n : Int) : Except Fault LeakType :=
  if n = 0 then .ok .stack
  else if n = 1 then .ok .heapSame
  else if n = 2 then .ok .heapOther
  else if n = 3 then .ok .unknown
  else .error .unreadable

def description : LeakType → String
  | .stack => "Leaking from STACK"
  | .heapSame => "Leaking from the same object in the HEAP"
  | .heapOther => "Leaking from the different object in the HEAP"
  | .unknown => "Unknown object"

end LeakType

/-- A leaking or accepting site. -/
structure Site where
  leakType : LeakType := .unknown
  fromStruct : Option StructId := none  -- the struct that the bytes were read from
  fromValue : Option ValueId := none    -- the value that the bytes come from
  lenStruct : Option StructId := none   -- the struct that the length was read from
  lenValue : Option ValueId := none     -- the value that gave the length
  checks : CheckMap := ∅                -- the comparisons that guard the transfer
  deriving Inhabited

/-- Sites by length field, then by copying value. -/
structure Ledger where
  byOffset : Table Int (Table ValueId SiteId) := ∅
  deriving DecidableEq, Inhabited

namespace Ledger

/-- The sites under one length field. -/
def sources (l : Ledger) (offset : Int) : Table ValueId SiteId :=
  (l.byOffset.get? offset).getD ∅

/-- The site of one value under a length field. -/
def get? (l : Ledger) (offset : Int) (v : ValueId) : Option SiteId :=
  (l.sources offset).get? v

/-- Enters a site; `none` if there is one already. -/
def add (l : Ledger) (offset : Int) (v : ValueId) (site : SiteId) : Option Ledger :=
  if (l.sources offset).contains v then none
  else some ⟨l.byOffset.insert offset ((l.sources offset).insert v site)⟩

/-- The length fields, in the order of their first entries. -/
def offsets (l : Ledger) : List Int :=
  l.byOffset.keys

/-- The number of length fields with entries. -/
def size (l : Ledger) : Nat :=
  l.byOffset.size

/-- Whether there is an entry under a length field. -/
def hasOffset (l : Ledger) (offset : Int) : Bool :=
  l.byOffset.contains offset

/-- Whether there is an entry of a value under a length field. -/
def has (l : Ledger) (offset : Int) (v : ValueId) : Bool :=
  (l.sources offset).contains v

/-- All entries, by length field. -/
def sites (l : Ledger) : List (Int × ValueId × SiteId) :=
  l.byOffset.entries.flatMap fun (offset, sources) =>
    sources.entries.map fun (v, site) => (offset, v, site)

theorem add_eq_none_iff (l : Ledger) (offset : Int) (v : ValueId) (site : SiteId) :
    l.add offset v site = none ↔ (l.get? offset v).isSome := by
  unfold add get? Table.contains
  split <;> simp_all

theorem get?_add {l l' : Ledger} {offset : Int} {v : ValueId} {site : SiteId}
    (h : l.add offset v site = some l') (o : Int) (u : ValueId) :
    l'.get? o u = if o = offset ∧ u = v then some site else l.get? o u := by
  unfold add at h
  split at h
  · cases h
  · cases h
    by_cases ho : o = offset
    · subst ho
      simp [get?, sources]
    · simp [get?, sources, ho]

end Ledger

end KernelObjects
