import KernelObjects.OrderedSet
import KernelObjects.Table
import KernelObjects.Text.Blank
import KernelObjects.Text.Split

/-!
# Settings

Which functions allocate memory, which call makes a cache and which struct is one, and which struct
types count as reference counters or as credentials. The defaults describe the slab allocator of a
Linux kernel; further allocators can be named one by one or in environment variables.

Results:
* `mem_splitNames`: the names in a list of names are its trimmed parts, empty ones left out.
-/
namespace KernelObjects

open KernelObjects.Text

/-- The settings of an analysis. -/
structure Settings where
  genericAllocators : OrderedSet String := .ofList
    ["kmalloc", "kzalloc", "__kmalloc", "__kmalloc_node", "kmalloc_node", "kzalloc_node",
      "kcalloc_node", "kcalloc", "kvzalloc", "kvzalloc_node"]
  cacheAllocators : OrderedSet String := .ofList
    ["kmem_cache_alloc", "kmem_cache_alloc_node", "kmem_cache_zalloc"]
  cacheCreator : String := "kmem_cache_create"       -- part of the name of a creating function
  cacheStruct : String := "struct.kmem_cache"
  minShift : Int := 3                                -- exponent of the smallest size class
  refcountTypes : OrderedSet String := .ofList
    ["struct.refcount_struct", "struct.kref", "struct.atomic_t"]
  credType : String := "struct.cred"
  deriving DecidableEq

instance : Inhabited Settings := ⟨{}⟩

/-- The two families of allocators. -/
inductive Family where
  | generic
  | cache
  deriving DecidableEq, Repr

namespace Settings

/-- Names one more allocator. -/
def addAllocator (s : Settings) : Family → String → Settings
  | .generic, name => { s with genericAllocators := s.genericAllocators.insert name }
  | .cache, name => { s with cacheAllocators := s.cacheAllocators.insert name }

def isGenericAllocator (s : Settings) (name : String) : Bool :=
  name ∈ s.genericAllocators

def isCacheAllocator (s : Settings) (name : String) : Bool :=
  name ∈ s.cacheAllocators

/-- The names between the commas of a text, without the blanks around them. -/
def splitNames (raw : String) : List String :=
  ((splitOn ',' raw.toList).map Blank.trim).filter (!·.isEmpty) |>.map String.ofList

/-- The environment variables that name further allocators. -/
def environmentName : Family → String
  | .generic => "SLABSTRUCT_GENERIC_ALLOCATORS"
  | .cache => "SLABSTRUCT_CACHE_ALLOCATORS"

/-- The default settings with the allocators that an environment names. -/
def ofEnvironment (env : Table String String) : Settings :=
  let names (f : Family) := splitNames ((env.get? (environmentName f)).getD "")
  let s : Settings := {}
  { s with
    genericAllocators := s.genericAllocators.insertAll (names .generic)
    cacheAllocators := s.cacheAllocators.insertAll (names .cache) }

/-- What is logged about settings from an environment. -/
def familySizes (s : Settings) : String :=
  s!"allocator families: {s.genericAllocators.size} generic, {s.cacheAllocators.size} cache-typed"

theorem mem_splitNames {raw name : String} :
    name ∈ splitNames raw ↔
      ∃ part ∈ splitOn ',' raw.toList,
        (Blank.trim part).isEmpty = false ∧ String.ofList (Blank.trim part) = name := by
  simp only [splitNames, List.mem_map, List.mem_filter, Bool.not_eq_true']
  constructor
  · rintro ⟨_, ⟨⟨part, hp, rfl⟩, hne⟩, rfl⟩
    exact ⟨part, hp, hne, rfl⟩
  · rintro ⟨part, hp, hne, rfl⟩
    exact ⟨_, ⟨⟨part, hp, rfl⟩, hne⟩, rfl⟩

end Settings

end KernelObjects
