import KernelObjects.Registry.Flatten

/-!
# The work list

Before a struct is built, the structs that it holds by value are built. The order comes from a work
list: a task is taken from the top of a stack; a struct that is met for the first time goes back
onto the stack, marked as ready, with what it embeds above it. A struct that is met again while it
waits for what it embeds holds itself by value and cannot be flattened, nor can an opaque one. What
was built before a failure stays.

Results:
* `unstarted_turn`: no turn starts a struct twice, so the work list comes to an end.
-/
namespace KernelObjects.Flatten

/-- A struct to work on: met, or ready to be built. -/
structure Task where
  struct : StructId
  ready : Bool
  deriving DecidableEq, Repr

structure WorkList where
  stack : List Task                     -- the next task first
  inProgress : List StructId            -- the structs that wait for what they embed
  deriving DecidableEq, Repr

variable (cx : FlattenContext)

/-- The list that asks for one struct. -/
def WorkList.start (st : StructId) : WorkList :=
  ⟨[⟨st, false⟩], []⟩

/-- Works on the next task. -/
def turn : WorkList → Flatten WorkList
  | ⟨[], waiting⟩ => pure ⟨[], waiting⟩
  | ⟨⟨st, ready⟩ :: rest, waiting⟩ => do
    if ((← get).registry.handle? st cx.module.name).isSome then return ⟨rest, waiting⟩
    else if ready then
      build cx st
      return ⟨rest, waiting.erase st⟩
    else if st ∈ waiting then throw (.worded .embedsItself (cx.structs.structText st))
    else if (cx.structs.get st).isOpaque then
      throw (.worded (.opaqueType · .flatten) (cx.structs.label st))
    else
      let inner := (cx.structs.embedded st).map (Task.mk · false)
      return ⟨inner ++ ⟨st, true⟩ :: rest, st :: waiting⟩

theorem turn_cons (st : StructId) (ready : Bool) (rest : List Task) (waiting : List StructId)
    (s : FlattenState) :
    turn cx ⟨⟨st, ready⟩ :: rest, waiting⟩ s =
      if (s.registry.handle? st cx.module.name).isSome then .ok ⟨rest, waiting⟩ s
      else if ready then
        match build cx st s with
        | .ok _ s' => .ok ⟨rest, waiting.erase st⟩ s'
        | .error e s' => .error e s'
      else if st ∈ waiting then .error (.worded .embedsItself (cx.structs.structText st)) s
      else if (cx.structs.get st).isOpaque then
        .error (.worded (.opaqueType · .flatten) (cx.structs.label st)) s
      else
        let inner := (cx.structs.embedded st).map (Task.mk · false)
        .ok ⟨inner ++ ⟨st, true⟩ :: rest, st :: waiting⟩ s := by
  rw [turn, get_bind]
  split
  · rfl
  split
  · simp only [bind, EStateM.bind]
    cases build cx st s <;> rfl
  split
  · rfl
  split
  · rfl
  · rfl

/-! ## The work list comes to an end -/

/-- A struct that is neither built nor waiting. -/
def isUnstarted (w : WorkList) (s : FlattenState) (i : Nat) : Bool :=
  (s.registry.handle? ⟨i⟩ cx.module.name).isNone && ⟨i⟩ ∉ w.inProgress

/-- The number of structs that are neither built nor waiting. -/
def unstarted (w : WorkList) (s : FlattenState) : Nat :=
  (List.range cx.structs.size).countP (isUnstarted cx w s)

theorem countP_lt_countP {p q : Nat → Bool} {xs : List Nat} {x : Nat}
    (h : ∀ y, p y = true → q y = true) (hx : x ∈ xs) (hp : p x = false) (hq : q x = true) :
    xs.countP p < xs.countP q := by
  obtain ⟨as, bs, rfl⟩ := List.append_of_mem hx
  have ha := List.countP_mono_left (l := as) fun y _ => h y
  have hb := List.countP_mono_left (l := bs) fun y _ => h y
  rw [List.countP_append, List.countP_append, List.countP_cons_of_pos hq,
    List.countP_cons_of_neg (by simp [hp])]
  omega

/-- Building a struct that was waiting starts no other one. -/
theorem unstarted_build {st : StructId} {rest : List Task} {w : WorkList} {s s' : FlattenState}
    (h : build cx st s = .ok () s') :
    unstarted cx ⟨rest, w.inProgress.erase st⟩ s' ≤ unstarted cx w s := by
  apply List.countP_mono_left
  intro i _ hi
  simp only [isUnstarted, handle?_build cx h, and_true, Bool.and_eq_true, decide_eq_true_eq] at hi ⊢
  split at hi
  · simp at hi
  · next hne => rwa [List.mem_erase_of_ne hne] at hi

/-- A turn starts one more struct, or it starts none and takes a task from the stack. -/
theorem unstarted_turn {w w' : WorkList} {s s' : FlattenState} (hne : w.stack ≠ [])
    (h : turn cx w s = .ok w' s') :
    Prod.Lex (· < ·) (· < ·) (unstarted cx w' s', w'.stack.length)
      (unstarted cx w s, w.stack.length) := by
  obtain ⟨_ | ⟨⟨st, ready⟩, rest⟩, waiting⟩ := w
  · exact absurd rfl hne
  rw [turn_cons] at h
  split at h
  · cases h
    exact .right _ (Nat.lt_succ_self _)
  next hnone =>
  split at h
  · split at h
    · next hb =>
      cases h
      rcases Nat.lt_or_eq_of_le (unstarted_build cx (w := ⟨⟨st, ready⟩ :: rest, waiting⟩) hb)
        with hlt | heq
      · exact .left _ _ hlt
      · rw [heq]; exact .right _ (Nat.lt_succ_self _)
    · cases h
  split at h
  · cases h
  next hw =>
  split at h
  · cases h
  next ho =>
  cases h
  have hlt := Structs.lt_size_of_body (Bool.eq_false_iff.2 ho)
  apply Prod.Lex.left
  apply countP_lt_countP (x := st.idx) _ (List.mem_range.2 hlt)
  · simp [isUnstarted]
  · simpa [isUnstarted, hw] using hnone
  · intro i
    simp only [isUnstarted, Bool.and_eq_true, decide_eq_true_eq, List.mem_cons, not_or]
    exact fun hi => ⟨hi.1, hi.2.2⟩

/-- Works until nothing is left to do. -/
def drainFrom (w : WorkList) (s : FlattenState) : EStateM.Result Fault FlattenState Unit :=
  if _hne : w.stack = [] then .ok () s
  else
    match _h : turn cx w s with
    | .ok w' s' => drainFrom w' s'
    | .error e s' => .error e s'
  termination_by (unstarted cx w s, w.stack.length)
  decreasing_by exact unstarted_turn cx _hne _h

theorem drainFrom_nil (waiting : List StructId) (s : FlattenState) :
    drainFrom cx ⟨[], waiting⟩ s = .ok () s := by
  rw [drainFrom, dif_pos rfl]

theorem drainFrom_of_ok {w w' : WorkList} {s s' : FlattenState} (hne : w.stack ≠ [])
    (h : turn cx w s = .ok w' s') : drainFrom cx w s = drainFrom cx w' s' := by
  rw [drainFrom, dif_neg hne]
  split
  · next h' => rw [h] at h'; cases h'; rfl
  · next h' => rw [h] at h'; cases h'

theorem drainFrom_of_error {w : WorkList} {s s' : FlattenState} {e : Fault} (hne : w.stack ≠ [])
    (h : turn cx w s = .error e s') : drainFrom cx w s = .error e s' := by
  rw [drainFrom, dif_neg hne]
  split
  · next h' => rw [h] at h'; cases h'
  · next h' => rw [h] at h'; cases h'; rfl

/-- Works until nothing is left to do. -/
def drain (w : WorkList) : Flatten Unit :=
  drainFrom cx w

/-! ## Asking for structs -/

/-- The position of the descriptor of a struct, which is built if it is not there. -/
def handleOf (st : StructId) : Flatten Nat := do
  if (cx.structs.get st).isOpaque then
    throw (.worded (.opaqueType · .flatten) (cx.structs.label st))
  else
    match (← get).registry.handle? st cx.module.name with
    | some handle => return handle
    | none =>
      drain cx (.start st)
      built cx st

/-- Meets one struct of a module: remembers its names and, unless it is opaque, flattens it. -/
def meet (st : StructId) : Flatten Unit := do
  onRegistry fun r => r.registerName cx.structs st cx.home cx.module
  if (cx.structs.get st).isOpaque then
    emit .debug s!"skipping opaque type {(cx.structs.get st).name}"
  else
    let _ ← handleOf cx st

/-- Flattens every struct of a module that has a body, and counts the new descriptors. -/
def run : Flatten Nat := do
  let before := (← get).registry.size
  cx.module.structs.values.forM (meet cx)
  let count := (← get).registry.size - before
  emit .info s!"module {cx.module.name}: {count} struct types flattened"
  return count

end KernelObjects.Flatten
