import KernelObjects.Proofs.Operations
import KernelObjects.Proofs.Stable

/-!
# What an operation does, whatever it finds

Nothing is asked of the client here: bodies may be replaced, layouts may be missing, and every
operation may fail at any point. An operation still does one of four things only: it edits the
program, flattens a module, asks for one struct, or annotates at most one descriptor of a registry.

Results:
* `Session.exec_effect`: every operation does one of those.
-/
namespace KernelObjects

/-- At most one descriptor of a registry is annotated. -/
inductive Registry.Annotated (r : Registry) : Registry → Prop where
  | same : Annotated r r
  | one (n : Nat) (f : Descriptor → Descriptor)
      (h : (r.descriptor n).Annotates (f (r.descriptor n))) : Annotated r (r.modify n f)

namespace Registry.Annotated

variable {r r' : Registry}

theorem of_eq (h : r' = r) : r.Annotated r' :=
  h ▸ .same

theorem size (h : r.Annotated r') : r'.size = r.size := by
  cases h with
  | same => rfl
  | one n f h => exact Array.size_modify

theorem descriptor (h : r.Annotated r') (n : Nat) :
    r'.descriptor n = r.descriptor n ∨ (r.descriptor n).Annotates (r'.descriptor n) := by
  cases h with
  | same => exact .inl rfl
  | one k f h =>
    by_cases hk : k < r.size
    · rw [descriptor_modify r k n f hk]
      split
      · next he => rw [he]; exact .inr h
      · exact .inl rfl
    · exact .inl (descriptor_modify_of_size_le f n (Nat.le_of_not_lt hk))

end Registry.Annotated

/-- The module that an operation flattens, for which analysis and on which layout. -/
def Operation.run? : Operation → Option (AnalysisId × ModuleId × Option LayoutId)
  | .event (.run a home layout) => some (a, home, layout)
  | _ => none

/-- The module that an operation hands to an analysis. -/
def Operation.module? : Operation → Option (AnalysisId × ModuleId)
  | .event (.describe a _ home _) | .event (.locate a _ home _) | .event (.run a home _)
  | .containers a _ home => some (a, home)
  | _ => none

namespace Session

/-- A module that an operation works on for an analysis: the one that it hands over, or one that the
analysis remembers to define a struct. -/
def Offers (s : Session) (op : Operation) (a : AnalysisId) (home : ModuleId) : Prop :=
  op.module? = some (a, home) ∨ ∃ i, (s.analysis a).registry.owners.get? i = some home

/-- What an operation does. -/
inductive Effect (s : Session) : Operation → Session → Prop where
  | edited (P : Program) : Effect s (.event (.edit P)) { s with program := P }
  | ran (a : AnalysisId) (home : ModuleId) (layout : Option LayoutId) :
      Effect s (.event (.run a home layout)) (after (Work.run a home layout) s)
  | asked {op : Operation} (h : op.run? = none) (a : AnalysisId) (st : StructId) (home : ModuleId)
      (layout : Option LayoutId) (offers : s.Offers op a home) :
      Effect s op (after (Work.handleOf a st home layout) s)
  | annotated {op : Operation} {s' : Session} (h : op.run? = none)
      (program : s'.program = s.program)
      (registries : ∀ a, (s.analysis a).registry.Annotated (s'.analysis a).registry) :
      Effect s op s'

theorem annotated_modifyDescriptor {s : Session} {d : DescriptorRef} {f : Descriptor → Descriptor}
    (h : (s.descriptor d).Annotates (f (s.descriptor d))) (a : AnalysisId) :
    (s.analysis a).registry.Annotated ((s.modifyDescriptor d f).analysis a).registry := by
  cases d with
  | loose i => exact .same
  | listed a' n =>
    have hget := s.analysis_modify a' a fun x => { x with registry := x.registry.modify n f }
    rw [modifyDescriptor, hget]
    split
    · next he =>
      rw [he.1]
      exact .one n f h
    · exact .same

theorem Effect.modified {s : Session} {op : Operation} {d : DescriptorRef}
    {f : Descriptor → Descriptor} (hop : op.run? = none)
    (h : (s.descriptor d).Annotates (f (s.descriptor d))) :
    Effect s op (s.modifyDescriptor d f) := by
  refine .annotated hop ?_ (annotated_modifyDescriptor h)
  cases d <;> rfl

theorem exec_effect (s : Session) (op : Operation) : Effect s op (op.exec s) := by
  cases op with
  | event e =>
    cases e with
    | edit P => exact .edited P
    | addLayout t => exact .annotated rfl rfl fun _ => .same
    | addSettings x => exact .annotated rfl rfl fun _ => .same
    | addAllocator id family name => exact .annotated rfl rfl fun _ => .same
    | addTracker => exact .annotated rfl rfl fun _ => .same
    | addAnalysis settings tracker =>
      cases settings <;> cases tracker <;>
        exact .annotated rfl rfl fun a => .of_eq (s.registry_push _ rfl a)
    | describe a st home layout =>
      rw [Operation.exec, Event.exec, after_descriptorOf]
      exact .asked rfl a st home layout (.inl rfl)
    | locate a st home layout => exact .asked rfl a st home layout (.inl rfl)
    | run a home layout => exact .ran a home layout
  | containers a name home =>
    rw [Operation.exec]
    rcases s.after_containerNames a name home with he | ⟨st, m, -, hm, he⟩
    · rw [he]
      exact .annotated rfl rfl fun _ => .same
    · rw [he]
      refine .asked rfl a st m none ?_
      simp only [Registry.definingModule?] at hm
      split at hm
      · cases hm
        exact .inl rfl
      · exact .inr ⟨st.idx, hm⟩
  | ask id q =>
    rw [Operation.exec, after_askLayout]
    exact .annotated rfl rfl fun _ => .same
  | note d n => exact .modified rfl (.note _ n)
  | leakSource d offset v site =>
    simp only [Operation.exec, Work.addLeakSource, after, get_bind]
    cases hx : (s.descriptor d).addLeakSource offset v site with
    | none => exact .annotated rfl rfl fun _ => .same
    | some x =>
      obtain ⟨ledger, hl, rfl⟩ := Option.map_eq_some_iff.1 hx
      exact .modified rfl (.leak hl _)
  | leak l offset v site =>
    simp only [Operation.exec, Work.addLeak, after, get_bind]
    cases hx : (s.ledger l).add offset v site with
    | none => exact .annotated rfl rfl fun _ => .same
    | some ledger =>
      cases l with
      | ofDescriptor d => exact .modified rfl (.leak hx _)
      | loose i => exact .annotated rfl rfl fun _ => .same
  | record m tag inst left right branch =>
    cases m with
    | ofSite id => exact .annotated rfl rfl fun _ => .same
    | loose i => exact .annotated rfl rfl fun _ => .same
    | allocation d => exact .modified rfl (.checks _ _ _)
    | other d => exact .modified rfl (.checks _ _ _)
  | addSite x => exact .annotated rfl rfl fun _ => .same

theorem program_exec (s : Session) (op : Operation) :
    (op.exec s).program = s.program ∨ ∃ P, op = .event (.edit P) ∧ (op.exec s).program = P := by
  have heffect := s.exec_effect op
  generalize op.exec s = s' at heffect
  cases heffect with
  | edited P => exact .inr ⟨P, rfl, rfl⟩
  | ran a home layout =>
    rw [Work.run, after_flatten]
    exact .inl rfl
  | asked _ a st home layout _ =>
    rw [Work.handleOf, after_flatten]
    exact .inl rfl
  | annotated _ program _ => exact .inl program

end Session

/-! ## Histories -/

/-- The session after some operations, the latest operation first. -/
def replay (ops : List Operation) : Session :=
  ops.foldr (fun op s => op.exec s) {}

theorem replay_cons (op : Operation) (ops : List Operation) :
    replay (op :: ops) = op.exec (replay ops) :=
  rfl

theorem Runs.eq_replay {policy : AnalysisId → String → Target → Prop} {ops : List Operation}
    {s : Session} (h : Runs policy ops s) : s = replay ops := by
  induction h with
  | init => rfl
  | step _ op _ ih => rw [ih, replay_cons]

/-- Every edit among the operations keeps to a rule, which may look at the operations before it. -/
def EditsKeep (rule : List Operation → Program → Prop) (ops : List Operation) : Prop :=
  ∀ P before, .event (.edit P) :: before <:+ ops → rule before P

namespace EditsKeep

variable {rule : List Operation → Program → Prop} {op : Operation} {ops ops' : List Operation}

theorem nil : EditsKeep rule [] := by
  intro P before hs
  exact absurd (List.suffix_nil.1 hs) (List.cons_ne_nil _ _)

theorem cons (h : EditsKeep rule ops) (hop : ∀ P, op = .event (.edit P) → rule ops P) :
    EditsKeep rule (op :: ops) := by
  intro P before hs
  rcases List.suffix_cons_iff.1 hs with he | hs
  · cases he
    exact hop P rfl
  · exact h P before hs

theorem suffix (h : EditsKeep rule ops) (hs : ops' <:+ ops) : EditsKeep rule ops' :=
  fun P before hb => h P before (hb.trans hs)

theorem tail (h : EditsKeep rule (op :: ops)) : EditsKeep rule ops :=
  h.suffix (List.suffix_cons op ops)

/-- An operation leaves the program as it is, or edits it by the rule. -/
theorem program_cons (h : EditsKeep rule (op :: ops)) :
    (replay (op :: ops)).program = (replay ops).program ∨
      ∃ P, op = .event (.edit P) ∧ (replay (op :: ops)).program = P ∧ rule ops P := by
  rcases (replay ops).program_exec op with he | ⟨P, rfl, he⟩
  · exact .inl he
  · exact .inr ⟨P, rfl, he, h P ops (List.suffix_refl _)⟩

end EditsKeep

end KernelObjects
