import KernelObjects.Proofs.Registrations

/-!
# Modules that define a struct

A registry remembers for each struct the first module that the struct was registered under and that
defines it. A client keeps to one more rule here: a module that was handed to an analysis keeps its
table of structs. The modules that a registry remembers are then told by the registrations alone.

Results:
* `Owned.register`: what one registration does to the table of modules.
* `Session.offers_registers`: where an operation registers structs.
* `owned_replay`: the table of modules after any history.
* `definingModule?_history`: the module in which a struct is looked for.
-/
namespace KernelObjects

/-- The module that a struct is registered under defines it. -/
def Registration.isDefined (P : Program) (x : Registration) : Bool :=
  (P.module x.home).defines P.structs x.struct

/-! ## The table of modules -/

namespace Registry

/-- The table of modules holds for each struct the first one that it was registered under and that
defines it. -/
def Owned (P : Program) (r : Registry) (met : List Registration) : Prop :=
  ∀ st : StructId, r.owners.get? st.idx =
    (met.find? fun x => x.struct = st && x.isDefined P).map Registration.home

variable {P P' : Program} {r r' : Registry} {xs met : List Registration}

theorem Owned.congr (ht : r'.tables = r.tables) (h : r.Owned P met) : r'.Owned P met := by
  simp only [tables, Prod.mk.injEq] at ht
  intro st
  rw [ht.2.2]
  exact h st

theorem Owned.register (h : r.Owned P met) (x : Registration) :
    (r.register P x).Owned P (met ++ [x].filter (·.isNamed P.structs)) := by
  by_cases hl : (P.structs.get x.struct).isLiteral = true
  · have hskip : [x].filter (·.isNamed P.structs) = [] := by
      simp [Registration.isNamed, hl]
    rw [hskip, List.append_nil, Registry.register, registerName, if_pos hl]
    exact h
  · have hnew : [x].filter (·.isNamed P.structs) = [x] := by
      simp [Registration.isNamed, hl]
    rw [hnew, Registry.register, registerName, if_neg hl]
    intro st
    have hst := h st
    rw [List.find?_append]
    cases hd : x.isDefined P with
    | false =>
      have hno : (P.module x.home).defines P.structs x.struct = false := hd
      simp [hno, hst, hd]
    | true =>
      have hyes : (P.module x.home).defines P.structs x.struct = true := hd
      simp only [hyes, if_true, Slots.get?_insertNew]
      by_cases he : st = x.struct
      · subst he
        rw [if_pos rfl, hst]
        cases met.find? (fun y => y.struct = x.struct && y.isDefined P) <;> simp [hd]
      · have hidx : st.idx ≠ x.struct.idx := fun hi => he (congrArg StructId.mk hi)
        rw [if_neg hidx, hst]
        simp [Ne.symm he]

theorem Owned.enters (h : r.Owned P met) (he : r.Enters P xs r') :
    r'.Owned P (met ++ xs.filter (·.isNamed P.structs)) :=
  he.lift Owned.congr (fun x hr => hr.register x) h

/-- Names and tables of structs that stay as they are tell the same modules. -/
theorem Owned.kept (h : r.Owned P met) (hnamed : ∀ x ∈ met, x.isNamed P.structs = true)
    (hS : P.structs.KeepsNames P'.structs)
    (hT : ∀ x ∈ met, (P'.module x.home).structs = (P.module x.home).structs) : r.Owned P' met := by
  have hdefined : ∀ x ∈ met, x.isDefined P' = x.isDefined P := by
    intro x hx
    have hname : (P'.structs.get x.struct).name = (P.structs.get x.struct).name := by
      apply hS
      exact Structs.lt_size_of_named (by simpa [Registration.isNamed] using hnamed x hx)
    simp only [Registration.isDefined, Module.defines, hname, hT x hx]
  intro st
  rw [h st]
  exact congrArg _ (List.find?_congr fun x hx => by rw [hdefined x hx])

end Registry

/-! ## Where structs are registered -/

/-- All that a run registers, it registers under its module. -/
theorem Flatten.home_visits (cx : FlattenContext) (sts : List StructId) (s : FlattenState) :
    ∀ x ∈ visits cx sts s, x.home = cx.home := by
  induction sts generalizing s with
  | nil => nofun
  | cons st sts ih =>
    intro x hx
    rw [visits, List.cons_append, List.mem_cons, List.mem_append] at hx
    rcases hx with rfl | hx | hx
    · rfl
    · exact (enters_meet cx st s).homes x hx
    · cases he : meet cx st s with
      | ok u s' =>
        rw [he] at hx
        exact ih s' x hx
      | error e s' =>
        rw [he] at hx
        cases hx

/-- Structs are registered under a module that is handed over or that is remembered already. -/
theorem Session.offers_registers (s : Session) (a : AnalysisId) (op : Operation) :
    ∀ x ∈ op.registers a s, s.Offers op a x.home := by
  have hquiet : ∀ {r : Registry} {x : Registration}, r.origins = (s.analysis a).registry.origins →
      x ∉ r.origins.drop (s.analysis a).registry.size := by
    intro r x ho
    rw [ho, Registry.drop_origins]
    exact List.not_mem_nil
  have heffect := s.exec_effect op
  have hregisters := op.registers_of_no_run a s
  generalize op.exec s = s' at heffect hregisters
  intro x hx
  cases heffect with
  | edited P =>
    rw [hregisters rfl] at hx
    exact absurd hx (hquiet rfl)
  | ran a' home layout =>
    rw [Operation.registers, Operation.run?] at hx
    dsimp only at hx
    split at hx
    · next ha =>
      rw [Flatten.home_visits _ _ _ x hx, ha.1]
      exact .inl rfl
    · cases hx
  | asked hop a' st home layout offers =>
    rw [hregisters hop, Work.handleOf, after_flatten, analysis_takeOver] at hx
    by_cases ha : a = a' ∧ a'.idx < s.analyses.size
    · rw [if_pos ha] at hx
      obtain ⟨rfl, -⟩ := ha
      have hbuilt :=
        Flatten.enters_handleOf (Work.contextFor s a home layout) st (Work.stateFor s a)
      rw [hbuilt.homes x hx]
      exact offers
    · rw [if_neg ha] at hx
      exact absurd hx (hquiet rfl)
  | annotated hop program registries =>
    rw [hregisters hop] at hx
    exact absurd hx (hquiet (registries a).origins)

/-! ## Histories -/

/-- A module was handed to an analysis. -/
def Handed (a : AnalysisId) (ops : List Operation) (m : ModuleId) : Prop :=
  ∃ op ∈ ops, op.module? = some (a, m)

/-- No edit among the operations changes the table of structs of a module that the analysis was
handed before. -/
def TablesKept (a : AnalysisId) (ops : List Operation) : Prop :=
  EditsKeep (fun before P => ∀ m, Handed a before m →
    (P.module m).structs = ((replay before).program.module m).structs) ops

variable {a : AnalysisId} {ops : List Operation}

theorem Handed.cons {m : ModuleId} (h : Handed a ops m) (op : Operation) : Handed a (op :: ops) m :=
  let ⟨op', hop', hm⟩ := h
  ⟨op', List.mem_cons_of_mem op hop', hm⟩

/-- A module that was handed to an analysis has its table ever since. -/
theorem TablesKept.structs_eq {later before : List Operation} (h : TablesKept a (later ++ before))
    {m : ModuleId} (hm : Handed a before m) :
    ((replay (later ++ before)).program.module m).structs =
      ((replay before).program.module m).structs := by
  induction later with
  | nil => rfl
  | cons op later ih =>
    rw [List.cons_append] at h ⊢
    rw [← ih h.tail]
    rcases h.program_cons with he | ⟨P, -, he, hkept⟩
    · rw [he]
    · rw [he]
      obtain ⟨op', hop', hm⟩ := hm
      exact hkept m ⟨op', List.mem_append_right _ hop', hm⟩

theorem TablesKept.structs_of_handing {later before : List Operation} {op : Operation}
    (h : TablesKept a (later ++ op :: before)) {m : ModuleId} (hop : op.module? = some (a, m)) :
    ((replay (later ++ op :: before)).program.module m).structs =
      ((replay before).program.module m).structs := by
  rw [h.structs_eq ⟨op, List.mem_cons_self .., hop⟩, replay_cons]
  rcases (replay before).program_exec op with he | ⟨P, rfl, -⟩
  · rw [he]
  · cases hop

/-- After every history, the table of modules is told by its registrations, all of which are under
modules that the analysis was handed. -/
theorem owned_replay (hn : NamesKept ops) (ht : TablesKept a ops) :
    ((replay ops).analysis a).registry.Owned (replay ops).program (registrations a ops) ∧
      ∀ x ∈ registrations a ops, Handed a ops x.home := by
  induction ops with
  | nil =>
    have hempty : ((replay []).analysis a).registry = {} := Session.registry_empty a
    rw [hempty]
    exact ⟨fun _ => rfl, nofun⟩
  | cons op ops ih =>
    obtain ⟨howned, hhanded⟩ := ih hn.tail ht.tail
    have henters := howned.enters ((replay ops).enters_exec a op)
    have hoffers := (replay ops).offers_registers a op
    have hnamed := ((records_replay hn.tail a).enters ((replay ops).enters_exec a op)).named
    -- what is registered now is registered under the module of the operation or of an earlier one
    have hhome : ∀ x ∈ registrations a (op :: ops),
        Handed a ops x.home ∨ op.module? = some (a, x.home) := by
      intro x hx
      rcases List.mem_append.1 hx with hx | hx
      · exact .inl (hhanded x hx)
      · rcases hoffers x (List.mem_of_mem_filter hx) with hop | ⟨i, hi⟩
        · exact .inr hop
        · rw [howned ⟨i⟩] at hi
          obtain ⟨y, hy, hyx⟩ := Option.map_eq_some_iff.1 hi
          exact .inl (hyx ▸ hhanded y (List.mem_of_find?_eq_some hy))
    refine ⟨?_, fun x hx => ?_⟩
    · rcases ht.program_cons with he | ⟨P, rfl, he, hkept⟩
      · rw [he]
        exact henters
      · rw [he]
        refine henters.kept hnamed (hn P ops (List.suffix_refl _)) fun x hx => ?_
        exact hkept _ ((hhome x hx).resolve_right nofun)
    · rcases hhome x hx with h | h
      · exact h.cons op
      · exact ⟨op, List.mem_cons_self .., h⟩

/-! ## The module in which a struct is looked for -/

/-- A module if it defines a struct, else the first one that the struct was registered under and
that defines it. -/
def homeFor (P : Program) (met : List Registration) (st : StructId) (home : ModuleId) :
    Option ModuleId :=
  if (P.module home).defines P.structs st then some home
  else (met.find? fun x => x.struct = st && x.isDefined P).map Registration.home

theorem definingModule?_history (hn : NamesKept ops) (ht : TablesKept a ops) (st : StructId)
    (home : ModuleId) :
    ((replay ops).analysis a).registry.definingModule? (replay ops).program st (some home) =
      homeFor (replay ops).program (registrations a ops) st home := by
  rw [homeFor, ← (owned_replay hn ht).1 st]
  rfl

theorem defines_of_homeFor {P : Program} {met : List Registration} {st : StructId}
    {home m : ModuleId} (h : homeFor P met st home = some m) :
    (P.module m).defines P.structs st = true := by
  unfold homeFor at h
  split at h
  · next hd =>
    cases h
    exact hd
  · obtain ⟨x, hx, rfl⟩ := Option.map_eq_some_iff.1 h
    have hfound := List.find?_some hx
    simp only [Bool.and_eq_true, decide_eq_true_eq] at hfound
    rw [← hfound.1]
    exact hfound.2

theorem homeFor_eq_none {P : Program} {met : List Registration} {st : StructId}
    {home : ModuleId} (hhome : (P.module home).defines P.structs st = false)
    (hmet : ∀ x ∈ met, x.struct = st → (P.module x.home).defines P.structs st = false) :
    homeFor P met st home = none := by
  rw [homeFor, hhome, List.find?_eq_none.2]
  · rfl
  · intro x hx
    rw [Bool.and_eq_true, decide_eq_true_eq]
    rintro ⟨rfl, hd⟩
    exact Bool.false_ne_true ((hmet x hx rfl).symm.trans hd)

end KernelObjects
