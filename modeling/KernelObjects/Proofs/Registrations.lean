import Mathlib.Data.List.Find
import KernelObjects.Proofs.Effects

/-!
# Names over a history of registrations

A registry remembers a struct when a run of its module visits it, opaque or not, and once more when
its descriptor is complete; structs that others embed are complete before those. The first struct of
a name keeps the name, and the first one of a base name keeps the base name, so the answer to a name
is told by the order of the registrations alone.

Results:
* `Records.register`: what one registration does to the two tables.
* `Flatten.enters_handleOf`, `Flatten.enters_run`: what a request and a run register, failed or
  not, and in which order.
* `records_replay`: the tables after any history.
* `structNamed?_history`: the answer to a name, and how it may change.
-/
namespace KernelObjects

/-- A struct that is registered, and the module that it is registered under. -/
structure Registration where
  struct : StructId
  home : ModuleId
  deriving DecidableEq, Repr

namespace Registration

/-- A literal struct has no name. -/
def isNamed (S : Structs) (x : Registration) : Bool :=
  !(S.get x.struct).isLiteral

def name (S : Structs) (x : Registration) : String :=
  (S.get x.struct).name

def baseName (S : Structs) (x : Registration) : String :=
  (S.get x.struct).baseName

end Registration

/-! ## The two tables -/

/-- A table in which the first of several values for a key is kept. -/
theorem Table.get?_insertNew_first {κ υ α : Type} [DecidableEq κ] {t : Table κ υ} {xs : List α}
    (key : α → κ) (val : α → υ) (h : ∀ k, t.get? k = (xs.find? fun x => key x = k).map val) (x : α)
    (k : κ) : (t.insertNew (key x) (val x)).get? k =
      ((xs ++ [x]).find? fun x => key x = k).map val := by
  rw [Table.get?_insertNew, h, h, List.find?_append]
  by_cases hk : k = key x
  · subst hk
    cases xs.find? (fun y => key y = key x) <;> simp
  · have hne : key x ≠ k := fun he => hk he.symm
    simp [hk, hne]

namespace Registry

/-- The tables of names hold what some registrations have entered, the first one first. -/
structure Records (S : Structs) (r : Registry) (met : List Registration) : Prop where
  named : ∀ x ∈ met, x.isNamed S = true
  names : ∀ n, r.names.get? n = (met.find? fun x => x.name S = n).map Registration.struct
  aliases : ∀ n, r.aliases.get? n = (met.find? fun x => x.baseName S = n).map Registration.struct

/-- Registers a struct. -/
def register (P : Program) (r : Registry) (x : Registration) : Registry :=
  r.registerName P.structs x.struct x.home (P.module x.home)

/-- The tables that a registration changes. -/
def tables (r : Registry) : Table String StructId × Table String StructId × Slots ModuleId :=
  (r.names, r.aliases, r.owners)

/-- The tables of the second registry are those of the first one after some registrations. -/
def Enters (P : Program) (r : Registry) (xs : List Registration) (r' : Registry) : Prop :=
  r'.tables = (xs.foldl (register P) r).tables

variable {P : Program} {S : Structs} {r r' r'' : Registry} {xs ys met : List Registration}

theorem Records.congr (h : r.Records S met) (ht : r'.tables = r.tables) : r'.Records S met := by
  simp only [tables, Prod.mk.injEq] at ht
  refine ⟨h.named, ?_, ?_⟩
  · rw [ht.1]
    exact h.names
  · rw [ht.2.1]
    exact h.aliases

theorem Records.register (h : r.Records P.structs met) (x : Registration) :
    (r.register P x).Records P.structs (met ++ [x].filter (·.isNamed P.structs)) := by
  by_cases hl : (P.structs.get x.struct).isLiteral = true
  · have hskip : [x].filter (·.isNamed P.structs) = [] := by
      simp [Registration.isNamed, hl]
    rw [hskip, List.append_nil, Registry.register, registerName, if_pos hl]
    exact h
  · have hnamed : x.isNamed P.structs = true := by
      simp [Registration.isNamed, hl]
    have hnew : [x].filter (·.isNamed P.structs) = [x] := by
      simp [hnamed]
    rw [hnew, Registry.register, registerName, if_neg hl]
    refine ⟨fun y hy => ?_, fun n => ?_, fun n => ?_⟩
    · rcases List.mem_append.1 hy with hy | hy
      · exact h.named y hy
      · exact List.mem_singleton.1 hy ▸ hnamed
    · exact Table.get?_insertNew_first (Registration.name P.structs) Registration.struct
        h.names x n
    · exact Table.get?_insertNew_first (Registration.baseName P.structs) Registration.struct
        h.aliases x n

theorem tables_register (h : r'.tables = r.tables) (P : Program) (x : Registration) :
    (r'.register P x).tables = (r.register P x).tables := by
  simp only [tables, Prod.mk.injEq] at h
  obtain ⟨hn, ha, ho⟩ := h
  simp only [register, registerName, hn, ha, ho]
  split
  · simp only [tables, hn, ha, ho]
  · rfl

theorem tables_foldl_register (h : r'.tables = r.tables) (P : Program) (xs : List Registration) :
    (xs.foldl (register P) r').tables = (xs.foldl (register P) r).tables := by
  induction xs generalizing r r' with
  | nil => exact h
  | cons x xs ih => exact ih (tables_register h P x)

theorem Enters.congr (h : r.Enters P xs r') (ht : r''.tables = r'.tables) : r.Enters P xs r'' :=
  ht.trans h

theorem Enters.trans (h : r.Enters P xs r') (h' : r'.Enters P ys r'') :
    r.Enters P (xs ++ ys) r'' := by
  rw [Enters, List.foldl_append]
  exact Eq.trans h' (tables_foldl_register h P ys)

theorem Enters.snoc (h : r.Enters P xs r') (x : Registration) :
    r.Enters P (xs ++ [x]) (r'.register P x) :=
  h.trans rfl

/-- What the tables tell about registrations, one by one, they tell about all that are entered. -/
theorem Enters.lift {Q : Registry → List Registration → Prop}
    (hcongr : ∀ {r r' met}, r'.tables = r.tables → Q r met → Q r' met)
    (hregister : ∀ {r met} x, Q r met →
      Q (r.register P x) (met ++ [x].filter (·.isNamed P.structs)))
    (he : r.Enters P xs r') (h : Q r met) : Q r' (met ++ xs.filter (·.isNamed P.structs)) := by
  refine hcongr he ?_
  clear he
  induction xs generalizing r met with
  | nil =>
    rw [List.filter_nil, List.append_nil]
    exact h
  | cons x xs ih =>
    rw [← List.singleton_append, List.filter_append, ← List.append_assoc]
    exact ih (hregister x h)

/-- What registrations enter is recorded after what is recorded already. -/
theorem Records.enters (h : r.Records P.structs met) (he : r.Enters P xs r') :
    r'.Records P.structs (met ++ xs.filter (·.isNamed P.structs)) :=
  he.lift (fun ht hr => hr.congr ht) (fun x hr => hr.register x) h

/-! ## The order of the arena -/

/-- What the descriptors of a registry were built for, in the order in which they were completed. -/
def origins (r : Registry) : List Registration :=
  r.arena.toList.map fun d => ⟨d.type, d.home⟩

theorem length_origins (r : Registry) : r.origins.length = r.size := by
  simp [origins, size]

theorem drop_origins (r : Registry) : r.origins.drop r.size = [] :=
  List.drop_of_length_le (Nat.le_of_eq r.length_origins)

theorem origins_push (r : Registry) (st : StructId) (m : String) (d : Descriptor) :
    (r.push st m d).origins = r.origins ++ [⟨d.type, d.home⟩] := by
  simp [origins, push]

theorem origins_registerName (r : Registry) (S : Structs) (st : StructId) (home : ModuleId)
    (m : Module) : (r.registerName S st home m).origins = r.origins := by
  simp only [origins, registerName_arena]

theorem origins_modify {n : Nat} {f : Descriptor → Descriptor}
    (h : (r.descriptor n).Becomes (f (r.descriptor n))) : (r.modify n f).origins = r.origins := by
  refine List.ext_getElem? fun i => ?_
  simp only [origins, modify, List.getElem?_map, Array.getElem?_toList, Array.getElem?_modify]
  split
  · next he =>
    subst he
    cases hx : r.arena[n]? with
    | none => rfl
    | some d =>
      have hd : r.descriptor n = d := by simp [descriptor, hx]
      rw [hd] at h
      simp only [Option.map_some, h.type, h.home]
  · rfl

theorem Annotated.origins (h : r.Annotated r') : r'.origins = r.origins := by
  cases h with
  | same => rfl
  | one n f ha => exact origins_modify ha.becomes

theorem Annotated.tables (h : r.Annotated r') : r'.tables = r.tables := by
  cases h with
  | same => rfl
  | one n f ha => rfl

/-- The descriptors after the first `n` ones were built for a module, and were registered, in their
order, after `xs`. -/
structure EntersBuilt (P : Program) (home : ModuleId) (r : Registry) (xs : List Registration)
    (n : Nat) (r' : Registry) : Prop where
  le_size : n ≤ r'.size
  homes : ∀ x ∈ r'.origins.drop n, x.home = home
  enters : r.Enters P (xs ++ r'.origins.drop n) r'

theorem Enters.start (h : r.Enters P xs r') (home : ModuleId) :
    r.EntersBuilt P home xs r'.size r' := by
  refine ⟨Nat.le_refl _, ?_, ?_⟩
  · rw [drop_origins]
    nofun
  · rw [drop_origins, List.append_nil]
    exact h

end Registry

/-! ## Requests and runs -/

namespace Flatten

variable {cx : FlattenContext}

theorem stable_entersBuilt (cx : FlattenContext) (r : Registry) (xs : List Registration)
    (n : Nat) : Stable cx fun r' => r.EntersBuilt cx.program cx.home xs n r' where
  noted {r' h c o} hr := by
    have ho := r'.origins_modify (n := h) (f := (·.addContainer c o))
      (Descriptor.Annotates.container ..).becomes
    refine ⟨?_, ?_, ?_⟩
    · rw [← Registry.length_origins, ho, Registry.length_origins]
      exact hr.le_size
    · rw [ho]
      exact hr.homes
    · rw [ho]
      exact hr.enters.congr rfl
  built {r' st d} hr hd := by
    have hlength : n ≤ r'.origins.length := by
      rw [Registry.length_origins]
      exact hr.le_size
    have hdrop : (((r'.push st cx.module.name d).registerName cx.structs st cx.home
        cx.module).origins).drop n = r'.origins.drop n ++ [⟨st, cx.home⟩] := by
      rw [Registry.origins_registerName, Registry.origins_push, hd.type, hd.home,
        List.drop_append_of_le_length hlength]
    refine ⟨?_, ?_, ?_⟩
    · rw [← Registry.length_origins, Registry.origins_registerName, Registry.origins_push,
        List.length_append]
      exact Nat.le_add_right_of_le hlength
    · rw [hdrop]
      intro x hx
      rcases List.mem_append.1 hx with hx | hx
      · exact hr.homes x hx
      · exact congrArg Registration.home (List.mem_singleton.1 hx)
    · rw [hdrop, ← List.append_assoc]
      have hpush : r.Enters cx.program (xs ++ r'.origins.drop n) (r'.push st cx.module.name d) :=
        hr.enters.congr rfl
      exact hpush.snoc ⟨st, cx.home⟩

/-- A request registers what is completed for it. -/
theorem enters_handleOf (cx : FlattenContext) (st : StructId) (s : FlattenState) :
    s.registry.EntersBuilt cx.program cx.home [] s.registry.size
      (after (handleOf cx st) s).registry :=
  have hstart : s.registry.Enters cx.program [] s.registry := rfl
  (stable_entersBuilt cx s.registry [] s.registry.size).handleOf st s (hstart.start cx.home)

/-- A visit registers the struct first, and then what is completed for it. -/
theorem enters_meet (cx : FlattenContext) (st : StructId) (s : FlattenState) :
    s.registry.EntersBuilt cx.program cx.home [⟨st, cx.home⟩] s.registry.size
      (after (meet cx st) s).registry := by
  let r₁ := s.registry.registerName cx.structs st cx.home cx.module
  have hstart : s.registry.Enters cx.program [⟨st, cx.home⟩] r₁ := rfl
  have hsize : r₁.size = s.registry.size := Registry.size_registerName ..
  have hstable := stable_entersBuilt cx s.registry [⟨st, cx.home⟩] r₁.size
  have hrest : Preserves
      (fun s' => s.registry.EntersBuilt cx.program cx.home [⟨st, cx.home⟩] r₁.size s'.registry)
      (if (cx.structs.get st).isOpaque then
        emit .debug s!"skipping opaque type {(cx.structs.get st).name}"
      else do let _ ← handleOf cx st) := by
    split
    · exact .modify fun _ hs => hs
    · exact .bind (hstable.handleOf st) fun _ => .pure _
  rw [← hsize]
  exact hrest { s with registry := r₁ } (hstart.start cx.home)

/-- What a run registers, in order: each struct that it visits, and after it what is completed for
it; the run ends with the first failure. -/
def visits (cx : FlattenContext) : List StructId → FlattenState → List Registration
  | [], _ => []
  | st :: sts, s =>
    ⟨st, cx.home⟩ :: (after (meet cx st) s).registry.origins.drop s.registry.size ++
      match meet cx st s with
      | .ok _ s' => visits cx sts s'
      | .error _ _ => []

theorem enters_visits (cx : FlattenContext) (sts : List StructId) (s : FlattenState) :
    s.registry.Enters cx.program (visits cx sts s)
      (after (sts.forM (meet cx)) s).registry := by
  induction sts generalizing s with
  | nil => exact rfl
  | cons st sts ih =>
    have hmeet := (enters_meet cx st s).enters
    cases he : meet cx st s with
    | ok u s' =>
      have hforM : (st :: sts).forM (meet cx) s = sts.forM (meet cx) s' := bind_ok he
      rw [after, hforM, ← after, visits, he]
      rw [after_ok he] at hmeet ⊢
      exact hmeet.trans (ih s')
    | error e s' =>
      have hforM : (st :: sts).forM (meet cx) s = .error e s' := bind_error he
      rw [after_error hforM, visits, he, List.append_nil]
      rw [after_error he] at hmeet ⊢
      exact hmeet

theorem registry_run (cx : FlattenContext) (s : FlattenState) :
    (after (run cx) s).registry =
      (after (cx.module.structs.values.forM (meet cx)) s).registry := by
  unfold run
  simp only [after, get_bind]
  cases he : cx.module.structs.values.forM (meet cx) s with
  | ok u s' =>
    rw [bind_ok he]
    rfl
  | error e s' =>
    rw [bind_error he]

theorem enters_run (cx : FlattenContext) (s : FlattenState) :
    s.registry.Enters cx.program (visits cx cx.module.structs.values s)
      (after (run cx) s).registry := by
  rw [registry_run]
  exact enters_visits cx _ s

end Flatten

/-! ## Histories -/

/-- What an operation registers in an analysis, in order. -/
def Operation.registers (a : AnalysisId) (s : Session) (op : Operation) : List Registration :=
  match op.run? with
  | some (a', home, layout) =>
    if a' = a ∧ a.idx < s.analyses.size then
      let cx := Work.contextFor s a home layout
      Flatten.visits cx cx.module.structs.values (Work.stateFor s a)
    else []
  | none => ((op.exec s).analysis a).registry.origins.drop (s.analysis a).registry.size

/-- The structs with names that some operations have registered in an analysis, the first one
first. -/
def registrations (a : AnalysisId) : List Operation → List Registration
  | [] => []
  | op :: ops =>
    let s := replay ops
    registrations a ops ++ (op.registers a s).filter (·.isNamed s.program.structs)

theorem Operation.registers_of_no_run (op : Operation) (a : AnalysisId) (s : Session)
    (h : op.run? = none) : op.registers a s =
      ((op.exec s).analysis a).registry.origins.drop (s.analysis a).registry.size := by
  rw [registers, h]

theorem Session.enters_exec (s : Session) (a : AnalysisId) (op : Operation) :
    (s.analysis a).registry.Enters s.program (op.registers a s)
      ((op.exec s).analysis a).registry := by
  have hquiet : ∀ {r : Registry}, r.origins = (s.analysis a).registry.origins →
      r.tables = (s.analysis a).registry.tables →
      (s.analysis a).registry.Enters s.program
        (r.origins.drop (s.analysis a).registry.size) r := by
    intro r ho ht
    rw [ho, Registry.drop_origins]
    exact ht
  have heffect := s.exec_effect op
  have hregisters := op.registers_of_no_run a s
  generalize op.exec s = s' at heffect hregisters ⊢
  cases heffect with
  | edited P =>
    rw [hregisters rfl]
    exact hquiet rfl rfl
  | ran a' home layout =>
    rw [Operation.registers, Operation.run?, Work.run, after_flatten, analysis_takeOver]
    dsimp only
    by_cases ha : a' = a ∧ a.idx < s.analyses.size
    · obtain ⟨rfl, ha⟩ := ha
      rw [if_pos ⟨rfl, ha⟩, if_pos ⟨rfl, ha⟩]
      exact Flatten.enters_run (Work.contextFor s a' home layout) (Work.stateFor s a')
    · have ha' : ¬ (a = a' ∧ a'.idx < s.analyses.size) := by
        rintro ⟨he, hlt⟩
        exact ha ⟨he.symm, he ▸ hlt⟩
      rw [if_neg ha, if_neg ha']
      rfl
  | asked hop a' st home layout _ =>
    rw [hregisters hop, Work.handleOf, after_flatten, analysis_takeOver]
    by_cases ha : a = a' ∧ a'.idx < s.analyses.size
    · rw [if_pos ha, ← ha.1]
      have hasked := Flatten.enters_handleOf (Work.contextFor s a home layout) st
      exact (hasked (Work.stateFor s a)).enters
    · rw [if_neg ha]
      exact hquiet rfl rfl
  | annotated hop program registries =>
    rw [hregisters hop]
    exact hquiet (registries a).origins (registries a).tables

/-- Structs keep their names. -/
def Structs.KeepsNames (S S' : Structs) : Prop :=
  ∀ st : StructId, st.idx < S.size → (S'.get st).name = (S.get st).name

/-- No edit among the operations renames a struct. -/
def NamesKept (ops : List Operation) : Prop :=
  EditsKeep (fun before P => (replay before).program.structs.KeepsNames P.structs) ops

theorem Structs.lt_size_of_named {S : Structs} {st : StructId}
    (h : (S.get st).isLiteral = false) : st.idx < S.size := by
  apply Nat.lt_of_not_le
  intro hle
  simp [get, Array.getElem?_eq_none hle, StructDef.isLiteral] at h

theorem Registry.Records.keepsNames {S S' : Structs} {r : Registry} {met : List Registration}
    (h : r.Records S met) (hS : S.KeepsNames S') : r.Records S' met := by
  have hname : ∀ x ∈ met, x.name S' = x.name S := by
    intro x hx
    apply hS
    exact Structs.lt_size_of_named (by simpa [Registration.isNamed] using h.named x hx)
  have hbase : ∀ x ∈ met, x.baseName S' = x.baseName S := fun x hx =>
    congrArg (fun name : String => String.ofList (baseNameChars name.toList)) (hname x hx)
  refine ⟨fun x hx => ?_, fun n => ?_, fun n => ?_⟩
  · have hnamed : x.isNamed S' = x.isNamed S :=
      congrArg (fun name : String => !name.toList.isEmpty) (hname x hx)
    rw [hnamed]
    exact h.named x hx
  · rw [h.names]
    exact congrArg _ (List.find?_congr fun x hx => by rw [hname x hx])
  · rw [h.aliases]
    exact congrArg _ (List.find?_congr fun x hx => by rw [hbase x hx])

theorem NamesKept.records {op : Operation} {ops : List Operation} (h : NamesKept (op :: ops))
    {r : Registry} {met : List Registration} (hr : r.Records (replay ops).program.structs met) :
    r.Records (replay (op :: ops)).program.structs met := by
  rcases h.program_cons with he | ⟨P, -, he, hkept⟩
  · rw [he]
    exact hr
  · rw [he]
    exact hr.keepsNames hkept

/-- After every history, the tables of names hold its registrations. -/
theorem records_replay {ops : List Operation} (h : NamesKept ops) (a : AnalysisId) :
    ((replay ops).analysis a).registry.Records (replay ops).program.structs
      (registrations a ops) := by
  induction ops with
  | nil =>
    have hempty : ((replay []).analysis a).registry = {} := Session.registry_empty a
    rw [hempty]
    exact ⟨nofun, fun _ => rfl, fun _ => rfl⟩
  | cons op ops ih =>
    apply h.records
    exact (ih h.tail).enters ((replay ops).enters_exec a op)

/-- The tables as they were before are told by the names as they are now. -/
theorem records_before (later before : List Operation) (h : NamesKept (later ++ before))
    (a : AnalysisId) :
    ((replay before).analysis a).registry.Records (replay (later ++ before)).program.structs
      (registrations a before) := by
  induction later with
  | nil => exact records_replay h a
  | cons op later ih => exact h.records (ih h.tail)

theorem exists_registrations_append (a : AnalysisId) (later before : List Operation) :
    ∃ new, registrations a (later ++ before) = registrations a before ++ new := by
  induction later with
  | nil => exact ⟨[], (List.append_nil _).symm⟩
  | cons op later ih =>
    obtain ⟨new, hnew⟩ := ih
    refine ⟨new ++ (op.registers a (replay (later ++ before))).filter
      (·.isNamed (replay (later ++ before)).program.structs), ?_⟩
    rw [List.cons_append, registrations, hnew, List.append_assoc]

/-! ## The answer to a name -/

/-- The first struct of a name, else the first one of a base name. -/
def firstNamed (S : Structs) (n : String) (met : List Registration) : Option StructId :=
  ((met.find? fun x => x.name S = n).or (met.find? fun x => x.baseName S = n)).map
    Registration.struct

theorem Registry.Records.structNamed?_eq {S : Structs} {r : Registry} {met : List Registration}
    (h : r.Records S met) (n : String) : r.structNamed? n = firstNamed S n met := by
  rw [structNamed?, h.names, h.aliases, firstNamed, Option.map_or]

/-- How good an answer is: none, a base name, or the name. -/
def grade (S : Structs) (n : String) : Option StructId → Nat
  | none => 0
  | some st => if (S.get st).name = n then 2 else 1

theorem grade_le (S : Structs) (n : String) (st : Option StructId) : grade S n st ≤ 2 := by
  unfold grade
  split
  · exact Nat.zero_le _
  · split <;> omega

/-- With more registrations an answer stays, or it gets better. -/
theorem firstNamed_append (S : Structs) (n : String) (met new : List Registration) :
    firstNamed S n (met ++ new) = firstNamed S n met ∨
      grade S n (firstNamed S n met) < grade S n (firstNamed S n (met ++ new)) := by
  simp only [firstNamed, List.find?_append]
  cases hexact : met.find? (fun x => x.name S = n) with
  | some x => exact .inl (by simp)
  | none =>
    have hother : ∀ x ∈ met, (S.get x.struct).name ≠ n := fun x hx he =>
      List.find?_eq_none.1 hexact x hx (decide_eq_true he)
    cases hnew : new.find? (fun x => x.name S = n) with
    | some y =>
      right
      have hfound := List.find?_some hnew
      have hy : (S.get y.struct).name = n := of_decide_eq_true hfound
      cases halias : met.find? (fun x => x.baseName S = n) with
      | none => simp [grade, hy]
      | some z =>
        have hz := hother z (List.mem_of_find?_eq_some halias)
        simp [grade, hy, hz]
    | none =>
      cases halias : met.find? (fun x => x.baseName S = n) with
      | some z => exact .inl (by simp)
      | none =>
        cases new.find? (fun x => x.baseName S = n) with
        | none => exact .inl (by simp)
        | some w =>
          right
          simp only [Option.or_none, Option.none_or, Option.map_none, Option.map_some, grade]
          split <;> omega

/-- How often the answer to a name has changed along a history. -/
def changes (a : AnalysisId) (n : String) : List Operation → Nat
  | [] => 0
  | op :: ops =>
    let answer := fun ops => ((replay ops).analysis a).registry.structNamed? n
    changes a n ops + if answer (op :: ops) = answer ops then 0 else 1

theorem changes_le (later before : List Operation) (h : NamesKept (later ++ before))
    (a : AnalysisId) (n : String) :
    changes a n before ≤ grade (replay (later ++ before)).program.structs n
      (((replay before).analysis a).registry.structNamed? n) := by
  induction before generalizing later with
  | nil => exact Nat.zero_le _
  | cons op ops ih =>
    have hassoc : later ++ op :: ops = later ++ [op] ++ ops := by simp
    have hops := ih (later ++ [op]) (hassoc ▸ h)
    rw [← hassoc] at hops
    have hold := (records_before (later ++ [op]) ops (hassoc ▸ h) a).structNamed?_eq n
    rw [← hassoc] at hold
    have hnew := (records_before later (op :: ops) h a).structNamed?_eq n
    have hgrade := firstNamed_append (replay (later ++ op :: ops)).program.structs n
      (registrations a ops) ((op.registers a (replay ops)).filter
        (·.isNamed (replay ops).program.structs))
    rw [← registrations, ← hnew, ← hold] at hgrade
    rw [changes]
    dsimp only
    rcases hgrade with he | hlt
    · rw [if_pos he, he]
      exact hops
    · split <;> omega

/-- After every history, a name is answered with the first registered struct that has exactly this
name, else with the first one that has it as its base name, else with none. An answer stays for
ever, unless it is a base name and gives way to the name; so it changes at most twice. -/
theorem structNamed?_history (later before : List Operation) (h : NamesKept (later ++ before))
    (a : AnalysisId) (n : String) :
    let S := (replay (later ++ before)).program.structs
    let met := registrations a (later ++ before)
    let answer := fun ops => ((replay ops).analysis a).registry.structNamed? n
    answer (later ++ before) =
      ((met.find? fun x => (S.get x.struct).name = n).or
        (met.find? fun x => (S.get x.struct).baseName = n)).map Registration.struct ∧
    (∀ st, answer before = some st → answer (later ++ before) = some st ∨
      (S.get st).name ≠ n ∧ ∃ st', answer (later ++ before) = some st' ∧ (S.get st').name = n) ∧
    changes a n (later ++ before) ≤ 2 := by
  intro S met answer
  have hnow : answer (later ++ before) = firstNamed S n met :=
    (records_replay h a).structNamed?_eq n
  refine ⟨hnow, fun st hst => ?_, ?_⟩
  · have hbefore : answer before = firstNamed S n (registrations a before) :=
      (records_before later before h a).structNamed?_eq n
    obtain ⟨new, hnew⟩ := exists_registrations_append a later before
    have hgrade := firstNamed_append S n (registrations a before) new
    rw [← hnew, ← hbefore, ← hnow, hst] at hgrade
    rcases hgrade with he | hlt
    · exact .inl he
    · -- the new answer is better than a struct, so it has the name
      right
      have hle := grade_le S n (answer (later ++ before))
      cases hnext : answer (later ++ before) with
      | none => simp [hnext, grade] at hlt
      | some st' =>
        rw [hnext] at hlt hle
        simp only [grade] at hlt hle
        refine ⟨fun he => ?_, st', rfl, ?_⟩
        · rw [if_pos he] at hlt
          omega
        · by_contra hne
          rw [if_neg hne] at hlt
          split at hlt <;> omega
  · exact Nat.le_trans (changes_le [] _ h a n) (grade_le _ _ _)

/-- The first edit may name structs as it likes. -/
theorem namesKept_edit (P : Program) : NamesKept [.event (.edit P)] :=
  EditsKeep.nil.cons fun _ _ st hlt => absurd hlt (Nat.not_lt_zero st.idx)

/-- A module with a duplicate, and one with the struct that it is a duplicate of. -/
def duplicateProgram : Program :=
  { structs := ⟨#[{ name := "struct.node.7" }, { name := "struct.node" }]⟩
    modules := #[
      { name := "m", layout := ⟨0⟩, sourceFile := "m"
        structs := Table.insert ∅ "struct.node.7" ⟨0⟩ },
      { name := "n", layout := ⟨0⟩, sourceFile := "n"
        structs := Table.insert ∅ "struct.node" ⟨1⟩ }] }

/-- Runs of both modules, the duplicate first. -/
def duplicateOps : List Operation :=
  [Event.run ⟨0⟩ ⟨0⟩ none, .addAnalysis none none, .addLayout {}, .edit duplicateProgram].map .event

theorem namesKept_duplicateOps : NamesKept duplicateOps :=
  .cons (.cons (.cons (namesKept_edit _) nofun) nofun) nofun

/-- The name is answered with the duplicate until the struct itself is met. -/
theorem structNamed?_history_duplicate :
    let answer := fun ops => ((replay ops).analysis ⟨0⟩).registry.structNamed? "struct.node"
    let ops := .event (.run ⟨0⟩ ⟨1⟩ none) :: duplicateOps
    answer duplicateOps = some ⟨0⟩ ∧ answer ops = some ⟨1⟩ ∧
      changes ⟨0⟩ "struct.node" ops ≤ 2 := by
  intro answer ops
  obtain ⟨hbefore, -, -⟩ :=
    structNamed?_history [] duplicateOps namesKept_duplicateOps ⟨0⟩ "struct.node"
  obtain ⟨hafter, -, hchanges⟩ := structNamed?_history [.event (.run ⟨0⟩ ⟨1⟩ none)] duplicateOps
    (namesKept_duplicateOps.cons nofun) ⟨0⟩ "struct.node"
  exact ⟨hbefore.trans (by decide +kernel), hafter.trans (by decide +kernel), hchanges⟩

end KernelObjects
