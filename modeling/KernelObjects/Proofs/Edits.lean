import KernelObjects.Proofs.Construction

/-!
# Edits of a program

A client builds a program by edits: it makes constants, globals, functions, blocks and instructions,
puts values into blocks, and defines structs and modules, in any order. An edit that is refused
changes nothing. One thing is asked of the client: an edit names only what there is.

What there is stays what it is. A later edit can put a value somewhere and add users behind those it
has, and it can give a struct a body; kinds, names, types and operands never change.

Results:
* `Edit.grows`: every edit makes the program grow, in the sense of its steps.
* `Grows.extends`: what stays the same as a program grows.
* `Edited.made`, `Edited.rooted`: what holds of every program that edits have built.
* `Extends.instr?_eq`, `Extends.global?_eq` and the like: what can be asked about a value has the
  same answer ever after.
-/
namespace KernelObjects

open Relation

/-! ## Edits -/

/-- What a client does to a program. -/
inductive Edit where
  | value (type : Ty) (name : String)
  | constInt (n : Int) (type : Ty)
  | constNull (type : Ty)
  | constData (bytes : List UInt8) (elem : Ty)
  | constString (text : String) (terminated : Bool)
  | constExpr (opcode : String) (operands : List ValueId) (type : Ty) (inBounds : Bool)
  | constGep (base : ValueId) (indices : List Int) (inBounds : Bool)
  | constBitcast (v : ValueId) (type : Ty)
  | global (name : String) (type : Ty) (init : Option ValueId) (constant : Bool)
      (home : Option ModuleId)
  | function (name : String) (signature : Signature) (names : List String)
      (home : Option ModuleId)
  | declare (m : ModuleId) (name : String) (type : Ty)
  | addBlock (f : ValueId) (name : String)
  | looseBlock (name : String)
  | append (block v : ValueId)
  | instruction (i : Instr) (type : Ty) (name : String) (loc : Option Loc)
  | compare (predicate : String) (lhs rhs : ValueId) (name : String) (loc : Option Loc)
  | addModule (name : String) (layout : LayoutId) (sourceFile : String)
  | defineStruct (d : StructDef)
  | setBody (st : StructId) (elements : List Ty) (packed : Bool)
  | addStruct (m : ModuleId) (st : StructId)
  | createStruct (m : ModuleId) (d : StructDef)

/-- The program after a step that may be refused. -/
def Program.orSame {α : Type} (P : Program) : Except Fault (α × Program) → Program
  | .ok (_, P') => P'
  | .error _ => P

namespace Edit

/-- The program after an edit, also if it is refused. -/
def exec (P : Program) : Edit → Program
  | .value type name => (P.construct { type, name }).2
  | .constInt n type => (P.constInt n type).2
  | .constNull type => (P.constNull type).2
  | .constData bytes elem => (P.constData bytes elem).2
  | .constString text terminated => (P.constString text terminated).2
  | .constExpr opcode operands type inBounds => (P.constExpr opcode operands type inBounds).2
  | .constGep base indices inBounds => (P.constGep base indices inBounds).2
  | .constBitcast v type => (P.constBitcast v type).2
  | .global name type init constant home => (P.global name type init constant home).2
  | .function name signature names home => (P.function name signature names home).2
  | .declare m name type => P.orSame (P.declare m name type)
  | .addBlock f name => P.orSame (P.addBlock f name)
  | .looseBlock name => (P.looseBlock name).2
  | .append block v => P.orSame ((P.append block v).map ((), ·))
  | .instruction i type name loc => (P.instruction i type name loc).2
  | .compare predicate lhs rhs name loc =>
    P.orSame ((Predicate.ofText predicate).map fun p =>
      P.instruction (.icmp p lhs rhs) .unknown name loc)
  | .addModule name layout sourceFile => (P.addModule name layout sourceFile).2
  | .defineStruct d => (P.defineStruct d).2
  | .setBody st elements packed => P.setBody st elements packed
  | .addStruct m st => P.addStruct m st
  | .createStruct m d => (P.createStruct m d).2

/-- The values that an edit names. -/
def values : Edit → List ValueId
  | .constExpr _ operands _ _ => operands
  | .constGep base _ _ => [base]
  | .constBitcast v _ => [v]
  | .global _ _ init _ _ => init.toList
  | .addBlock f _ => [f]
  | .append block v => [block, v]
  | .instruction i _ _ _ => i.operands
  | .compare _ lhs rhs _ _ => [lhs, rhs]
  | _ => []

/-- The structs that an edit names, or that the type of a new global is about. -/
def structs : Edit → List StructId
  | .global _ type _ _ _ => type.underlyingStruct?.toList
  | .setBody st _ _ | .addStruct _ st => [st]
  | _ => []

/-- What is asked of the client: what an edit names is there. -/
def Allowed (P : Program) (e : Edit) : Prop :=
  (∀ u ∈ e.values, u.idx < P.values.size) ∧ ∀ st ∈ e.structs, st.idx < P.structs.size

instance (P : Program) (e : Edit) : Decidable (e.Allowed P) :=
  inferInstanceAs (Decidable (_ ∧ _))

/-- The program after some edits. -/
def execAll (P : Program) : List Edit → Program
  | [] => P
  | e :: es => execAll (e.exec P) es

/-- Each of some edits is allowed where it is made. -/
def AllowedAll (P : Program) : List Edit → Prop
  | [] => True
  | e :: es => e.Allowed P ∧ AllowedAll (e.exec P) es

instance decidableAllowedAll (P : Program) : (es : List Edit) → Decidable (AllowedAll P es)
  | [] => .isTrue trivial
  | e :: es =>
    have := decidableAllowedAll (e.exec P) es
    inferInstanceAs (Decidable (_ ∧ _))

end Edit

/-- The programs that edits make of a program. -/
inductive Program.Edited (P : Program) : Program → Prop where
  | same : Edited P P
  | edit {Q : Program} (h : Edited P Q) (e : Edit) (ha : e.Allowed Q) : Edited P (e.exec Q)

theorem Program.Edited.execAll {P Q : Program} (h : P.Edited Q) {es : List Edit}
    (ha : Edit.AllowedAll Q es) : P.Edited (Edit.execAll Q es) := by
  induction es generalizing Q with
  | nil => exact h
  | cons e es ih => exact ih (h.edit e ha.1) ha.2

/-! ## Edits make a program grow -/

namespace Program

variable {P P' P'' : Program}

theorem Grows.global (P : Program) (name : String) {type : Ty} {init : Option ValueId}
    (constant : Bool) (home : Option ModuleId)
    (hinit : ∀ i, init = some i → i.idx < P.values.size)
    (htype : ∀ st, type.underlyingStruct? = some st → st.idx < P.structs.size) :
    P.Grows (P.global name type init constant home).2 := by
  have hgrows := Grows.build P
    (v := { type := .pointerTo type, name, kind := .global ⟨type, init, constant, home⟩ }) rfl
    nofun (by
      rintro g hg
      cases hg
      exact ⟨hinit, htype⟩)
  cases home with
  | none => exact hgrows
  | some m => exact hgrows.trans (Grows.modules _ _)

/-- A step that is refused changes nothing. -/
theorem grows_orSame {α : Type} {r : Except Fault (α × Program)}
    (h : ∀ a P', r = .ok (a, P') → P.Grows P') : P.Grows (P.orSame r) := by
  cases r with
  | error e => exact .refl
  | ok x => exact h x.1 x.2 rfl

end Program

theorem Edit.grows {P : Program} {e : Edit} (ha : e.Allowed P) : P.Grows (e.exec P) := by
  obtain ⟨hvalues, hstructs⟩ := ha
  cases e with
  | value type name => exact .leaf P rfl rfl nofun
  | constInt n type => exact .leaf P rfl rfl nofun
  | constNull type => exact .leaf P rfl rfl nofun
  | constData bytes elem => exact .leaf P rfl rfl nofun
  | constString text terminated => exact .leaf P rfl rfl nofun
  | constExpr opcode operands type inBounds => exact .constExpr P opcode type inBounds hvalues
  | constGep base indices inBounds =>
    exact .constGep P indices inBounds (hvalues base (List.mem_singleton_self base))
  | constBitcast v type => exact .constExpr P "bitcast" type false hvalues
  | global name type init constant home =>
    refine .global P name constant home (fun i hi => hvalues i ?_) fun st hst => hstructs st ?_
    · rw [Edit.values, hi]
      exact List.mem_singleton_self i
    · rw [Edit.structs, hst]
      exact List.mem_singleton_self st
  | function name signature names home => exact .function P name signature names home
  | declare m name type => exact Program.grows_orSame fun _ _ h => .declare h
  | addBlock f name => exact Program.grows_orSame fun _ _ h => .addBlock h
  | looseBlock name => exact .leaf P rfl rfl nofun
  | append block v =>
    refine Program.grows_orSame fun _ P' h => ?_
    cases hr : P.append block v with
    | error e => rw [hr] at h; cases h
    | ok Q => rw [hr] at h; cases h; exact .append hr
  | instruction i type name loc => exact .instruction P type name loc hvalues
  | compare predicate lhs rhs name loc =>
    refine Program.grows_orSame fun _ P' h => ?_
    cases hp : Predicate.ofText predicate with
    | error e => rw [hp] at h; cases h
    | ok p => rw [hp] at h; cases h; exact .instruction P .unknown name loc hvalues
  | addModule name layout sourceFile => exact .modules P _
  | defineStruct d => exact .single (.define P d)
  | setBody st elements packed => exact .single (.body P st elements packed)
  | addStruct m st => exact .modules P _
  | createStruct m d => exact .trans (.single (.define P d)) (Program.Grows.modules _ _)

namespace Program

variable {P Q : Program}

theorem Edited.grows (h : P.Edited Q) : P.Grows Q := by
  induction h with
  | same => exact .refl
  | edit h e ha ih => exact ih.trans (e.grows ha)

theorem Edited.made (h : Edited {} P) : P.Made :=
  Made.grows .refl h.grows

end Program

/-! ## What stays -/

/-- What a value is for good: neither its place nor its users. -/
def Value.nature (v : Value) : Value :=
  { v.unplaced with users := [] }

namespace Program

variable {P Q R : Program}

/-- What one program keeps of another: its values, which gain no user but new values, behind those
that they have, and its structs, under their names. -/
structure Extends (P Q : Program) : Prop where
  size_le : P.values.size ≤ Q.values.size
  nature : ∀ v : ValueId, v.idx < P.values.size → (Q.value v).nature = (P.value v).nature
  users : ∀ v : ValueId, v.idx < P.values.size →
    ∃ later, (Q.value v).users = (P.value v).users ++ later ∧ ∀ u ∈ later, P.values.size ≤ u.idx
  structs_le : P.structs.size ≤ Q.structs.size
  name : ∀ st : StructId, st.idx < P.structs.size →
    (Q.structs.get st).name = (P.structs.get st).name

namespace Extends

theorem refl (P : Program) : P.Extends P where
  size_le := Nat.le_refl _
  nature _ _ := rfl
  users _ _ := ⟨[], by simp, by simp⟩
  structs_le := Nat.le_refl _
  name _ _ := rfl

theorem trans (h : P.Extends Q) (h' : Q.Extends R) : P.Extends R where
  size_le := Nat.le_trans h.size_le h'.size_le
  nature v hv := (h'.nature v (Nat.lt_of_lt_of_le hv h.size_le)).trans (h.nature v hv)
  users v hv := by
    obtain ⟨later, he, hlater⟩ := h.users v hv
    obtain ⟨later', he', hlater'⟩ := h'.users v (Nat.lt_of_lt_of_le hv h.size_le)
    refine ⟨later ++ later', by rw [he', he, List.append_assoc], fun u hu => ?_⟩
    rcases List.mem_append.1 hu with hu | hu
    · exact hlater u hu
    · exact Nat.le_trans h.size_le (hlater' u hu)
  structs_le := Nat.le_trans h.structs_le h'.structs_le
  name st hst := (h'.name st (Nat.lt_of_lt_of_le hst h.structs_le)).trans (h.name st hst)

/-- Values that change in their places only. -/
theorem of_unplaced (hsize : Q.values.size = P.values.size)
    (hvalue : ∀ v, (Q.value v).unplaced = (P.value v).unplaced) (hstructs : Q.structs = P.structs) :
    P.Extends Q where
  size_le := Nat.le_of_eq hsize.symm
  nature v _ := congrArg (fun x : Value => { x with users := [] }) (hvalue v)
  users v _ := ⟨[], (congrArg (·.users) (hvalue v)).trans (List.append_nil _).symm, by simp⟩
  structs_le := Nat.le_of_eq (by rw [hstructs])
  name st _ := by rw [hstructs]

theorem construct (P : Program) (v : Value) : P.Extends (P.construct v).2 where
  size_le := by rw [size_construct]; exact Nat.le_succ _
  nature u hu := by rw [value_construct_users P v u hu]; rfl
  users u hu := by
    rw [value_construct_users P v u hu]
    refine ⟨_, rfl, fun w hw => ?_⟩
    obtain rfl := List.eq_of_mem_replicate hw
    exact Nat.le_refl _
  structs_le := Nat.le_refl _
  name _ _ := rfl

/-- Structs that keep their names, under values that stay as they are. -/
theorem of_structs {S : Structs} (hsize : P.structs.size ≤ S.size)
    (hname : ∀ st : StructId, st.idx < P.structs.size →
      (S.get st).name = (P.structs.get st).name) : P.Extends { P with structs := S } where
  size_le := Nat.le_refl _
  nature _ _ := rfl
  users _ _ := ⟨[], by simp [value], by simp⟩
  structs_le := hsize
  name := hname

end Extends

theorem Growth.extends (h : Growth P Q) : P.Extends Q := by
  cases h with
  | build v unused older rooted => exact .construct P v
  | place v f same => exact .of_unplaced Array.size_modify (unplaced_modifyValue same) rfl
  | modules modules => exact .of_unplaced rfl (fun _ => rfl) rfl
  | define d =>
    refine .of_structs (S := (P.structs.define d).2) ?_ fun st hst => ?_
    · simp [Structs.define, Structs.size]
    · rw [Structs.get_define, if_neg (Nat.ne_of_lt hst)]
  | body st elements packed =>
    refine .of_structs ?_ fun st' _ => Structs.name_setBody ..
    simp [Structs.setBody, Structs.size]

theorem Grows.extends (h : P.Grows Q) : P.Extends Q := by
  induction h with
  | refl => exact .refl P
  | tail _ hs ih => exact ih.trans hs.extends

theorem Edited.extends (h : P.Edited Q) : P.Extends Q :=
  h.grows.extends

end Program

/-! ## What can be asked about a value -/

/-- Two kinds that differ in their places at most. -/
theorem ValueKind.unplaced_elim {motive : ValueKind → ValueKind → Prop} {k k' : ValueKind}
    (h : k'.unplaced = k.unplaced) (same : ∀ k, motive k k)
    (function : ∀ f f', motive (.function f') (.function f))
    (block : ∀ owner members owner' members',
      motive (.block owner' members') (.block owner members))
    (instr : ∀ i loc parent parent', motive (.instr i loc parent') (.instr i loc parent)) :
    motive k' k := by
  cases k with
  | function f =>
    cases k' with
    | function f' => exact function f f'
    | _ => cases h
  | block owner members =>
    cases k' with
    | block owner' members' => exact block owner members owner' members'
    | _ => cases h
  | instr i loc parent =>
    cases k' with
    | instr i' loc' parent' => cases h; exact instr i loc parent parent'
    | _ => cases h
  | _ =>
    cases k' with
    | function | block | instr => cases h
    | _ => exact Eq.subst (motive := fun x => motive x _) h.symm (same _)

namespace Program

variable {P Q : Program}

theorem lt_size_of_kind {v : ValueId} (h : (P.value v).kind ≠ .plain) :
    v.idx < P.values.size := by
  refine Nat.lt_of_not_le fun hle => h ?_
  rw [value_of_size_le hle]

theorem Linked.lt_size {v u : ValueId} (hl : P.Linked) (h : u ∈ (P.value v).operands) :
    u.idx < P.values.size :=
  Nat.lt_trans (hl.older h).1 (hl.older h).2

theorem Linked.lt_size_of_user {v u : ValueId} (hl : P.Linked) (h : u ∈ (P.value v).users) :
    u.idx < P.values.size := by
  rw [hl.users v] at h
  obtain ⟨i, hi, hu⟩ := List.mem_flatMap.1 h
  rw [List.eq_of_mem_replicate hu]
  exact List.mem_range.1 hi

theorem operands_of_instr? {v : ValueId} {i : Instr} (h : P.instr? v = some i) :
    (P.value v).operands = i.operands := by
  unfold instr? at h
  split at h
  · next hkind => cases h; rw [Value.operands, hkind]
  · cases h

theorem call?_eq_some_iff {v callee : ValueId} {args : List ValueId} :
    P.call? v = some (callee, args) ↔ P.instr? v = some (.call callee args) := by
  unfold call?
  split
  · next hi => simp [hi]
  · next hi => simpa using hi callee args

theorem lt_size_of_call? {v : ValueId} {x : ValueId × List ValueId} (h : P.call? v = some x) :
    v.idx < P.values.size := by
  refine lt_size_of_kind fun hkind => ?_
  simp [call?, instr?, hkind] at h

theorem Linked.lt_size_of_instr {v u : ValueId} {i : Instr} (hl : P.Linked)
    (hi : P.instr? v = some i) (hu : u ∈ i.operands) : u.idx < P.values.size :=
  hl.lt_size (v := v) (by rwa [operands_of_instr? hi])

namespace Extends

section

variable {v : ValueId} (h : P.Extends Q) (hv : v.idx < P.values.size)

include h hv

theorem name_eq : (Q.value v).name = (P.value v).name := by
  have hnature := h.nature v hv
  exact congrArg (·.name) hnature

theorem type_eq : (Q.value v).type = (P.value v).type := by
  have hnature := h.nature v hv
  exact congrArg (·.type) hnature

/-- What is asked about the kind of a value has the same answer ever after if it does not touch on
its place. -/
@[elab_as_elim]
theorem kind_elim {motive : ValueKind → ValueKind → Prop} (same : ∀ k, motive k k)
    (function : ∀ f f', motive (.function f') (.function f))
    (block : ∀ owner members owner' members',
      motive (.block owner' members') (.block owner members))
    (instr : ∀ i loc parent parent', motive (.instr i loc parent') (.instr i loc parent)) :
    motive (Q.value v).kind (P.value v).kind := by
  have hnature := h.nature v hv
  exact ValueKind.unplaced_elim (congrArg (·.kind) hnature) same function block instr

theorem global?_eq : Q.global? v = P.global? v := by
  unfold global?
  refine h.kind_elim hv ?_ ?_ ?_ ?_
  all_goals intros; rfl

theorem instr?_eq : Q.instr? v = P.instr? v := by
  unfold instr?
  refine h.kind_elim hv ?_ ?_ ?_ ?_
  all_goals intros; rfl

theorem isSome_function?_eq : (Q.function? v).isSome = (P.function? v).isSome := by
  unfold function?
  refine h.kind_elim hv ?_ ?_ ?_ ?_
  all_goals intros; rfl

theorem call?_eq : Q.call? v = P.call? v := by
  unfold call?
  rw [h.instr?_eq hv]

/-- The callee of a call is older than the call. -/
theorem calledFunction?_eq (hl : P.Linked) : Q.calledFunction? v = P.calledFunction? v := by
  unfold calledFunction?
  rw [h.call?_eq hv]
  cases hcall : P.call? v with
  | none => rfl
  | some x =>
    obtain ⟨callee, args⟩ := x
    have hcallee : callee.idx < P.values.size :=
      hl.lt_size_of_instr (call?_eq_some_iff.1 hcall) (by simp [Instr.operands])
    dsimp only
    rw [h.isSome_function?_eq hcallee]

end

end Extends

/-! ## What globals refer to -/

/-- What the globals of a program refer to is there. -/
def Rooted (P : Program) : Prop :=
  ∀ v, (P.value v).Rooted P

theorem Growth.rooted (h : Growth P Q) (hP : P.Rooted) : Q.Rooted := by
  have hext := h.extends
  have hold : ∀ {x : Value}, x.Rooted P → x.Rooted Q := by
    intro x hx g hg
    obtain ⟨hinit, hstruct⟩ := hx g hg
    exact ⟨fun i hi => Nat.lt_of_lt_of_le (hinit i hi) hext.size_le,
      fun st hst => Nat.lt_of_lt_of_le (hstruct st hst) hext.structs_le⟩
  intro v g hg
  by_cases hv : v.idx < P.values.size
  · have hback : (Q.value v).kind = .global g → (P.value v).kind = .global g :=
      hext.kind_elim hv (fun _ => id) nofun nofun nofun
    exact hold (hP v) g (hback hg)
  · have hnew : v.idx < Q.values.size := lt_size_of_kind (by simp [hg])
    cases h with
    | build x unused older rooted =>
      obtain rfl : v = ⟨P.values.size⟩ := by
        rw [size_construct] at hnew
        obtain ⟨i⟩ := v
        exact congrArg ValueId.mk (Nat.le_antisymm (Nat.le_of_lt_succ hnew) (Nat.le_of_not_lt hv))
      rw [value_construct_self older] at hg
      exact hold rooted g hg
    | place id f same => exact absurd (Array.size_modify ▸ hnew) hv
    | modules | define | body => exact absurd hnew hv

theorem Grows.rooted (h : P.Grows Q) (hP : P.Rooted) : Q.Rooted := by
  induction h with
  | refl => exact hP
  | tail _ hs ih => exact hs.rooted ih

theorem Edited.rooted (h : Edited {} P) : P.Rooted := by
  refine h.grows.rooted fun v g hg => ?_
  rw [value_of_size_le (Nat.zero_le _)] at hg
  cases hg

end Program

end KernelObjects
