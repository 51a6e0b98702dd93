import Mathlib.Data.List.Basic
import Mathlib.Logic.Relation
import KernelObjects.Program.Text

/-!
# Programs under construction

A program is made from the empty one in steps of three kinds: a value is built from older ones and
enters their user lists; a value is put somewhere, which changes what it is in no other respect; and
structs and modules change around the values. A program grows by such steps if they refer to nothing
but what there is and keep the names of structs. All constructors of a program make it grow.

The user list of a value is never looked at to build another one, and still it is always complete:
it holds every value that has it as an operand, once for each position, in the order in which they
were built.

Results:
* `Step.linked`, `Made.linked`: one step, and so every construction, keeps user lists complete.
* `Linked.filterMap_users`: a search through the users of a value is one through all values.
* `Grows.function`, `Grows.addBlock`, `Grows.append` and the like: the constructors make a program
  grow.
-/
namespace KernelObjects

open Relation

/-! ## Steps -/

/-- What a value is, apart from the place that it has been put to. -/
def ValueKind.unplaced : ValueKind → ValueKind
  | .function f => .function { f with args := [], blocks := [] }
  | .block _ _ => .block none []
  | .instr i loc _ => .instr i loc none
  | k => k

/-- A value apart from its place. -/
def Value.unplaced (v : Value) : Value :=
  { v with kind := v.kind.unplaced }

theorem Value.operands_unplaced (v : Value) : v.unplaced.operands = v.operands := by
  obtain ⟨_, _, kind, _⟩ := v
  cases kind <;> rfl

/-- What a global refers to besides its operands is there: its initial value, and the struct that
its type is about. -/
def Value.Rooted (v : Value) (P : Program) : Prop :=
  ∀ g, v.kind = .global g → (∀ i, g.init = some i → i.idx < P.values.size) ∧
    ∀ st, g.type.underlyingStruct? = some st → st.idx < P.structs.size

namespace Program

/-- One step of building a program. -/
inductive Step : Program → Program → Prop where
  | build (P : Program) (v : Value) (unused : v.users = [])
      (older : ∀ u ∈ v.operands, u.idx < P.values.size) : Step P (P.construct v).2
  | place (P : Program) (v : ValueId) (f : Value → Value)
      (same : (f (P.value v)).unplaced = (P.value v).unplaced) : Step P (P.modifyValue v f)
  | around (P : Program) (structs : Structs) (modules : Array Module) :
      Step P { P with structs, modules }

/-- The program has been built from nothing. -/
def Made (P : Program) : Prop :=
  ReflTransGen Step {} P

/-- One step that refers to nothing but what there is, and gives no struct another name. -/
inductive Growth : Program → Program → Prop where
  | build (P : Program) (v : Value) (unused : v.users = [])
      (older : ∀ u ∈ v.operands, u.idx < P.values.size) (rooted : v.Rooted P) :
      Growth P (P.construct v).2
  | place (P : Program) (v : ValueId) (f : Value → Value)
      (same : (f (P.value v)).unplaced = (P.value v).unplaced) : Growth P (P.modifyValue v f)
  | modules (P : Program) (modules : Array Module) : Growth P { P with modules }
  | define (P : Program) (d : StructDef) : Growth P (P.defineStruct d).2
  | body (P : Program) (st : StructId) (elements : List Ty) (packed : Bool) :
      Growth P (P.setBody st elements packed)

/-- One program grows into another. -/
def Grows (P P' : Program) : Prop :=
  ReflTransGen Growth P P'

theorem Growth.step {P P' : Program} (h : Growth P P') : Step P P' := by
  cases h with
  | build v unused older rooted => exact .build P v unused older
  | place v f same => exact .place P v f same
  | modules modules => exact .around P P.structs modules
  | define d => exact .around P (P.structs.define d).2 P.modules
  | body st elements packed => exact .around P (P.structs.setBody st elements packed) P.modules

/-! ## What a step does to a value -/

variable {P P' : Program} {v : Value} {u : ValueId}

theorem size_construct (P : Program) (v : Value) :
    (P.construct v).2.values.size = P.values.size + 1 := by
  have hfold : ∀ (ops : List ValueId) (values : Array Value),
      (ops.foldl (addUser ⟨P.values.size⟩) values).size = values.size := by
    intro ops
    induction ops with
    | nil => exact fun _ => rfl
    | cons o ops ih => exact fun values => (ih _).trans Array.size_modify
  exact (hfold _ _).trans (Array.size_push ..)

theorem value_of_size_le (h : P.values.size ≤ u.idx) : P.value u = {} := by
  rw [value, Array.getD_eq_getD_getElem?, Array.getElem?_eq_none h]
  rfl

/-- The new value is as it was given: it is no operand of its own. -/
theorem value_construct_self (ho : ∀ u ∈ v.operands, u.idx < P.values.size) :
    (P.construct v).2.value ⟨P.values.size⟩ = v := by
  have hcount : (v.operands.countP fun o => o.idx = P.values.size) = 0 := by
    rw [List.countP_eq_zero]
    intro o hmem
    simpa using Nat.ne_of_lt (ho o hmem)
  simp [construct, value, Array.getD_eq_getD_getElem?, getElem?_foldl_addUser, hcount]

/-- Building a value without operands leaves all others alone. -/
theorem value_construct_leaf (hv : v.operands = []) (hu : u.idx < P.values.size) :
    (P.construct v).2.value u = P.value u := by
  rw [value_construct_users P v u hu, hv]
  simp

theorem unplaced_modifyValue {id : ValueId} {f : Value → Value}
    (h : (f (P.value id)).unplaced = (P.value id).unplaced) (u : ValueId) :
    ((P.modifyValue id f).value u).unplaced = (P.value u).unplaced := by
  rw [modifyValue, value, Array.getD_eq_getD_getElem?, Array.getElem?_modify]
  split
  · next he =>
    obtain rfl : id = u := by cases id; cases u; simp_all
    by_cases hlt : id.idx < P.values.size
    · rw [value, Array.getD_eq_getD_getElem?, Array.getElem?_eq_getElem hlt] at h ⊢
      exact h
    · rw [value_of_size_le (Nat.le_of_not_lt hlt), Array.getElem?_eq_none (Nat.le_of_not_lt hlt)]
      rfl
  · rw [value, Array.getD_eq_getD_getElem?]

/-! ## Complete user lists -/

/-- Every value is built from older ones and is listed by each of them, once for each position. -/
structure Linked (P : Program) : Prop where
  older : ∀ {v u : ValueId}, u ∈ (P.value v).operands → u.idx < v.idx ∧ v.idx < P.values.size
  users : ∀ u : ValueId, (P.value u).users =
    (List.range P.values.size).flatMap fun i => List.replicate ((P.value ⟨i⟩).operands.count u) ⟨i⟩

/-- Whether user lists are complete can be told from what values are apart from their places. -/
theorem Linked.congr (h : P.Linked) (hsize : P'.values.size = P.values.size)
    (hvalue : ∀ u, (P'.value u).unplaced = (P.value u).unplaced) : P'.Linked := by
  have hoperands : ∀ u, (P'.value u).operands = (P.value u).operands := by
    intro u
    rw [← Value.operands_unplaced, hvalue, Value.operands_unplaced]
  refine ⟨fun {v u} hu => ?_, fun u => ?_⟩
  · rw [hoperands] at hu
    rw [hsize]
    exact h.older hu
  · have husers : (P'.value u).users = (P.value u).users := congrArg (·.users) (hvalue u)
    rw [husers, hsize, h.users u]
    simp only [hoperands]

theorem countP_idx (ops : List ValueId) (u : ValueId) :
    (ops.countP fun o => o.idx = u.idx) = ops.count u := by
  refine List.countP_congr fun o _ => ?_
  obtain ⟨i⟩ := o
  obtain ⟨j⟩ := u
  simp

theorem Linked.build (h : P.Linked) (hv : v.users = [])
    (ho : ∀ u ∈ v.operands, u.idx < P.values.size) : (P.construct v).2.Linked := by
  have hself := value_construct_self ho
  have hold : ∀ i < P.values.size,
      ((P.construct v).2.value ⟨i⟩).operands = (P.value ⟨i⟩).operands :=
    fun i hi => operands_construct P v ⟨i⟩ hi
  refine ⟨fun {w u} hu => ?_, fun u => ?_⟩
  · rw [size_construct]
    rcases Nat.lt_trichotomy w.idx P.values.size with hlt | heq | hgt
    · rw [hold w.idx hlt] at hu
      obtain ⟨hu, -⟩ := h.older hu
      exact ⟨hu, Nat.lt_succ_of_lt hlt⟩
    · obtain rfl : w = ⟨P.values.size⟩ := by cases w; simp_all
      rw [hself] at hu
      exact ⟨ho u hu, Nat.lt_succ_self _⟩
    · rw [value_of_size_le (by rw [size_construct]; omega)] at hu
      cases hu
  · rw [size_construct, List.range_succ, List.flatMap_append, List.flatMap_singleton, hself]
    have hfront : ((List.range P.values.size).flatMap fun i =>
        List.replicate (((P.construct v).2.value ⟨i⟩).operands.count u) (⟨i⟩ : ValueId)) =
        (P.value u).users := by
      rw [h.users u]
      refine List.flatMap_congr fun i hi => ?_
      rw [hold i (List.mem_range.1 hi)]
    rw [hfront]
    by_cases hlt : u.idx < P.values.size
    · rw [value_construct_users P v u hlt, countP_idx]
    · -- nothing uses a value that is new or does not exist
      have hnone : v.operands.count u = 0 := List.count_eq_zero.2 fun hu => hlt (ho u hu)
      rw [hnone, value_of_size_le (Nat.le_of_not_lt hlt)]
      by_cases heq : u.idx = P.values.size
      · obtain rfl : u = ⟨P.values.size⟩ := by cases u; simp_all
        rw [hself, hv]
        rfl
      · rw [value_of_size_le (by rw [size_construct]; omega)]
        rfl

theorem Step.linked (hs : Step P P') (h : P.Linked) : P'.Linked := by
  cases hs with
  | build v unused older => exact h.build unused older
  | place id f same => exact h.congr Array.size_modify (unplaced_modifyValue same)
  | around structs modules => exact h.congr rfl fun _ => rfl

theorem Made.linked (h : P.Made) : P.Linked := by
  induction h with
  | refl =>
    have hnone : ∀ u, ({} : Program).value u = {} := fun u => value_of_size_le (Nat.zero_le _)
    refine ⟨fun {v u} hu => ?_, fun u => ?_⟩
    · rw [hnone] at hu
      cases hu
    · rw [hnone]
      rfl
  | tail _ hs ih => exact hs.linked ih

/-- To search the users of a value is to search all values, if what is looked for has the value as
an operand just once. -/
theorem Linked.filterMap_users {β : Type} (h : P.Linked) {f : ValueId → Option β}
    (hf : ∀ v b, f v = some b → (P.value v).operands.count u = 1) :
    (P.value u).users.filterMap f = (List.range P.values.size).filterMap fun i => f ⟨i⟩ := by
  rw [h.users u, List.filterMap_flatMap, List.filterMap_eq_flatMap_toList]
  refine List.flatMap_congr fun i _ => ?_
  cases hi : f ⟨i⟩ with
  | none =>
    rw [List.filterMap_eq_nil_iff.2]
    · rfl
    · intro v hv
      rw [List.eq_of_mem_replicate hv, hi]
  | some b =>
    rw [hf ⟨i⟩ b hi]
    simp [hi]

/-! ## The constructors -/

/-- Where what a value refers to is there, its initial value and the struct of its type included, it
is built by a step of growth. -/
theorem Grows.build (P : Program) (hv : v.users = [])
    (ho : ∀ u ∈ v.operands, u.idx < P.values.size) (hr : v.Rooted P) : P.Grows (P.construct v).2 :=
  .single (.build P v hv ho hr)

namespace Grows

/-- A constant, an argument, a block or a plain value. -/
theorem leaf (P : Program) (hv : v.users = []) (ho : v.operands = [])
    (hg : ∀ g, v.kind ≠ .global g) : P.Grows (P.construct v).2 :=
  build P hv (by simp [ho]) fun g hk => absurd hk (hg g)

theorem place (P : Program) (id : ValueId) {f : Value → Value}
    (same : (f (P.value id)).unplaced = (P.value id).unplaced) : P.Grows (P.modifyValue id f) :=
  .single (.place P id f same)

theorem modules (P : Program) (modules : Array Module) : P.Grows { P with modules } :=
  .single (.modules P modules)

theorem constExpr (P : Program) (opcode : String) {operands : List ValueId} (type : Ty)
    (inBounds : Bool) (ho : ∀ u ∈ operands, u.idx < P.values.size) :
    P.Grows (P.constExpr opcode operands type inBounds).2 :=
  build P rfl ho nofun

theorem instruction (P : Program) {i : Instr} (type : Ty) (name : String) (loc : Option Loc)
    (ho : ∀ u ∈ i.operands, u.idx < P.values.size) : P.Grows (P.instruction i type name loc).2 :=
  build P rfl ho nofun

theorem constInts (P : Program) (ns : List Int) :
    P.Grows (P.constInts ns).2 ∧ P.values.size ≤ (P.constInts ns).2.values.size ∧
      ∀ u ∈ (P.constInts ns).1, u.idx < (P.constInts ns).2.values.size := by
  induction ns generalizing P with
  | nil => exact ⟨.refl, Nat.le_refl _, nofun⟩
  | cons n ns ih =>
    have hfirst := leaf (v := { type := .int 64, kind := .int n }) P rfl rfl nofun
    obtain ⟨hgrows, hle, hold⟩ := ih (P.constInt n (.int 64)).2
    have hsize : (P.constInt n (.int 64)).2.values.size = P.values.size + 1 := size_construct ..
    rw [hsize] at hle
    refine ⟨hfirst.trans hgrows, Nat.le_trans (Nat.le_succ _) hle, fun u hu => ?_⟩
    rcases List.mem_cons.1 hu with rfl | hu
    · exact hle
    · exact hold u hu

theorem constGep (P : Program) {base : ValueId} (indices : List Int) (inBounds : Bool)
    (hb : base.idx < P.values.size) : P.Grows (P.constGep base indices inBounds).2 := by
  obtain ⟨hgrows, hle, hold⟩ := constInts P indices
  refine hgrows.trans (constExpr _ _ _ _ fun u hu => ?_)
  rcases List.mem_cons.1 hu with rfl | hu
  · exact Nat.lt_of_lt_of_le hb hle
  · exact hold u hu

/-- The arguments of a function are new values, and leave all others alone. -/
theorem addArgs (P : Program) (owner : ValueId) (i : Nat) (params : List (Ty × String)) :
    P.Grows (P.addArgs owner i params).2 ∧
      ∀ u : ValueId, u.idx < P.values.size →
        (P.addArgs owner i params).2.value u = P.value u := by
  induction params generalizing P i with
  | nil => exact ⟨.refl, fun _ _ => rfl⟩
  | cons param params ih =>
    obtain ⟨type, name⟩ := param
    have hfirst := leaf (v := { type, name, kind := .arg owner i }) P rfl rfl nofun
    obtain ⟨hgrows, hold⟩ := ih (P.construct { type, name, kind := .arg owner i }).2 (i + 1)
    refine ⟨hfirst.trans hgrows, fun u hu => ?_⟩
    rw [Program.addArgs, hold u (by rw [size_construct]; exact Nat.lt_succ_of_lt hu),
      value_construct_leaf rfl hu]

theorem function (P : Program) (name : String) (signature : Signature) (names : List String)
    (home : Option ModuleId) : P.Grows (P.function name signature names home).2 := by
  let v : Value :=
    { type := .pointerTo signature.ty, name, kind := .function ⟨signature, [], [], home⟩ }
  let params := signature.params.zip (argNames names signature.params.length)
  have hself := leaf (v := v) P rfl rfl nofun
  obtain ⟨hargs, hold⟩ := addArgs (P.construct v).2 ⟨P.values.size⟩ 0 params
  -- the arguments are entered into the function afterwards
  have hplace := place ((P.construct v).2.addArgs ⟨P.values.size⟩ 0 params).2 ⟨P.values.size⟩
    (f := fun x => { x with kind := .function ⟨signature,
      ((P.construct v).2.addArgs ⟨P.values.size⟩ 0 params).1, [], home⟩ }) (by
        rw [hold ⟨P.values.size⟩ (by rw [size_construct]; exact Nat.lt_succ_self _),
          value_construct_self (by simp [v, Value.operands])]
        rfl)
  have hgrows := (hself.trans hargs).trans hplace
  cases home with
  | none => exact hgrows
  | some m => exact hgrows.trans (modules _ _)

theorem declare {m : ModuleId} {name : String} {type : Ty} {f : ValueId}
    (hd : P.declare m name type = .ok (f, P')) : P.Grows P' := by
  unfold Program.declare at hd
  split at hd
  · cases hd
    exact .refl
  · cases hs : type.signature with
    | error e => rw [hs] at hd; cases hd
    | ok signature =>
      rw [hs] at hd
      cases hd
      exact function P name signature [] (some m)

theorem addBlock {f b : ValueId} {name : String} (hb : P.addBlock f name = .ok (b, P')) :
    P.Grows P' := by
  unfold Program.addBlock at hb
  cases hf : P.function? f with
  | none => rw [hf] at hb; cases hb
  | some d =>
    rw [hf] at hb
    cases hb
    refine (leaf P rfl rfl ?_).trans (place _ f ?_)
    · exact nofun
    have hkind : (P.value f).kind = .function d := by
      unfold function? at hf
      split at hf
      · next hk => cases hf; exact hk
      · cases hf
    have hlt : f.idx < P.values.size := by
      refine Nat.lt_of_not_le fun hle => ?_
      rw [value_of_size_le hle] at hkind
      cases hkind
    rw [value_construct_leaf rfl hlt]
    simp only [Value.unplaced, hkind, ValueKind.unplaced]

theorem append {block : ValueId} {w : ValueId} (ha : P.append block w = .ok P') :
    P.Grows P' := by
  unfold Program.append at ha
  split at ha
  · next owner members hkind =>
    cases ha
    refine (place P block ?_).trans (place _ w ?_)
    · simp only [Value.unplaced, hkind, ValueKind.unplaced]
    · generalize (P.modifyValue block _).value w = x
      obtain ⟨type, name, kind, users⟩ := x
      cases kind <;> rfl
  · cases ha

end Grows

namespace Made

theorem grows (h : P.Made) (hg : P.Grows P') : P'.Made :=
  h.trans (ReflTransGen.mono (fun _ _ => Growth.step) _ _ hg)

theorem construct (h : P.Made) (hv : v.users = [])
    (ho : ∀ u ∈ v.operands, u.idx < P.values.size) : (P.construct v).2.Made :=
  h.tail (.build P v hv ho)

/-- A constant, an argument, a block or a plain value. -/
theorem leaf (h : P.Made) (hv : v.users = []) (ho : v.operands = []) : (P.construct v).2.Made :=
  h.construct hv (by simp [ho])

theorem around (h : P.Made) (structs : Structs) (modules : Array Module) :
    Made { P with structs, modules } :=
  h.tail (.around P structs modules)

theorem constExpr (h : P.Made) (opcode : String) {operands : List ValueId} (type : Ty)
    (inBounds : Bool) (ho : ∀ u ∈ operands, u.idx < P.values.size) :
    (P.constExpr opcode operands type inBounds).2.Made :=
  h.grows (.constExpr P opcode type inBounds ho)

theorem constGep (h : P.Made) {base : ValueId} (indices : List Int) (inBounds : Bool)
    (hb : base.idx < P.values.size) : (P.constGep base indices inBounds).2.Made :=
  h.grows (.constGep P indices inBounds hb)

theorem global (h : P.Made) (name : String) (type : Ty) (init : Option ValueId) (constant : Bool)
    (home : Option ModuleId) : (P.global name type init constant home).2.Made := by
  have hmade := h.leaf
    (v := { type := .pointerTo type, name, kind := .global ⟨type, init, constant, home⟩ }) rfl rfl
  cases home with
  | none => exact hmade
  | some m => exact hmade.around _ _

theorem function (h : P.Made) (name : String) (signature : Signature) (names : List String)
    (home : Option ModuleId) : (P.function name signature names home).2.Made :=
  h.grows (.function P name signature names home)

theorem instruction (h : P.Made) {i : Instr} (type : Ty) (name : String) (loc : Option Loc)
    (ho : ∀ u ∈ i.operands, u.idx < P.values.size) : (P.instruction i type name loc).2.Made :=
  h.grows (.instruction P type name loc ho)

end Made

end Program

end KernelObjects
