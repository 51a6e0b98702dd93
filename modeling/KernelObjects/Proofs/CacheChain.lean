import KernelObjects.Cache.Name
import KernelObjects.Proofs.Construction

/-!
# The chain to the name of a cache

The way from an allocation call to the name of its cache, as relations between values. A relation
says what a step may pass through, and not how it is found; so the search for a name can be compared
with all names that there are.

The search sees the creation calls of a global through its user list only. Since user lists are
complete, it sees all of them, in the order in which their results were stored.

Results:
* `handle_eq_ok_iff`, `ofCreation_eq_ok_iff`: the two walks end where the relations say.
* `handle_eq_error`, `ofCreation_cases`: a walk that does not end there breaks at a node that is
  not of the right kind, or meets an expression without operands.
* `creationCalls_eq`: the creation calls of a global, in the order of the stores.
-/
namespace KernelObjects

/-! ## Shapes of types and of data -/

/-- Pointers and array dimensions around a struct. -/
inductive Ty.StripsTo : Ty → StructId → Prop where
  | struct (st : StructId) : StripsTo (.struct st) st
  | ptr {t : Ty} {st : StructId} (space : Int) (h : StripsTo t st) : StripsTo (.ptr t space) st
  | array {t : Ty} {st : StructId} (n : Int) (h : StripsTo t st) : StripsTo (.array t n) st

theorem Ty.underlyingStruct?_eq_some_iff {t : Ty} {st : StructId} :
    t.underlyingStruct? = some st ↔ t.StripsTo st := by
  constructor
  · intro h
    fun_induction underlyingStruct? t with
    | case1 => cases h; exact .struct _
    | case2 t space ih => exact .ptr space (ih h)
    | case3 t n ih => exact .array n (ih h)
    | case4 => cases h
  · intro h
    induction h with
    | struct st => rfl
    | ptr space h ih => exact ih
    | array n h ih => exact ih

/-- The text before the first zero of some bytes. -/
def BeforeZero (bytes text : List UInt8) : Prop :=
  0 ∉ text ∧ (bytes = text ∨ ∃ rest, bytes = text ++ 0 :: rest)

theorem cString_eq_iff {bytes text : List UInt8} :
    cString bytes = text ↔ BeforeZero bytes text := by
  unfold cString
  induction bytes generalizing text with
  | nil =>
    constructor
    · rintro rfl
      exact ⟨by simp, .inl rfl⟩
    · rintro ⟨-, rfl | ⟨rest, h⟩⟩
      · rfl
      · simp at h
  | cons b bytes ih =>
    by_cases hb : b = 0
    · subst hb
      constructor
      · intro h
        obtain rfl : [] = text := by simpa using h
        exact ⟨by simp, .inr ⟨bytes, rfl⟩⟩
      · rintro ⟨hz, htext⟩
        cases text with
        | nil => simp
        | cons c text =>
          have hc : 0 = c := by
            rcases htext with h | ⟨rest, h⟩
            · exact (List.cons.inj h).1
            · exact (List.cons.inj h).1
          exact absurd (hc ▸ List.mem_cons_self ..) hz
    · rw [List.takeWhile_cons_of_pos (by simpa using hb)]
      constructor
      · rintro rfl
        obtain ⟨hz, htext⟩ := ih.1 rfl
        refine ⟨by simp [Ne.symm hb, hz], ?_⟩
        rcases htext with h | ⟨rest, h⟩
        · exact .inl (congrArg (b :: ·) h)
        · exact .inr ⟨rest, congrArg (b :: ·) h⟩
      · rintro ⟨hz, htext⟩
        cases text with
        | nil =>
          rcases htext with h | ⟨rest, h⟩
          · cases h
          · exact absurd (List.cons.inj h).1 hb
        | cons c text =>
          have hz' : 0 ∉ text := fun h => hz (List.mem_cons_of_mem _ h)
          rcases htext with h | ⟨rest, h⟩
          · obtain ⟨rfl, hrest⟩ := List.cons.inj h
            rw [ih.2 ⟨hz', .inl hrest⟩]
          · obtain ⟨rfl, hrest⟩ := List.cons.inj h
            rw [ih.2 ⟨hz', .inr ⟨rest, hrest⟩⟩]

/-- The value is no bitcast, and no constant address computation, without operands. -/
def Value.Grounded (v : Value) : Prop :=
  match v.kind with
  | .expr opcode operands _ => opcode = "bitcast" ∨ opcode = "getelementptr" → operands ≠ []
  | _ => True

instance (v : Value) : Decidable v.Grounded :=
  match hv : v.kind with
  | .expr opcode operands _ =>
    decidable_of_iff (opcode = "bitcast" ∨ opcode = "getelementptr" → operands ≠ [])
      (by simp [Value.Grounded, hv])
  | .plain | .int _ | .null | .data _ | .global _ | .function _ | .arg .. | .block .. | .instr .. =>
    .isTrue (by simp [Value.Grounded, hv])

/-- Every bitcast and every address computation among the constants has an operand. -/
def Program.Grounded (P : Program) : Prop :=
  ∀ v ∈ P.values, v.Grounded

instance (P : Program) : Decidable P.Grounded :=
  inferInstanceAs (Decidable (∀ v ∈ P.values, v.Grounded))

theorem Program.Grounded.value {P : Program} (h : P.Grounded) (v : ValueId) :
    (P.value v).Grounded := by
  by_cases hlt : v.idx < P.values.size
  · rw [Program.value, Array.getD_eq_getD_getElem?, Array.getElem?_eq_getElem hlt]
    exact h _ (Array.getElem_mem hlt)
  · rw [Program.value_of_size_le (Nat.le_of_not_lt hlt)]
    trivial

namespace CacheName

section Relations

variable (P : Program) (s : Settings)

/-! ## The chain as relations -/

/-- From a load to the address that it reads; any other value stays. -/
inductive Unloads : ValueId → ValueId → Prop where
  | load {v source : ValueId} (h : P.instr? v = some (.load source)) : Unloads v source
  | other {v : ValueId} (h : ∀ source, P.instr? v ≠ some (.load source)) : Unloads v v

/-- From a constant bitcast to the value under it; any other value stays. -/
inductive Uncasts : ValueId → ValueId → Prop where
  | cast {v inner : ValueId} {rest : List ValueId} {inBounds : Bool}
      (h : (P.value v).kind = .expr "bitcast" (inner :: rest) inBounds) : Uncasts v inner
  | other {v : ValueId}
      (h : ∀ operands inBounds, (P.value v).kind ≠ .expr "bitcast" operands inBounds) : Uncasts v v

/-- A variable of this type can hold a cache. -/
def CacheType (t : Ty) : Prop :=
  (∃ space, t = .ptr .unknown space) ∨
    ∃ st, t.StripsTo st ∧ (P.structs.get st).baseName = s.cacheStruct

/-- The first argument of an allocation call stands for the global `g`, which can hold a cache. -/
def IsHandle (call g : ValueId) : Prop :=
  ∃ callee arg args v d, P.call? call = some (callee, arg :: args) ∧ Unloads P arg v ∧
    Uncasts P v g ∧ P.global? g = some d ∧ CacheType P s d.type

/-- The first argument of a call stands for a bitcast of nothing. -/
def Untied (call : ValueId) : Prop :=
  ∃ callee arg args v inBounds, P.call? call = some (callee, arg :: args) ∧ Unloads P arg v ∧
    (P.value v).kind = .expr "bitcast" [] inBounds

/-- The value at position `i` stores the result of `call` into `g`, and `call` calls a function that
creates caches. -/
def Creation (g : ValueId) (i : Nat) (call : ValueId) : Prop :=
  P.instr? ⟨i⟩ = some (.store call g) ∧
    ∃ callee args f, P.call? call = some (callee, args) ∧ P.function? callee = some f ∧
      s.cacheCreator.toList <:+: (P.value callee).name.toList

/-- The global that an argument names: itself, or the base of an address within its bounds. -/
inductive NameBase : ValueId → ValueId → Prop where
  | global {v : ValueId} {g : GlobalDef} (h : P.global? v = some g) : NameBase v v
  | inBounds {v base : ValueId} {rest : List ValueId}
      (h : (P.value v).kind = .expr "getelementptr" (base :: rest) true) : NameBase v base

/-- The value is an array of characters with these bytes. -/
def IsText (v : ValueId) (bytes : List UInt8) : Prop :=
  (P.value v).kind = .data bytes ∧ ∃ n, (P.value v).type = .array (.int 8) n

/-- A creation call gives its cache this name. -/
def Names (call : ValueId) (text : List UInt8) : Prop :=
  ∃ callee arg args base g init bytes, P.call? call = some (callee, arg :: args) ∧
    NameBase P arg base ∧ P.global? base = some g ∧ g.constant = true ∧ g.init = some init ∧
    IsText P init bytes ∧ BeforeZero bytes text

/-- A creation call breaks at a stage and a node. -/
inductive Breaks (call : ValueId) : ChainStage → ValueId → Prop where
  | noArguments {callee : ValueId} (hcall : P.call? call = some (callee, [])) :
      Breaks call .createCall call
  | name {callee arg : ValueId} {args : List ValueId}
      (hcall : P.call? call = some (callee, arg :: args)) (hglobal : P.global? arg = none)
      (hgep : ∀ operands, (P.value arg).kind ≠ .expr "getelementptr" operands true) :
      Breaks call .nameExpr arg
  | base {callee arg base : ValueId} {args : List ValueId}
      (hcall : P.call? call = some (callee, arg :: args)) (hbase : NameBase P arg base)
      (hglobal : ∀ g, P.global? base = some g → g.constant = false ∨ g.init = none) :
      Breaks call .nameGlobal base
  | text {callee arg base init : ValueId} {args : List ValueId} {g : GlobalDef}
      (hcall : P.call? call = some (callee, arg :: args)) (hbase : NameBase P arg base)
      (hglobal : P.global? base = some g) (hconstant : g.constant = true)
      (hinit : g.init = some init) (htext : ∀ bytes, ¬ IsText P init bytes) :
      Breaks call .charArray init

/-- The first argument of a call is an address computed from nothing. -/
def Baseless (call : ValueId) : Prop :=
  ∃ callee arg args, P.call? call = some (callee, arg :: args) ∧
    (P.value arg).kind = .expr "getelementptr" [] true

end Relations

variable {P : Program} {s : Settings} {call c g v w : ValueId}

/-! ## Small steps -/

theorem callArgs_of_call {callee : ValueId} {args : List ValueId}
    (h : P.call? v = some (callee, args)) : callArgs P v = .ok args := by
  rw [callArgs, h]
  rfl

theorem global?_eq_some_iff {d : GlobalDef} :
    P.global? v = some d ↔ (P.value v).kind = .global d := by
  unfold Program.global?
  split
  · next h => simp [h]
  · next h => simpa using h d

theorem unloads_throughLoad (P : Program) (v : ValueId) : Unloads P v (throughLoad P v) := by
  unfold throughLoad
  split
  · next h => exact .load h
  · next h => exact .other h

theorem Unloads.eq (h : Unloads P v w) : throughLoad P v = w := by
  unfold throughLoad
  cases h with
  | load h => rw [h]
  | other h =>
    split
    · next source hs => exact absurd hs (h source)
    · rfl

theorem throughBitcast_eq_ok_iff : throughBitcast P v = .ok w ↔ Uncasts P v w := by
  unfold throughBitcast
  constructor
  · intro h
    split at h
    · next hkind =>
      split at h
      · cases h; exact .cast hkind
      · cases h
    · next hkind => cases h; exact .other hkind
  · intro h
    cases h with
    | cast hkind => rw [hkind]; rfl
    | other hkind =>
      split
      · next operands inBounds hk => exact absurd hk (hkind operands inBounds)
      · rfl

theorem throughBitcast_eq_error {e : Fault} (h : throughBitcast P v = .error e) :
    e = .outOfRange ∧ ∃ inBounds, (P.value v).kind = .expr "bitcast" [] inBounds := by
  unfold throughBitcast at h
  split at h
  · next hkind =>
    split at h
    · cases h
    · cases h; exact ⟨rfl, _, hkind⟩
  · cases h

theorem holdsCache_iff {t : Ty} : holdsCache P s t = true ↔ CacheType P s t := by
  unfold holdsCache
  split
  · next space => exact ⟨fun _ => .inl ⟨space, rfl⟩, fun _ => rfl⟩
  · next hptr =>
    have hno : ¬ ∃ space, t = .ptr .unknown space := fun ⟨space, h⟩ => hptr space h
    simp only [CacheType, hno, false_or, ← Ty.underlyingStruct?_eq_some_iff]
    split
    · next st hst => simp [hst]
    · next hst => simp [hst]

/-! ## From the allocation call to the global -/

theorem handle_eq_ok_iff : handle P s call = .ok g ↔ IsHandle P s call g := by
  unfold handle
  constructor
  · intro h
    cases hcall : P.call? call with
    | none => rw [callArgs, hcall] at h; cases h
    | some x =>
      obtain ⟨callee, args⟩ := x
      rw [callArgs_of_call hcall] at h
      cases args with
      | nil => cases h
      | cons arg args =>
        dsimp only at h
        split at h
        · cases h
        · next v hv =>
          split at h
          · cases h
          · next d hd =>
            split at h
            · next hholds =>
              cases h
              exact ⟨callee, arg, args, _, d, hcall, unloads_throughLoad P arg,
                throughBitcast_eq_ok_iff.1 hv, hd, holdsCache_iff.1 hholds⟩
            · cases h
  · rintro ⟨callee, arg, args, v, d, hcall, hload, hcast, hd, hholds⟩
    rw [callArgs_of_call hcall]
    dsimp only
    rw [hload.eq, throughBitcast_eq_ok_iff.2 hcast]
    dsimp only
    rw [hd]
    dsimp only
    rw [if_pos (holdsCache_iff.2 hholds)]

theorem IsHandle.unique {g' : ValueId} (h : IsHandle P s call g) (h' : IsHandle P s call g') :
    g = g' :=
  Except.ok.inj ((handle_eq_ok_iff.2 h).symm.trans (handle_eq_ok_iff.2 h'))

/-- A walk that does not reach a global breaks on the way, or meets a bitcast of nothing. -/
theorem handle_eq_error {x : ValueId × List ValueId} {e : Fault} (hcall : P.call? call = some x)
    (h : handle P s call = .error e) :
    (e = .outOfRange ∧ Untied P call) ∨ ∃ b, e = .brokenChain b ∧ b.cause.stage = .handle := by
  obtain ⟨callee, args⟩ := x
  unfold handle at h
  rw [callArgs_of_call hcall] at h
  cases args with
  | nil => cases h; exact .inr ⟨_, rfl, rfl⟩
  | cons arg args =>
    dsimp only at h
    split at h
    · next hcast =>
      cases h
      obtain ⟨rfl, inBounds, hkind⟩ := throughBitcast_eq_error hcast
      exact .inl ⟨rfl, callee, arg, args, _, inBounds, hcall, unloads_throughLoad P arg, hkind⟩
    · split at h
      · cases h; exact .inr ⟨_, rfl, rfl⟩
      · split at h
        · cases h
        · cases h; exact .inr ⟨_, rfl, rfl⟩

theorem Untied.handle_eq (h : Untied P call) (s : Settings) :
    handle P s call = .error .outOfRange := by
  obtain ⟨callee, arg, args, v, inBounds, hcall, hload, hkind⟩ := h
  unfold handle
  rw [callArgs_of_call hcall]
  dsimp only
  rw [hload.eq, throughBitcast, hkind]
  rfl

/-! ## From a creation call to the name -/

theorem NameBase.eq {base : ValueId} (h : NameBase P v base) : nameGlobal P v = .ok base := by
  unfold nameGlobal
  cases h with
  | global h => rw [global?_eq_some_iff.1 h]
  | inBounds h => rw [h]; rfl

theorem nameGlobal_cases (P : Program) (v : ValueId) :
    (∃ base, nameGlobal P v = .ok base ∧ NameBase P v base) ∨
    (∃ cause, nameGlobal P v = stopAt cause v ∧ cause.stage = .nameExpr ∧ P.global? v = none ∧
      ∀ operands, (P.value v).kind ≠ .expr "getelementptr" operands true) ∨
    (nameGlobal P v = .error .outOfRange ∧
      (P.value v).kind = .expr "getelementptr" [] true) := by
  unfold nameGlobal
  split
  · next d hkind => exact .inl ⟨v, rfl, .global (global?_eq_some_iff.2 hkind)⟩
  · next opcode operands inBounds hkind =>
    have hno : P.global? v = none := by simp [Program.global?, hkind]
    split
    · next hgep =>
      obtain ⟨rfl, rfl⟩ := hgep
      split
      · exact .inl ⟨_, rfl, .inBounds hkind⟩
      · exact .inr (.inr ⟨rfl, hkind⟩)
    · next hgep =>
      refine .inr (.inl ⟨_, rfl, rfl, hno, fun operands' he => hgep ?_⟩)
      rw [hkind] at he
      cases he
      exact ⟨rfl, rfl⟩
  · next hglobal hexpr =>
    refine .inr (.inl ⟨_, rfl, rfl, ?_, fun operands => hexpr _ _ _⟩)
    exact Option.eq_none_iff_forall_ne_some.2 fun d hd => hglobal d (global?_eq_some_iff.1 hd)

theorem constantInit_cases (P : Program) (v : ValueId) :
    (∃ d init, constantInit P v = .ok init ∧ P.global? v = some d ∧ d.constant = true ∧
      d.init = some init) ∨
    ∃ cause, constantInit P v = stopAt cause v ∧ cause.stage = .nameGlobal ∧
      ∀ d, P.global? v = some d → d.constant = false ∨ d.init = none := by
  unfold constantInit
  cases hd : P.global? v with
  | none => exact .inr ⟨_, rfl, rfl, nofun⟩
  | some d =>
    obtain ⟨type, init, constant, home⟩ := d
    cases constant with
    | false => exact .inr ⟨_, rfl, rfl, fun d hd => by cases hd; exact .inl rfl⟩
    | true =>
      cases init with
      | none => exact .inr ⟨_, rfl, rfl, fun d hd => by cases hd; exact .inr rfl⟩
      | some init => exact .inl ⟨_, init, rfl, rfl, rfl, rfl⟩

theorem isCharArray_iff {bytes : List UInt8} (hkind : (P.value v).kind = .data bytes) :
    (P.value v).isCharArray = true ↔ ∃ n, (P.value v).type = .array (.int 8) n := by
  unfold Value.isCharArray
  rw [hkind]
  split
  · next n _ heq => exact ⟨fun _ => ⟨n, heq⟩, fun _ => rfl⟩
  · next h =>
    simp only [Bool.false_eq_true, false_iff]
    rintro ⟨n, hn⟩
    exact h bytes n rfl hn

theorem characters_cases (P : Program) (v : ValueId) :
    (∃ bytes, characters P v = .ok (cString bytes) ∧ IsText P v bytes) ∨
    ∃ cause, characters P v = stopAt cause v ∧ cause.stage = .charArray ∧
      ∀ bytes, ¬ IsText P v bytes := by
  unfold characters
  split
  · next bytes hkind =>
    split
    · next htext => exact .inl ⟨bytes, rfl, hkind, (isCharArray_iff hkind).1 htext⟩
    · next htext =>
      exact .inr ⟨_, rfl, rfl, fun bytes' h => htext ((isCharArray_iff hkind).2 h.2)⟩
  · next hkind => exact .inr ⟨_, rfl, rfl, fun bytes h => hkind bytes h.1⟩

/-- A creation call leads to a name, breaks, or has an address computed from nothing. -/
theorem ofCreation_cases {x : ValueId × List ValueId} (hcall : P.call? c = some x) :
    (∃ n, ofCreation P c = .ok n ∧ Names P c n) ∨
    (∃ b, ofCreation P c = .error (.brokenChain b) ∧ Breaks P c b.cause.stage b.node) ∨
    (ofCreation P c = .error .outOfRange ∧ Baseless P c) := by
  obtain ⟨callee, args⟩ := x
  unfold ofCreation
  rw [callArgs_of_call hcall]
  cases args with
  | nil => exact .inr (.inl ⟨_, rfl, .noArguments hcall⟩)
  | cons arg args =>
    dsimp only
    rcases nameGlobal_cases P arg with ⟨base, he, hbase⟩ | ⟨cause, he, hstage, hno⟩ | ⟨he, hkind⟩
    · rw [he]
      rcases constantInit_cases P base with
        ⟨d, init, he, hd, hconst, hinit⟩ | ⟨cause, he, hstage, hno⟩
      · rcases characters_cases P init with ⟨bytes, he', htext⟩ | ⟨cause, he', hstage, hno⟩
        · refine .inl ⟨cString bytes, ?_, callee, arg, args, base, d, init, bytes, hcall, hbase, hd,
            hconst, hinit, htext, cString_eq_iff.1 rfl⟩
          simp only [bind, Except.bind, he, he']
        · refine .inr (.inl ⟨⟨cause, init⟩, ?_, ?_⟩)
          · simp only [bind, Except.bind, he, he']
            rfl
          · rw [hstage]
            exact .text hcall hbase hd hconst hinit hno
      · refine .inr (.inl ⟨⟨cause, base⟩, ?_, ?_⟩)
        · simp only [bind, Except.bind, he]
          rfl
        · rw [hstage]
          exact .base hcall hbase hno
    · refine .inr (.inl ⟨⟨cause, arg⟩, ?_, ?_⟩)
      · rw [he]
        rfl
      · rw [hstage]
        exact .name hcall hno.1 hno.2
    · rw [he]
      exact .inr (.inr ⟨rfl, callee, arg, args, hcall, hkind⟩)

theorem ofCreation_eq_ok_iff {n : List UInt8} : ofCreation P c = .ok n ↔ Names P c n := by
  constructor
  · intro h
    cases hcall : P.call? c with
    | none => rw [ofCreation, callArgs, hcall] at h; cases h
    | some x =>
      rcases ofCreation_cases hcall with ⟨n', he, hn⟩ | ⟨b, he, -⟩ | ⟨he, -⟩
      · rw [he] at h; cases h; exact hn
      · rw [he] at h; cases h
      · rw [he] at h; cases h
  · rintro ⟨callee, arg, args, base, d, init, bytes, hcall, hbase, hd, hconst, hinit, htext, hn⟩
    have hstart : constantInit P base = .ok init := by
      rw [constantInit, hd]
      simp only [hconst, hinit]
    have hend : characters P init = .ok n := by
      rw [characters, htext.1]
      dsimp only
      rw [if_pos ((isCharArray_iff htext.1).2 htext.2), cString_eq_iff.2 hn]
    unfold ofCreation
    rw [callArgs_of_call hcall]
    simp only [hbase.eq, bind, Except.bind, hstart, hend]

theorem Baseless.ofCreation_eq (h : Baseless P c) : ofCreation P c = .error .outOfRange := by
  obtain ⟨callee, arg, args, hcall, hkind⟩ := h
  unfold ofCreation
  rw [callArgs_of_call hcall]
  dsimp only
  rw [nameGlobal, hkind]
  rfl

/-! ## The creation calls of a global -/

theorem occursIn_iff {sub text : List Char} : occursIn sub text = true ↔ sub <:+: text := by
  induction text with
  | nil => simp [occursIn]
  | cons c text ih => rw [occursIn, Bool.or_eq_true, ih, List.isPrefixOf_iff_prefix,
      List.infix_cons_iff]

theorem calledFunction?_eq_some_iff {f : ValueId} :
    P.calledFunction? c = some f ↔
      ∃ args d, P.call? c = some (f, args) ∧ P.function? f = some d := by
  unfold Program.calledFunction?
  cases hcall : P.call? c with
  | none => simp
  | some x =>
    obtain ⟨callee, args⟩ := x
    cases hf : P.function? callee with
    | none =>
      constructor
      · intro h
        simp [hf] at h
      · rintro ⟨args, d, h, hd⟩
        cases h
        rw [hf] at hd
        cases hd
    | some d =>
      constructor
      · intro h
        obtain rfl : callee = f := by simpa [hf] using h
        exact ⟨args, d, rfl, hf⟩
      · rintro ⟨args, d, h, -⟩
        cases h
        simp [hf]

theorem creationCall?_eq_some_iff {i : Nat} :
    creationCall? P s g ⟨i⟩ = some c ↔ Creation P s g i c := by
  unfold creationCall? Creation
  constructor
  · intro h
    split at h
    · next v dest hstore =>
      by_cases hdest : dest = g
      · subst hdest
        rw [if_pos rfl] at h
        split at h
        · next f hf =>
          split at h
          · next hname =>
            cases h
            obtain ⟨args, d, hcall, hd⟩ := calledFunction?_eq_some_iff.1 hf
            exact ⟨hstore, f, args, d, hcall, hd, occursIn_iff.1 hname⟩
          · cases h
        · cases h
      · rw [if_neg hdest] at h
        cases h
    · cases h
  · rintro ⟨hstore, callee, args, d, hcall, hd, hname⟩
    rw [hstore]
    simp only [if_true, calledFunction?_eq_some_iff.2 ⟨args, d, hcall, hd⟩, occursIn_iff.2 hname]

theorem Creation.unique {i : Nat} {c' : ValueId} (h : Creation P s g i c)
    (h' : Creation P s g i c') : c = c' :=
  Option.some.inj ((creationCall?_eq_some_iff.2 h).symm.trans (creationCall?_eq_some_iff.2 h'))

/-- The creation calls of a global are found in the order in which their results are stored. -/
theorem creationCalls_eq (hl : P.Linked) {d : GlobalDef} (hg : P.global? g = some d) :
    creationCalls P s g =
      (List.range P.values.size).filterMap fun i => creationCall? P s g ⟨i⟩ := by
  refine hl.filterMap_users fun v c hc => ?_
  obtain ⟨hstore, callee, args, f, hcall, -⟩ := creationCall?_eq_some_iff.1 hc
  -- the call is not the global itself, so the store has the global as an operand once
  have hne : c ≠ g := by
    rintro rfl
    simp [Program.call?, Program.instr?, global?_eq_some_iff.1 hg] at hcall
  have hops : (P.value v).operands = [c, g] := by
    unfold Program.instr? at hstore
    split at hstore
    · next hkind => cases hstore; rw [Value.operands, hkind]; rfl
    · cases hstore
  rw [hops]
  simp [hne]

end CacheName

end KernelObjects
