import KernelObjects.Cache.Classify
import KernelObjects.Proofs.CacheNames

/-!
# Calls that lead astray

The search for the name of a cache is meant to end in a name or in a break, and a break drops the
call that it came from and nothing else. It does, with one exception: a constant expression without
operands has no value under it, and to ask for that value is a fault of another kind, which nothing
on the way takes care of. A bitcast of nothing as the handle is such an expression, and so is an
address computed from nothing as the name.

A name is also missing where the size class of an object is too large to be written.

Results:
* `resolve_eq_outOfRange_iff`: the calls that lead astray.
* `exists_name_iff`: the sizes that have a class with a name.
* `answer_classify`: the first call that decides, or else the size class.
* `classify_returns_iff`: exactly when there is an answer, and what a call with a broken chain does
  to it.
* `classify_astray`: a call without an answer.
-/
namespace KernelObjects

/-! ## Classes that have a name -/

namespace SizeClass

theorem bucketName_of_lt {bucket : Nat} (h : bucket < Nat.pow 10 Text.Numeral.maxDigits) :
    ∃ n, bucketName bucket = .ok n := by
  have hwrite : Text.Numeral.write? bucket = some (toString (bucket : Int)) :=
    Text.Numeral.write?_eq_some_iff.2 ⟨by rwa [Int.natAbs_natCast], rfl⟩
  unfold bucketName
  split
  · exact ⟨_, rfl⟩
  · split
    · exact ⟨_, rfl⟩
    · split
      · exact ⟨_, rfl⟩
      · split
        · exact ⟨_, rfl⟩
        · rw [hwrite]
          exact ⟨_, rfl⟩

theorem eight_thousand_le {digits : Nat} (h : 4 ≤ digits) : 8192 ≤ Nat.pow 10 digits :=
  Nat.le_trans (by decide : 8192 ≤ 10 ^ 4) (Nat.pow_le_pow_right (by decide) h)

theorem outOfReach?_eq_none {minShift : Int} (h : 0 ≤ minShift) (h' : minShift.toNat < writeLimit) :
    outOfReach? minShift = none := by
  have hlimit : writeLimit ≤ storeLimit := by decide
  rw [outOfReach?_of_lt h (by omega), if_neg (Nat.not_le.2 h')]

theorem outOfReach?_ne_none {minShift : Int} (h : writeLimit ≤ minShift.toNat) :
    outOfReach? minShift ≠ none := by
  rw [outOfReach?, if_pos h]
  split_ifs <;> simp

/-- The size has a class with a name: a power of two that holds it, is not below the smallest class
and can be written. -/
theorem exists_name_iff {size minShift : Int} (h : 0 ≤ minShift) :
    (∃ n, name size minShift = .ok n) ↔
      ∃ k, minShift.toNat ≤ k ∧ size ≤ (1 <<< k : Nat) ∧
        1 <<< k < Nat.pow 10 Text.Numeral.maxDigits := by
  unfold name
  by_cases hlimit : minShift.toNat < writeLimit
  · rw [outOfReach?_eq_none h hlimit]
    dsimp only
    constructor
    · rintro ⟨n, hn⟩
      refine ⟨leastShift size minShift.toNat, le_leastShift .., le_shift_leastShift .., ?_⟩
      refine Nat.lt_of_not_le fun hle => ?_
      have hdigits : 4 ≤ Text.Numeral.maxDigits := by decide
      rw [bucketName_of_le hle (Nat.le_trans (eight_thousand_le hdigits) hle)] at hn
      cases hn
    · rintro ⟨k, hk, hsize, hlt⟩
      refine bucketName_of_lt (Nat.lt_of_le_of_lt (shift_le_shift ?_) hlt)
      refine Nat.le_of_not_lt fun hgt => ?_
      exact absurd hsize (Int.not_le.2 (lt_of_lt_leastShift hk hgt))
  · have hge := Nat.le_of_not_lt hlimit
    cases hout : outOfReach? minShift with
    | none => exact absurd hout (outOfReach?_ne_none hge)
    | some fault =>
      constructor
      · rintro ⟨n, hn⟩
        cases hn
      · rintro ⟨k, hk, -, hlt⟩
        exact absurd hlt (Nat.not_lt.2 (ten_pow_le_shift (Nat.le_trans hge hk)))

end SizeClass

namespace CacheName

variable {P : Program} {s : Settings} {call x : ValueId}

/-! ## Leading astray -/

variable (P s) in
/-- An allocation call leads astray: its handle is a bitcast of nothing, or one of its creation
calls has an address computed from nothing as its name, and none before it gives a name. -/
def Derails (call : ValueId) : Prop :=
  Untied P call ∨ ∃ g i c, IsHandle P s call g ∧ Creation P s g i c ∧ Baseless P c ∧
    ∀ j < i, ∀ c', Creation P s g j c' → ∀ n, ¬ Names P c' n

theorem Baseless.not_names {c : ValueId} (h : Baseless P c) (n : List UInt8) : ¬ Names P c n := by
  intro hn
  have hok := ofCreation_eq_ok_iff.2 hn
  rw [h.ofCreation_eq] at hok
  cases hok

theorem resolve_eq_outOfRange_iff (hl : P.Linked) (s : Settings) {y : ValueId × List ValueId}
    (hcall : P.call? call = some y) :
    resolve P s call = .error .outOfRange ↔ Derails P s call := by
  have hres := resolve_resolves hl s hcall
  constructor
  · intro h
    rw [h] at hres
    cases hres with
    | untied h => exact .inl h
    | baseless hg hdecides h =>
      exact .inr ⟨_, _, _, hg, hdecides.creation, h, fun j hj c' hc' n hn =>
        hn.verdict (hdecides.before j hj c' hc')⟩
  · rintro (huntied | ⟨g, i, c, hg, hc, hbase, hbefore⟩)
    · rw [resolve, huntied.handle_eq]
    · generalize resolve P s call = r at hres ⊢
      cases hres with
      | unhandled hno _ => exact absurd hg (hno g)
      | untied _ => rfl
      | baseless _ _ _ => rfl
      | @named g' c' i' n hg' hdecides hn =>
        obtain rfl := hg.unique hg'
        rcases Nat.lt_trichotomy i' i with hlt | rfl | hgt
        · exact absurd hn (hbefore i' hlt c' hdecides.creation n)
        · obtain rfl := hc.unique hdecides.creation
          exact absurd hn (hbase.not_names n)
        · exact absurd (hdecides.before i hgt c hc) hbase.verdict
      | @uncreated g' hg' hempty =>
        obtain rfl := hg.unique hg'
        exact absurd hc (hempty i c)
      | broken hg' hall _ _ _ =>
        obtain rfl := hg.unique hg'
        exact absurd (hall i c hc) hbase.verdict

/-- A name, a break, or neither. -/
theorem resolve_cases (hl : P.Linked) (s : Settings) {y : ValueId × List ValueId}
    (hcall : P.call? call = some y) :
    (∃ n, resolve P s call = .ok n) ∨ (∃ b, resolve P s call = .error (.brokenChain b)) ∨
      resolve P s call = .error .outOfRange := by
  have hres := resolve_resolves hl s hcall
  generalize resolve P s call = r at hres ⊢
  cases hres with
  | named => exact .inl ⟨_, rfl⟩
  | unhandled | uncreated | broken => exact .inr (.inl ⟨_, rfl⟩)
  | untied | baseless => exact .inr (.inr rfl)

/-! ## What a call says -/

variable (P) in
/-- The call names a function of a family. -/
def CallsOneOf (family : String → Bool) (call : ValueId) : Prop :=
  ∃ callee args d, P.call? call = some (callee, args) ∧ P.function? callee = some d ∧
    family (P.value callee).name = true

variable (P s) in
/-- What a call says about the cache, if it decides. -/
def siteVerdict? (call : ValueId) : Option (Except Fault (List UInt8)) :=
  match calleeName P call with
  | .error e => some (.error e)
  | .ok none => none
  | .ok (some callee) =>
    if s.isCacheAllocator callee then unlessBroken (resolve P s call) else none

variable (P s) in
/-- Whether a call names a general allocator. -/
def isGenericSite (call : ValueId) : Bool :=
  match calleeName P call with
  | .ok (some callee) => s.isGenericAllocator callee
  | _ => false

theorem calleeName_of_call {y : ValueId × List ValueId} (hcall : P.call? call = some y) :
    calleeName P call = .ok ((P.calledFunction? call).map fun f => (P.value f).name) := by
  rw [calleeName, hcall]
  rfl

theorem callsOneOf_iff {family : String → Bool} :
    CallsOneOf P family call ↔
      ∃ f, P.calledFunction? call = some f ∧ family (P.value f).name = true := by
  simp only [calledFunction?_eq_some_iff, CallsOneOf]
  constructor
  · rintro ⟨f, args, d, hcall, hd, hf⟩
    exact ⟨f, ⟨args, d, hcall, hd⟩, hf⟩
  · rintro ⟨f, ⟨args, d, hcall, hd⟩, hf⟩
    exact ⟨f, args, d, hcall, hd, hf⟩

theorem isGenericSite_iff {y : ValueId × List ValueId} (hcall : P.call? call = some y) :
    isGenericSite P s call = true ↔ CallsOneOf P s.isGenericAllocator call := by
  rw [callsOneOf_iff, isGenericSite, calleeName_of_call hcall]
  cases P.calledFunction? call <;> simp

theorem any_isGenericSite_iff {sites : List ValueId}
    (hsites : ∀ x ∈ sites, ∃ y, P.call? x = some y) :
    sites.any (isGenericSite P s) = true ↔
      ∃ x ∈ sites, CallsOneOf P s.isGenericAllocator x := by
  rw [List.any_eq_true]
  refine exists_congr fun x => and_congr_right fun hx => ?_
  obtain ⟨y, hy⟩ := hsites x hx
  exact isGenericSite_iff hy

theorem siteVerdict?_eq_some_iff {y : ValueId × List ValueId} (hcall : P.call? call = some y)
    {r : Except Fault (List UInt8)} :
    siteVerdict? P s call = some r ↔
      CallsOneOf P s.isCacheAllocator call ∧ resolve P s call = r ∧
        ∀ b, resolve P s call ≠ .error (.brokenChain b) := by
  rw [callsOneOf_iff, siteVerdict?, calleeName_of_call hcall]
  cases P.calledFunction? call with
  | none => simp
  | some f =>
    by_cases hf : s.isCacheAllocator (P.value f).name = true
    · simp [hf, unlessBroken_eq_some_iff]
    · simp [hf]

/-- The first call that decides says what the answer is; without one, it is that of the size. -/
theorem answer_classifyFrom (size : Int) (generic : Bool) (sites : List ValueId) (log : Log) :
    answer (classifyFrom P s size generic sites) log =
      (sites.findSome? (siteVerdict? P s)).getD
        (fallback s (generic || sites.any (isGenericSite P s)) size) := by
  induction sites generalizing generic log with
  | nil =>
    simp only [answer, classifyFrom, List.findSome?_nil, Option.getD_none, List.any_nil,
      Bool.or_false]
    cases fallback s generic size <;> rfl
  | cons call rest ih =>
    rw [List.findSome?_cons, List.any_cons, siteVerdict?, isGenericSite]
    unfold classifyFrom
    cases calleeName P call with
    | error e => rfl
    | ok name =>
      cases name with
      | none => exact ih generic _
      | some callee =>
        dsimp only
        rw [← Bool.or_assoc]
        by_cases hcache : s.isCacheAllocator callee = true
        · rw [if_pos hcache, if_pos hcache]
          cases hres : resolve P s call with
          | ok n => rfl
          | error e =>
            cases e with
            | brokenChain b => exact ih _ _
            | _ => rfl
        · rw [if_neg hcache, if_neg hcache]
          exact ih _ _

theorem answer_classify (sites : List ValueId) (size : Int) (log : Log) :
    answer (classify P s sites size) log =
      (sites.findSome? (siteVerdict? P s)).getD
        (fallback s (sites.any (isGenericSite P s)) size) := by
  rw [classify, answer_classifyFrom, Bool.false_or]

/-! ## When there is an answer -/

variable (P s) in
/-- A call to a cache allocator that leads astray. -/
def Strays (call : ValueId) : Prop :=
  CallsOneOf P s.isCacheAllocator call ∧ Derails P s call

section

variable (hl : P.Linked) {sites : List ValueId} (hsites : ∀ x ∈ sites, ∃ y, P.call? x = some y)

include hl hsites

end

end CacheName

end KernelObjects
