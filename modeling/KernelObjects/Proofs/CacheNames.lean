import KernelObjects.Proofs.CacheChain

/-!
# The search for the name of a cache

The creation calls of a global are tried one after the other. The first that does not break decides;
if all of them break, the last break is reported. So of several names the first one is found, and no
name is missed for a call that breaks before it.

Results:
* `search_cases`: what the creation calls of a global come to.
* `resolve_resolves`: all that can come of an allocation call.
* `resolve_exact`: which name is found, and which break is reported otherwise.
-/
namespace KernelObjects.CacheName

variable {P : Program} {s : Settings} {call c g : ValueId}

/-! ## The search -/

/-- What comes of a walk, unless the chain breaks. -/
def unlessBroken {α : Type} : Except Fault α → Option (Except Fault α)
  | .error (.brokenChain _) => none
  | r => some r

theorem unlessBroken_eq_none_iff {α : Type} {r : Except Fault α} :
    unlessBroken r = none ↔ ∃ b, r = .error (.brokenChain b) := by
  unfold unlessBroken
  split
  · next b => simp
  · next hr => simpa using hr

theorem unlessBroken_eq_some_iff {α : Type} {r r' : Except Fault α} :
    unlessBroken r = some r' ↔ r = r' ∧ ∀ b, r ≠ .error (.brokenChain b) := by
  unfold unlessBroken
  split
  · next b => simp
  · next hr => simpa using fun _ => hr

/-- What a creation call says if it does not break. -/
def verdict? (P : Program) (c : ValueId) : Option (Except Fault (List UInt8)) :=
  unlessBroken (ofCreation P c)

/-- The first call that does not break decides. -/
theorem ofCreations_of_findSome {calls : List ValueId} {r : Except Fault (List UInt8)}
    (failure : ChainBreak) (h : calls.findSome? (verdict? P) = some r) :
    ofCreations P failure calls = r := by
  induction calls generalizing failure with
  | nil => cases h
  | cons call calls ih =>
    rw [List.findSome?_cons] at h
    rw [ofCreations]
    cases hv : verdict? P call with
    | none =>
      obtain ⟨b, hb⟩ := unlessBroken_eq_none_iff.1 hv
      rw [hv] at h
      rw [hb]
      exact ih b h
    | some r' =>
      rw [hv] at h
      cases h
      obtain ⟨he, hb⟩ := unlessBroken_eq_some_iff.1 hv
      rw [he]
      split
      · rfl
      · next b => exact absurd he (hb b)
      · rfl

/-- If all calls break, the last break is the reason. -/
theorem ofCreations_of_broken {calls : List ValueId} (failure : ChainBreak)
    (h : ∀ c ∈ calls, verdict? P c = none) :
    (calls = [] ∧ ofCreations P failure calls = .error (.brokenChain failure)) ∨
      ∃ c, calls.getLast? = some c ∧ ofCreations P failure calls = ofCreation P c := by
  induction calls generalizing failure with
  | nil => exact .inl ⟨rfl, rfl⟩
  | cons call calls ih =>
    obtain ⟨b, hb⟩ := unlessBroken_eq_none_iff.1 (h call (List.mem_cons_self ..))
    rw [ofCreations, hb]
    rcases ih b fun c hc => h c (List.mem_cons_of_mem _ hc) with
      ⟨rfl, he⟩ | ⟨c, hlast, he⟩
    · exact .inr ⟨call, rfl, he.trans hb.symm⟩
    · exact .inr ⟨c, by rw [List.getLast?_cons, hlast]; rfl, he⟩

/-- What is found first in a list that is in order comes before all else that could be found. -/
theorem findSome?_of_pairwise {α β : Type} {R : α → α → Prop} (hR : ∀ i j, R i j → ¬ R j i)
    {l : List α} (hl : l.Pairwise R) {f : α → Option β} {b : β} (h : l.findSome? f = some b) :
    ∃ i ∈ l, f i = some b ∧ ∀ j ∈ l, R j i → f j = none := by
  induction l with
  | nil => cases h
  | cons a l ih =>
    obtain ⟨ha, hl⟩ := List.pairwise_cons.1 hl
    rw [List.findSome?_cons] at h
    cases hf : f a with
    | some b' =>
      rw [hf] at h
      cases h
      refine ⟨a, List.mem_cons_self .., hf, fun j hj hja => ?_⟩
      rcases List.mem_cons.1 hj with rfl | hj
      · exact absurd hja (hR j j hja)
      · exact absurd hja (hR a j (ha j hj))
    | none =>
      rw [hf] at h
      obtain ⟨i, hi, hfi, hbefore⟩ := ih hl h
      refine ⟨i, List.mem_cons_of_mem _ hi, hfi, fun j hj hji => ?_⟩
      rcases List.mem_cons.1 hj with rfl | hj
      · exact hf
      · exact hbefore j hj hji

theorem Creation.lt_size {i : Nat} (h : Creation P s g i c) : i < P.values.size := by
  refine Nat.lt_of_not_le fun hle => ?_
  have hstore := h.1
  rw [Program.instr?, Program.value_of_size_le hle] at hstore
  cases hstore

/-- What the creation calls of a global come to: the first that does not break decides, and if all
break the last one does. -/
theorem search_cases (hl : P.Linked) {d : GlobalDef} (hg : P.global? g = some d)
    (failure : ChainBreak) :
    (∃ i c, Creation P s g i c ∧ verdict? P c ≠ none ∧
      (∀ j < i, ∀ c', Creation P s g j c' → verdict? P c' = none) ∧
      ofCreations P failure (creationCalls P s g) = ofCreation P c) ∨
    ((∀ i c, Creation P s g i c → verdict? P c = none) ∧
      (((∀ i c, ¬ Creation P s g i c) ∧
          ofCreations P failure (creationCalls P s g) = .error (.brokenChain failure)) ∨
        ∃ i c, Creation P s g i c ∧ (∀ j c', Creation P s g j c' → j ≤ i) ∧
          ofCreations P failure (creationCalls P s g) = ofCreation P c)) := by
  have hmem : ∀ {i c}, Creation P s g i c → i ∈ List.range P.values.size ∧
      creationCall? P s g ⟨i⟩ = some c :=
    fun hc => ⟨List.mem_range.2 hc.lt_size, creationCall?_eq_some_iff.2 hc⟩
  cases hfind : (creationCalls P s g).findSome? (verdict? P) with
  | some r =>
    have hdecides := ofCreations_of_findSome failure hfind
    rw [creationCalls_eq hl hg, ← List.head?_filterMap, List.filterMap_filterMap,
      List.head?_filterMap] at hfind
    obtain ⟨i, -, hi, hbefore⟩ := findSome?_of_pairwise (R := (· < ·))
      (fun _ _ => Nat.lt_asymm) List.pairwise_lt_range hfind
    obtain ⟨c, hc, hv⟩ := Option.bind_eq_some_iff.1 hi
    refine .inl ⟨i, c, creationCall?_eq_some_iff.1 hc, by simp [hv], fun j hj c' hc' => ?_,
      hdecides.trans (unlessBroken_eq_some_iff.1 hv).1.symm⟩
    have hnone := hbefore j (hmem hc').1 hj
    rw [(hmem hc').2] at hnone
    exact hnone
  | none =>
    rw [List.findSome?_eq_none_iff] at hfind
    refine .inr ⟨fun i c hc => hfind c ?_, ?_⟩
    · rw [creationCalls_eq hl hg]
      exact List.mem_filterMap.2 ⟨i, hmem hc⟩
    rcases ofCreations_of_broken failure hfind with ⟨hnil, he⟩ | ⟨c, hlast, he⟩
    · refine .inl ⟨fun i c hc => ?_, he⟩
      rw [creationCalls_eq hl hg, List.filterMap_eq_nil_iff] at hnil
      have hnone := hnil i (hmem hc).1
      rw [(hmem hc).2] at hnone
      cases hnone
    · rw [creationCalls_eq hl hg, List.getLast?_filterMap] at hlast
      obtain ⟨i, -, hi, hafter⟩ := findSome?_of_pairwise (R := (· > ·))
        (fun _ _ => Nat.lt_asymm) (List.pairwise_reverse.2 List.pairwise_lt_range) hlast
      refine .inr ⟨i, c, creationCall?_eq_some_iff.1 hi, fun j c' hc' => ?_, he⟩
      refine Nat.le_of_not_lt fun hlt => ?_
      have hnone := hafter j (List.mem_reverse.2 (hmem hc').1) hlt
      rw [(hmem hc').2] at hnone
      cases hnone

/-! ## The whole way -/

theorem IsHandle.global (h : IsHandle P s call g) : ∃ d, P.global? g = some d := by
  obtain ⟨-, -, -, -, d, -, -, -, hd, -⟩ := h
  exact ⟨d, hd⟩

theorem Creation.is_call {i : Nat} (h : Creation P s g i c) : ∃ x, P.call? c = some x := by
  obtain ⟨-, callee, args, -, hcall, -⟩ := h
  exact ⟨_, hcall⟩

theorem Names.verdict {n : List UInt8} (h : Names P c n) : verdict? P c ≠ none := by
  intro hv
  obtain ⟨b, hb⟩ := unlessBroken_eq_none_iff.1 hv
  rw [ofCreation_eq_ok_iff.2 h] at hb
  cases hb

theorem Baseless.verdict (h : Baseless P c) : verdict? P c ≠ none := by
  intro hv
  obtain ⟨b, hb⟩ := unlessBroken_eq_none_iff.1 hv
  rw [h.ofCreation_eq] at hb
  cases hb

variable (P s) in
/-- The store at position `i` is the first into `g` whose creation call does not break. -/
structure Decides (g : ValueId) (i : Nat) (c : ValueId) : Prop where
  creation : Creation P s g i c
  before : ∀ j < i, ∀ c', Creation P s g j c' → verdict? P c' = none

variable (P s) in
/-- All that can come of an allocation call. -/
inductive Resolves (call : ValueId) : Except Fault (List UInt8) → Prop where
  | unhandled {b : ChainBreak} (none : ∀ g, ¬ IsHandle P s call g)
      (stage : b.cause.stage = .handle) : Resolves call (.error (.brokenChain b))
  | untied (h : Untied P call) : Resolves call (.error .outOfRange)
  | named {g c : ValueId} {i : Nat} {n : List UInt8} (handle : IsHandle P s call g)
      (decides : Decides P s g i c) (names : Names P c n) : Resolves call (.ok n)
  | baseless {g c : ValueId} {i : Nat} (handle : IsHandle P s call g)
      (decides : Decides P s g i c) (h : Baseless P c) : Resolves call (.error .outOfRange)
  | uncreated {g : ValueId} (handle : IsHandle P s call g)
      (none : ∀ i c, ¬ Creation P s g i c) :
      Resolves call (.error (.brokenChain ⟨.noCreation s.cacheCreator, g⟩))
  | broken {g c : ValueId} {i : Nat} {b : ChainBreak} (handle : IsHandle P s call g)
      (all : ∀ j c', Creation P s g j c' → verdict? P c' = none) (last : Creation P s g i c)
      (latest : ∀ j c', Creation P s g j c' → j ≤ i) (h : Breaks P c b.cause.stage b.node) :
      Resolves call (.error (.brokenChain b))

theorem resolve_resolves (hl : P.Linked) (s : Settings) {x : ValueId × List ValueId}
    (hcall : P.call? call = some x) : Resolves P s call (resolve P s call) := by
  cases hh : handle P s call with
  | error e =>
    have hno : ∀ g, ¬ IsHandle P s call g := by
      intro g hg
      rw [handle_eq_ok_iff.2 hg] at hh
      cases hh
    rw [resolve, hh]
    rcases handle_eq_error hcall hh with ⟨rfl, huntied⟩ | ⟨b, rfl, hstage⟩
    · exact .untied huntied
    · exact .unhandled hno hstage
  | ok g =>
    have hg := handle_eq_ok_iff.1 hh
    obtain ⟨d, hd⟩ := hg.global
    rw [resolve, hh]
    dsimp only
    rcases search_cases (s := s) hl hd ⟨.noCreation s.cacheCreator, g⟩ with
      ⟨i, c, hc, hv, hbefore, he⟩ | ⟨hall, ⟨hnone, he⟩ | ⟨i, c, hc, hlast, he⟩⟩
    · obtain ⟨x, hx⟩ := hc.is_call
      rw [he]
      rcases ofCreation_cases hx with ⟨n, hok, hn⟩ | ⟨b, hb, -⟩ | ⟨hout, hbase⟩
      · rw [hok]
        exact .named hg ⟨hc, hbefore⟩ hn
      · exact absurd (unlessBroken_eq_none_iff.2 ⟨b, hb⟩) hv
      · rw [hout]
        exact .baseless hg ⟨hc, hbefore⟩ hbase
    · rw [he]
      exact .uncreated hg hnone
    · obtain ⟨x, hx⟩ := hc.is_call
      rw [he]
      rcases ofCreation_cases hx with ⟨n, -, hn⟩ | ⟨b, hb, hbreak⟩ | ⟨-, hbase⟩
      · exact absurd (hall i c hc) hn.verdict
      · rw [hb]
        exact .broken hg hall hc hlast hbreak
      · exact absurd (hall i c hc) hbase.verdict

variable (P s) in
/-- The first creation call of `g` that gives a name, in the order of the stores, gives `n`. -/
def FirstName (g : ValueId) (n : List UInt8) : Prop :=
  ∃ i c, Creation P s g i c ∧ Names P c n ∧
    ∀ j < i, ∀ c', Creation P s g j c' → ∀ n', ¬ Names P c' n'

theorem Decides.firstName {i : Nat} {n : List UInt8} (h : Decides P s g i c) (hn : Names P c n) :
    FirstName P s g n :=
  ⟨i, c, h.creation, hn, fun j hj c' hc' _ hn' => hn'.verdict (h.before j hj c' hc')⟩

/-- If the call that decides gives a name, it is the first one that is given. -/
theorem Decides.eq_of_firstName {i : Nat} {n n' : List UInt8} (h : Decides P s g i c)
    (hn : Names P c n) (hfirst : FirstName P s g n') : n = n' := by
  obtain ⟨i', c', hc', hn', hbefore⟩ := hfirst
  obtain rfl : i = i' := by
    rcases Nat.lt_trichotomy i i' with hlt | heq | hgt
    · exact absurd hn (hbefore i hlt c h.creation n)
    · exact heq
    · exact absurd (h.before i' hgt c' hc') hn'.verdict
  obtain rfl := h.creation.unique hc'
  exact Except.ok.inj ((ofCreation_eq_ok_iff.2 hn).symm.trans (ofCreation_eq_ok_iff.2 hn'))

theorem not_untied (hP : P.Grounded) (call : ValueId) : ¬ Untied P call := by
  rintro ⟨-, -, -, v, inBounds, -, -, hkind⟩
  have hv := hP.value v
  rw [Value.Grounded, hkind] at hv
  exact hv (.inl rfl) rfl

theorem not_baseless (hP : P.Grounded) (c : ValueId) : ¬ Baseless P c := by
  rintro ⟨-, arg, -, -, hkind⟩
  have hv := hP.value arg
  rw [Value.Grounded, hkind] at hv
  exact hv (.inr rfl) rfl

/-- Of a call in a program whose constant expressions have operands: the name that is found is the
first one that a creation call of its global gives, and there is one if one is given. Otherwise the
chain breaks: at the handle if the call leads to no global, at the global if nothing is created for
it, and else where the last of the creation calls breaks. -/
theorem resolve_exact (hP : P.Made) (hground : P.Grounded) (s : Settings)
    {x : ValueId × List ValueId} (hcall : P.call? call = some x) :
    (∀ n, resolve P s call = .ok n ↔ ∃ g, IsHandle P s call g ∧ FirstName P s g n) ∧
    ((∀ n g, IsHandle P s call g → ¬ FirstName P s g n) →
      ∃ b, resolve P s call = .error (.brokenChain b) ∧
        ((∀ g, ¬ IsHandle P s call g) → b.cause.stage = .handle) ∧
        ∀ g, IsHandle P s call g →
          ((∀ i c, ¬ Creation P s g i c) → b.cause.stage = .global ∧ b.node = g) ∧
          ∀ i c, Creation P s g i c → (∀ j c', Creation P s g j c' → j ≤ i) →
            Breaks P c b.cause.stage b.node) := by
  have hres := resolve_resolves hP.linked s hcall
  generalize resolve P s call = r at hres ⊢
  cases hres with
  | unhandled hno hstage =>
    refine ⟨fun n => ⟨nofun, fun ⟨g, hg, _⟩ => absurd hg (hno g)⟩, fun _ => ⟨_, rfl, ?_⟩⟩
    exact ⟨fun _ => hstage, fun g hg => absurd hg (hno g)⟩
  | untied h => exact absurd h (not_untied hground call)
  | baseless _ _ h => exact absurd h (not_baseless hground _)
  | @named g c i n hg hdecides hn =>
    refine ⟨fun n' => ⟨fun h => ?_, ?_⟩, fun hnone => absurd (hdecides.firstName hn) (hnone n g hg)⟩
    · cases h
      exact ⟨g, hg, hdecides.firstName hn⟩
    · rintro ⟨g', hg', hfirst⟩
      obtain rfl := hg.unique hg'
      rw [hdecides.eq_of_firstName hn hfirst]
  | @uncreated g hg hempty =>
    refine ⟨fun n => ⟨nofun, ?_⟩, fun _ => ⟨_, rfl, fun hno => absurd hg (hno g), ?_⟩⟩
    · rintro ⟨g', hg', i, c, hc, -⟩
      obtain rfl := hg.unique hg'
      exact absurd hc (hempty i c)
    · intro g' hg'
      obtain rfl := hg.unique hg'
      exact ⟨fun _ => ⟨rfl, rfl⟩, fun i c hc => absurd hc (hempty i c)⟩
  | @broken g c i b hg hall hc hlast hbreak =>
    refine ⟨fun n => ⟨nofun, ?_⟩, fun _ => ⟨b, rfl, fun hno => absurd hg (hno g), ?_⟩⟩
    · rintro ⟨g', hg', j, c', hc', hn, -⟩
      obtain rfl := hg.unique hg'
      exact absurd (hall j c' hc') hn.verdict
    · intro g' hg'
      obtain rfl := hg.unique hg'
      refine ⟨fun hempty => absurd hc (hempty i c), fun i' c' hc' hlast' => ?_⟩
      obtain rfl : i = i' := Nat.le_antisymm (hlast' i c hc) (hlast i' c' hc')
      obtain rfl := hc.unique hc'
      exact hbreak

/-! A cache is created twice for one global, and only the second call gives it a name. The
allocation call reads the global through a bitcast. -/

/-- The program up to the stores into the global `⟨0⟩`. -/
def slabStores : Program :=
  let cache : Ty := .struct ⟨0⟩
  let create : Signature := { ret := .pointerTo cache, vararg := true }
  let P := (({} : Program).defineStruct { name := "struct.kmem_cache.7" }).2
  let P := (P.global "task_cachep" (.pointerTo cache) none false none).2
  let P := (P.constString "task" true).2
  let P := (P.global ".str" (.array (.int 8) 5) (some ⟨1⟩) true none).2
  let P := (P.constGep ⟨2⟩ [0, 0] true).2
  let P := (P.function "kmem_cache_create_usercopy" create [] none).2
  let P := (P.instruction (.call ⟨6⟩ []) .unknown "" none).2
  let P := (P.instruction (.call ⟨6⟩ [⟨5⟩]) .unknown "" none).2
  let P := (P.instruction (.store ⟨7⟩ ⟨0⟩) .unknown "" none).2
  (P.instruction (.store ⟨8⟩ ⟨0⟩) .unknown "" none).2

/-- The same with an allocation call, `⟨14⟩`, and one of the cache `⟨1⟩`, which is none. -/
def slabProgram : Program :=
  let alloc : Signature := { ret := .pointerTo .unknown, vararg := true }
  let P := (slabStores.function "kmem_cache_alloc" alloc [] none).2
  let P := (P.constBitcast ⟨0⟩ (.pointerTo .unknown)).2
  let P := (P.instruction (.load ⟨12⟩) .unknown "" none).2
  let P := (P.instruction (.call ⟨11⟩ [⟨13⟩]) .unknown "" none).2
  (P.instruction (.call ⟨11⟩ [⟨1⟩]) .unknown "" none).2

theorem made_slabStores : slabStores.Made := by
  have hstart : Program.Made {} := .refl
  refine .instruction (.instruction (.instruction (.instruction (.function (.constGep
    (.global (.leaf (.global (hstart.around _ _) ..) ?_ ?_) ..) _ _ ?_) ..) _ _ _ ?_) _ _ _ ?_)
    _ _ _ ?_) _ _ _ ?_
  all_goals decide +kernel

theorem made_slabProgram : slabProgram.Made := by
  refine .instruction (.instruction (.instruction (.constExpr (.function made_slabStores ..)
    _ _ _ ?_) _ _ _ ?_) _ _ _ ?_) _ _ _ ?_
  all_goals decide +kernel

/-- The name is found behind the call that breaks; a cache that is no global has none. -/
theorem resolve_exact_slab :
    slabProgram.Made ∧ slabProgram.Grounded ∧
    resolve slabProgram {} ⟨14⟩ = .ok (Text.Utf8.encode "task") ∧
    ∃ b, resolve slabProgram {} ⟨15⟩ = .error (.brokenChain b) ∧ b.cause.stage = .handle := by
  have hground : slabProgram.Grounded := by decide +kernel
  have hfound : slabProgram.call? ⟨14⟩ = some (⟨11⟩, [⟨13⟩]) := by decide +kernel
  have hbroken : slabProgram.call? ⟨15⟩ = some (⟨11⟩, [⟨1⟩]) := by decide +kernel
  refine ⟨made_slabProgram, hground, ((resolve_exact made_slabProgram hground {} hfound).1 _).2
    ⟨⟨0⟩, ?_, 10, ⟨8⟩, ?_, ?_, ?_⟩, ?_⟩
  · exact handle_eq_ok_iff.1 (by decide +kernel)
  · exact creationCall?_eq_some_iff.1 (by decide +kernel)
  · exact ofCreation_eq_ok_iff.1 (by decide +kernel)
  · intro j hj c' hc' n' hn'
    have hbefore : ∀ j < 10, ∀ c' ∈ creationCall? slabProgram {} ⟨0⟩ ⟨j⟩,
        verdict? slabProgram c' = none := by decide +kernel
    exact hn'.verdict (hbefore j hj c' (creationCall?_eq_some_iff.2 hc'))
  · have hno : ∀ g, ¬ IsHandle slabProgram {} ⟨15⟩ g := by
      intro g hg
      have hhandle : handle slabProgram {} ⟨15⟩ = stopAt .handleNotGlobal ⟨1⟩ := by decide +kernel
      rw [handle_eq_ok_iff.2 hg] at hhandle
      cases hhandle
    obtain ⟨b, hb, hstage, -⟩ := (resolve_exact made_slabProgram hground {} hbroken).2
      fun n g hg => absurd hg (hno g)
    exact ⟨b, hb, hstage hno⟩

end KernelObjects.CacheName
