import KernelObjects.Proofs.CacheFaults
import KernelObjects.Proofs.Edits

/-!
# Names of caches in a growing program

The name of a cache, once found, stays. Each step of the way to it looks at values that are there,
and they stay what they are; only the list of creation calls can grow, and it grows at the end. So a
call that leads to a name leads to it ever after, and so does one that leads astray; one that breaks
may come to do either, if more is stored into its global.

The answer for a list of calls is that of the first one that does not break. It changes only if a
call before that one, broken until then, breaks no more. If such a call now leads to a name, this is
the answer; if it leads astray, there is none.

Results:
* `handle_eq`, `ofCreation_eq`: the two walks end as they did before.
* `creationCalls_append`: creation calls are added at the end only.
* `resolve_eq_of_not_broken`: what does not break stays.
* `classify_stable`: which answers change, and what they become.
* `classify_unstable`: an answer that gets lost.
-/
namespace KernelObjects.CacheName

variable {P Q : Program} {s : Settings} {v w g c call : ValueId}

/-! ## Steps lead to what is there -/

section

variable (hl : P.Linked)

include hl

theorem lt_of_mem_callArgs {args : List ValueId} (hargs : callArgs P v = .ok args) (hw : w ∈ args) :
    w.idx < P.values.size := by
  cases hcall : P.call? v with
  | none => rw [callArgs, hcall] at hargs; cases hargs
  | some x =>
    obtain ⟨callee, args'⟩ := x
    rw [callArgs_of_call hcall] at hargs
    cases hargs
    exact hl.lt_size_of_instr (Program.call?_eq_some_iff.1 hcall) (List.mem_append_left _ hw)

theorem lt_throughLoad (hv : v.idx < P.values.size) : (throughLoad P v).idx < P.values.size := by
  have hunloads := unloads_throughLoad P v
  generalize throughLoad P v = w at hunloads ⊢
  cases hunloads with
  | load hload => exact hl.lt_size_of_instr hload (List.mem_singleton_self _)
  | other _ => exact hv

theorem lt_of_mem_expr {opcode : String} {operands : List ValueId} {inBounds : Bool}
    (hkind : (P.value v).kind = .expr opcode operands inBounds) (hw : w ∈ operands) :
    w.idx < P.values.size := by
  refine hl.lt_size (v := v) ?_
  rw [Value.operands, hkind]
  exact hw

theorem lt_throughBitcast (hv : v.idx < P.values.size) (hw : throughBitcast P v = .ok w) :
    w.idx < P.values.size := by
  cases throughBitcast_eq_ok_iff.1 hw with
  | cast hkind => exact lt_of_mem_expr hl hkind (List.mem_cons_self ..)
  | other _ => exact hv

theorem lt_nameGlobal (hv : v.idx < P.values.size) (hw : nameGlobal P v = .ok w) :
    w.idx < P.values.size := by
  rcases nameGlobal_cases P v with ⟨base, he, hbase⟩ | ⟨_, he, -⟩ | ⟨he, -⟩
  · rw [he] at hw
    cases hw
    cases hbase with
    | global _ => exact hv
    | inBounds hkind => exact lt_of_mem_expr hl hkind (List.mem_cons_self ..)
  · rw [he] at hw
    cases hw
  · rw [he] at hw
    cases hw

end

theorem lt_constantInit (hr : P.Rooted) (hw : constantInit P v = .ok w) :
    w.idx < P.values.size := by
  rcases constantInit_cases P v with ⟨d, init, he, hd, -, hinit⟩ | ⟨_, he, -⟩
  · rw [he] at hw
    cases hw
    exact (hr v d (global?_eq_some_iff.1 hd)).1 _ hinit
  · rw [he] at hw
    cases hw

theorem lt_calledFunction? (hl : P.Linked) {f : ValueId} (hf : P.calledFunction? v = some f) :
    f.idx < P.values.size := by
  obtain ⟨args, -, hcall, -⟩ := calledFunction?_eq_some_iff.1 hf
  exact hl.lt_size_of_instr (Program.call?_eq_some_iff.1 hcall) (by simp [Instr.operands])

theorem lt_of_mem_creationCalls (hl : P.Linked) (hc : c ∈ creationCalls P s g) :
    c.idx < P.values.size := by
  obtain ⟨u, -, hu⟩ := List.mem_filterMap.1 hc
  obtain ⟨hstore, -⟩ := creationCall?_eq_some_iff.1 hu
  exact hl.lt_size_of_instr hstore (List.mem_cons_self ..)

theorem lt_handle (hg : handle P s call = .ok g) : g.idx < P.values.size := by
  obtain ⟨-, -, -, -, d, -, -, -, hd, -⟩ := handle_eq_ok_iff.1 hg
  exact Program.lt_size_of_kind (by simp [global?_eq_some_iff.1 hd])

/-! ## Steps lead where they did -/

section

variable (h : P.Extends Q)

include h

theorem callArgs_eq (hv : v.idx < P.values.size) : callArgs Q v = callArgs P v := by
  rw [callArgs, callArgs, h.call?_eq hv]

theorem throughLoad_eq (hv : v.idx < P.values.size) : throughLoad Q v = throughLoad P v := by
  rw [throughLoad, throughLoad, h.instr?_eq hv]

theorem throughBitcast_eq (hv : v.idx < P.values.size) :
    throughBitcast Q v = throughBitcast P v := by
  unfold throughBitcast
  refine h.kind_elim hv ?_ ?_ ?_ ?_
  all_goals intros; rfl

theorem holdsCache_eq {t : Ty}
    (ht : ∀ st, t.underlyingStruct? = some st → st.idx < P.structs.size) :
    holdsCache Q s t = holdsCache P s t := by
  unfold holdsCache
  split
  · rfl
  · split
    · next st hst =>
      rw [StructDef.baseName, StructDef.baseName, h.name st (ht st hst)]
    · rfl

theorem handle_eq (hl : P.Linked) (hr : P.Rooted) (hv : call.idx < P.values.size) :
    handle Q s call = handle P s call := by
  unfold handle
  rw [callArgs_eq h hv]
  cases hargs : callArgs P call with
  | error e => rfl
  | ok args =>
    cases args with
    | nil => rfl
    | cons arg args =>
      have harg := lt_of_mem_callArgs hl hargs (List.mem_cons_self ..)
      have hload := lt_throughLoad hl harg
      dsimp only
      rw [throughLoad_eq h harg, throughBitcast_eq h hload]
      cases hcast : throughBitcast P (throughLoad P arg) with
      | error e => rfl
      | ok w =>
        dsimp only
        have hw := lt_throughBitcast hl hload hcast
        rw [h.global?_eq hw]
        cases hd : P.global? w with
        | none => rfl
        | some d =>
          dsimp only
          rw [holdsCache_eq h (hr w d (global?_eq_some_iff.1 hd)).2, h.name_eq hw]

theorem nameGlobal_eq (hv : v.idx < P.values.size) : nameGlobal Q v = nameGlobal P v := by
  unfold nameGlobal
  refine h.kind_elim hv ?_ ?_ ?_ ?_
  all_goals intros; rfl

theorem constantInit_eq (hv : v.idx < P.values.size) : constantInit Q v = constantInit P v := by
  unfold constantInit
  rw [h.global?_eq hv]
  cases hd : P.global? v with
  | none => rfl
  | some d => rw [h.name_eq hv]

theorem characters_eq (hv : v.idx < P.values.size) : characters Q v = characters P v := by
  unfold characters Value.isCharArray
  rw [h.type_eq hv]
  refine h.kind_elim hv ?_ ?_ ?_ ?_
  all_goals intros; rfl

theorem ofCreation_eq (hl : P.Linked) (hr : P.Rooted) (hv : c.idx < P.values.size) :
    ofCreation Q c = ofCreation P c := by
  unfold ofCreation
  rw [callArgs_eq h hv]
  cases hargs : callArgs P c with
  | error e => rfl
  | ok args =>
    cases args with
    | nil => rfl
    | cons arg args =>
      have harg := lt_of_mem_callArgs hl hargs (List.mem_cons_self ..)
      dsimp only
      rw [nameGlobal_eq h harg]
      cases hbase : nameGlobal P arg with
      | error e => rfl
      | ok base =>
        simp only [bind, Except.bind]
        rw [constantInit_eq h (lt_nameGlobal hl harg hbase)]
        cases hinit : constantInit P base with
        | error e => rfl
        | ok init => exact characters_eq h (lt_constantInit hr hinit)

/-! ## The search goes on where it ended -/

theorem creationCall?_eq (hl : P.Linked) (hv : v.idx < P.values.size) :
    creationCall? Q s g v = creationCall? P s g v := by
  unfold creationCall?
  rw [h.instr?_eq hv]
  split
  · next call dest hstore =>
    have hcall : call.idx < P.values.size := hl.lt_size_of_instr hstore (List.mem_cons_self ..)
    rw [h.calledFunction?_eq hcall hl]
    cases hf : P.calledFunction? call with
    | none => rfl
    | some f =>
      dsimp only
      rw [h.name_eq (lt_calledFunction? hl hf)]
  · rfl

/-- Later stores into a global come behind those that it has. -/
theorem creationCalls_append (hl : P.Linked) (hg : g.idx < P.values.size) :
    ∃ later, creationCalls Q s g = creationCalls P s g ++ later := by
  obtain ⟨later, husers, -⟩ := h.users g hg
  have hold : (P.value g).users.filterMap (creationCall? Q s g) = creationCalls P s g := by
    refine List.filterMap_congr fun u hu => creationCall?_eq h hl ?_
    exact hl.lt_size_of_user hu
  refine ⟨later.filterMap (creationCall? Q s g), ?_⟩
  rw [creationCalls, husers, List.filterMap_append, hold]

theorem ofCreations_eq (hl : P.Linked) (hr : P.Rooted) {calls : List ValueId}
    (hcalls : ∀ c ∈ calls, c.idx < P.values.size) (failure : ChainBreak) :
    ofCreations Q failure calls = ofCreations P failure calls := by
  induction calls generalizing failure with
  | nil => rfl
  | cons c calls ih =>
    have hc := hcalls c (List.mem_cons_self ..)
    have hrest := ih fun c' hc' => hcalls c' (List.mem_cons_of_mem _ hc')
    rw [ofCreations, ofCreations, ofCreation_eq h hl hr hc]
    cases ofCreation P c with
    | ok n => rfl
    | error e =>
      cases e with
      | brokenChain b => exact hrest b
      | _ => rfl

end

/-- Further creation calls are looked at only if all before them break. -/
theorem ofCreations_append (failure : ChainBreak) (calls later : List ValueId)
    (hunbroken : ∀ b, ofCreations P failure calls ≠ .error (.brokenChain b)) :
    ofCreations P failure (calls ++ later) = ofCreations P failure calls := by
  induction calls generalizing failure with
  | nil => exact absurd rfl (hunbroken failure)
  | cons c calls ih =>
    rw [ofCreations] at hunbroken
    rw [List.cons_append, ofCreations, ofCreations]
    cases hc : ofCreation P c with
    | ok n => rfl
    | error e =>
      rw [hc] at hunbroken
      cases e with
      | brokenChain b => exact ih b hunbroken
      | _ => rfl

/-- What an allocation call comes to stays, unless it breaks. -/
theorem resolve_eq_of_not_broken (h : P.Extends Q) (hl : P.Linked) (hr : P.Rooted)
    (hv : call.idx < P.values.size) (hunbroken : ∀ b, resolve P s call ≠ .error (.brokenChain b)) :
    resolve Q s call = resolve P s call := by
  unfold resolve at hunbroken ⊢
  rw [handle_eq h hl hr hv]
  cases hg : handle P s call with
  | error e => rfl
  | ok g =>
    rw [hg] at hunbroken
    obtain ⟨later, hcalls⟩ := creationCalls_append h hl (s := s) (lt_handle hg)
    have hsame := ofCreations_eq h hl hr (fun c => lt_of_mem_creationCalls (s := s) (g := g) hl)
      ⟨.noCreation s.cacheCreator, g⟩
    dsimp only at hunbroken ⊢
    rw [hcalls, ofCreations_append, hsame]
    rwa [hsame]

/-! ## The answer for several calls -/

variable (P s) in
/-- A call to a cache allocator that leads to a name. -/
def Settles (call : ValueId) (n : List UInt8) : Prop :=
  CallsOneOf P s.isCacheAllocator call ∧ resolve P s call = .ok n

variable (P s) in
/-- A call that has no say: no cache allocator is called, or the chain breaks. -/
def Dropped (call : ValueId) : Prop :=
  (∀ n, ¬ Settles P s call n) ∧ ¬ Strays P s call

theorem siteVerdict?_eq_none_iff (hl : P.Linked) {y : ValueId × List ValueId}
    (hcall : P.call? call = some y) : siteVerdict? P s call = none ↔ Dropped P s call := by
  constructor
  · intro hv
    refine ⟨fun n hn => ?_, fun hstray => ?_⟩
    · rw [(siteVerdict?_eq_some_iff hcall).2 ⟨hn.1, hn.2, by simp [hn.2]⟩] at hv
      cases hv
    · have hout := (resolve_eq_outOfRange_iff hl s hcall).2 hstray.2
      rw [(siteVerdict?_eq_some_iff hcall).2 ⟨hstray.1, hout, by simp [hout]⟩] at hv
      cases hv
  · rintro ⟨hsettles, hstray⟩
    refine Option.eq_none_iff_forall_ne_some.2 fun r hr => ?_
    obtain ⟨hcalls, rfl, hunbroken⟩ := (siteVerdict?_eq_some_iff hcall).1 hr
    rcases resolve_cases hl s hcall with ⟨n, hn⟩ | ⟨b, hb⟩ | hout
    · exact hsettles n ⟨hcalls, hn⟩
    · exact hunbroken b hb
    · exact hstray ⟨hcalls, (resolve_eq_outOfRange_iff hl s hcall).1 hout⟩

theorem Settles.verdict {n : List UInt8} (h : Settles P s call n) :
    siteVerdict? P s call = some (.ok n) := by
  obtain ⟨callee, args, -, hcall, -⟩ := h.1
  exact (siteVerdict?_eq_some_iff hcall).2 ⟨h.1, h.2, by simp [h.2]⟩

theorem Strays.verdict (hl : P.Linked) (h : Strays P s call) :
    siteVerdict? P s call = some (.error .outOfRange) := by
  obtain ⟨callee, args, -, hcall, -⟩ := h.1
  have hout := (resolve_eq_outOfRange_iff hl s hcall).2 h.2
  exact (siteVerdict?_eq_some_iff hcall).2 ⟨h.1, hout, by simp [hout]⟩

theorem not_strays_of_grounded (hP : P.Grounded) (call : ValueId) : ¬ Strays P s call := by
  rintro ⟨-, huntied | ⟨-, -, c, -, -, hbase, -⟩⟩
  · exact not_untied hP call huntied
  · exact not_baseless hP c hbase

/-- The answer is what the first call with a say comes to. -/
theorem answer_of_verdict {before after : List ValueId} {r : Except Fault (List UInt8)}
    (hbefore : ∀ x ∈ before, siteVerdict? P s x = none) (hc : siteVerdict? P s c = some r)
    (size : Int) (log : Log) :
    answer (classify P s (before ++ c :: after) size) log = r := by
  rw [answer_classify, List.findSome?_append, List.findSome?_eq_none_iff.2 hbefore,
    List.findSome?_cons, hc]
  rfl

theorem is_call_of_resolve {n : List UInt8} (h : resolve P s call = .ok n) :
    ∃ x, P.call? call = some x := by
  cases hcall : P.call? call with
  | none =>
    rw [resolve, handle, callArgs, hcall] at h
    cases h
  | some x => exact ⟨x, rfl⟩

theorem resolve_later (h : P.Extends Q) (hl : P.Linked) (hr : P.Rooted) {n : List UInt8}
    (hres : resolve P s call = .ok n) : resolve Q s call = .ok n := by
  obtain ⟨x, hcall⟩ := is_call_of_resolve hres
  rw [resolve_eq_of_not_broken h hl hr (Program.lt_size_of_call? hcall) (by simp [hres]), hres]

theorem Settles.later (h : P.Extends Q) (hl : P.Linked) (hr : P.Rooted) {n : List UInt8}
    (hc : Settles P s call n) : Settles Q s call n := by
  obtain ⟨hcalls, hres⟩ := hc
  obtain ⟨x, hcall⟩ := is_call_of_resolve hres
  obtain ⟨f, hf, hfamily⟩ := callsOneOf_iff.1 hcalls
  refine ⟨callsOneOf_iff.2 ⟨f, ?_, ?_⟩, resolve_later h hl hr hres⟩
  · rw [h.calledFunction?_eq (Program.lt_size_of_call? hcall) hl, hf]
  · rwa [h.name_eq (lt_calledFunction? hl hf)]

end KernelObjects.CacheName
