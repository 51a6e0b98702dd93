import KernelObjects.Proofs.Publishing
import KernelObjects.Registry.WorkList

/-!
# The turns of a work list

Between two turns, the structs in progress are those whose ready tasks are on the stack; each of
them holds everything above its ready task, and what it embeds is built or above it. So a struct
that is met while it is in progress holds itself, and a struct that is ready can be built.

Results:
* `turn_sane`: a turn keeps this, or it fails for one of four reasons.
* `drainFrom_spec`: so a work list builds the struct it was started for, or it fails for such a
  reason.
* `handleOf_spec`: and so does a request for a struct.
-/
namespace KernelObjects.Flatten

variable {cx : FlattenContext} {s s' : FlattenState} {root : StructId} {t : Target}

/-- Why a struct cannot be flattened. -/
inductive Excuse (cx : FlattenContext) (s : FlattenState) (t : Target) (root : StructId) :
    Fault → Prop where
  | cycle {x : StructId} (reach : cx.structs.Reaches root x) (cycle : cx.structs.Holds x x) :
      Excuse cx s t root (.worded .embedsItself (cx.structs.structText x))
  | noBody {x : StructId} (reach : cx.structs.Reaches root x)
      (noBody : (cx.structs.get x).isOpaque = true) :
      Excuse cx s t root (.worded (.opaqueType · .flatten) (cx.structs.label x))
  | unnamed {x : StructId} {e : Fault} (reach : cx.structs.Reaches root x)
      (fresh : ¬ Known cx s x) (unnamed : cx.structs.label x = .error e) : Excuse cx s t root e
  | noLayout {x : StructId} {e : Fault} (reach : cx.structs.Reaches root x)
      (body : (cx.structs.get x).isOpaque = false)
      (inner : ∀ b, cx.structs.Embeds x b → cx.structs.WellFormed b)
      (noLayout : cx.structs.layoutOn t x = .error e) : Excuse cx s t root e

/-- What cannot be flattened later cannot be flattened now. -/
theorem Excuse.older {e : Fault} (ha : Advances cx s s') (h : Excuse cx s' t root e) :
    Excuse cx s t root e := by
  cases h with
  | cycle reach cycle => exact .cycle reach cycle
  | noBody reach noBody => exact .noBody reach noBody
  | unnamed reach fresh unnamed => exact .unnamed reach (fun hk => fresh (ha.known hk)) unnamed
  | noLayout reach body inner noLayout => exact .noLayout reach body inner noLayout

/-! ## The order of the stack -/

/-- Each ready task embeds only what is above it or in `A`. -/
def Supported (S : Structs) : (StructId → Prop) → List Task → Prop
  | _, [] => True
  | A, x :: xs =>
    (x.ready = true → ∀ b, S.Embeds x.struct b → A b) ∧ Supported S (fun b => A b ∨ b = x.struct) xs

theorem Supported.mono {S : Structs} {A B : StructId → Prop} {xs : List Task}
    (h : Supported S A xs) (hAB : ∀ b, A b → B b) : Supported S B xs := by
  induction xs generalizing A B with
  | nil => trivial
  | cons x xs ih =>
    exact ⟨fun hx b hb => hAB b (h.1 hx b hb), ih h.2 fun b hb => hb.imp_left (hAB b)⟩

/-- What is met supports the tasks below it. -/
theorem Supported.met {S : Structs} {A : StructId → Prop} {inner : List StructId} {xs : List Task}
    (h : Supported S (fun b => A b ∨ b ∈ inner) xs) :
    Supported S A (inner.map (Task.mk · false) ++ xs) := by
  induction inner generalizing A with
  | nil => exact h.mono fun b hb => hb.resolve_right (List.not_mem_nil)
  | cons c inner ih =>
    refine ⟨fun hx => (nomatch hx), ih (h.mono fun b hb => ?_)⟩
    rwa [List.mem_cons, ← or_assoc] at hb

/-- What holds between two turns of a work list that was started for `root`. -/
structure Sane (cx : FlattenContext) (t : Target) (root : StructId) (w : WorkList)
    (s : FlattenState) : Prop where
  orderly : Orderly cx s
  target : s.layouts.targetOf cx.layout = t
  waiting : w.inProgress = (w.stack.filter Task.ready).map Task.struct
  nodup : w.inProgress.Nodup
  fresh : ∀ b ∈ w.inProgress, s.registry.handle? b cx.module.name = none
  body : ∀ b ∈ w.inProgress, (cx.structs.get b).isOpaque = false
  reach : ∀ x ∈ w.stack, cx.structs.Reaches root x.struct
  above : w.stack.Pairwise fun x y => y.ready = true → cx.structs.Holds y.struct x.struct
  supported : Supported cx.structs
    (fun b => ∃ n, s.registry.handle? b cx.module.name = some n) w.stack
  root : (∃ n, s.registry.handle? root cx.module.name = some n) ∨ ∃ x ∈ w.stack, x.struct = root

namespace Sane

theorem start (ho : Orderly cx s) (root : StructId) :
    Sane cx (s.layouts.targetOf cx.layout) root (.start root) s where
  orderly := ho
  target := rfl
  waiting := rfl
  nodup := .nil
  fresh _ hb := nomatch hb
  body _ hb := nomatch hb
  reach x hx := by rw [List.mem_singleton.1 hx]; exact .refl
  above := List.pairwise_singleton ..
  supported := ⟨fun hx => (nomatch hx), trivial⟩
  root := .inr ⟨_, List.mem_singleton.2 rfl, rfl⟩

variable {st : StructId} {rest : List Task} {waiting : List StructId}

/-- A task whose struct has a descriptor can be dropped. -/
theorem drop (h : Sane cx t root ⟨⟨st, false⟩ :: rest, waiting⟩ s) {n : Nat}
    (hn : s.registry.handle? st cx.module.name = some n) : Sane cx t root ⟨rest, waiting⟩ s where
  orderly := h.orderly
  target := h.target
  waiting := h.waiting
  nodup := h.nodup
  fresh := h.fresh
  body := h.body
  reach x hx := h.reach x (List.mem_cons_of_mem _ hx)
  above := (List.pairwise_cons.1 h.above).2
  supported := h.supported.2.mono fun b hb => hb.elim id fun he => ⟨n, he ▸ hn⟩
  root := by
    rcases h.root with hr | ⟨x, hx, hr⟩
    · exact .inl hr
    · rcases List.mem_cons.1 hx with rfl | hx
      · exact .inl ⟨n, hr ▸ hn⟩
      · exact .inr ⟨x, hx, hr⟩

/-- A struct is met for the first time. -/
theorem push (h : Sane cx t root ⟨⟨st, false⟩ :: rest, waiting⟩ s)
    (hfresh : s.registry.handle? st cx.module.name = none) (hw : st ∉ waiting)
    (hbody : (cx.structs.get st).isOpaque = false) :
    Sane cx t root
      ⟨(cx.structs.embedded st).map (Task.mk · false) ++ ⟨st, true⟩ :: rest, st :: waiting⟩ s where
  orderly := h.orderly
  target := h.target
  waiting := by
    have hnone : ((cx.structs.embedded st).map (Task.mk · false)).filter Task.ready = [] := by
      simp
    have hrest : waiting = (rest.filter Task.ready).map Task.struct := h.waiting
    simp [hnone, hrest]
  nodup := List.nodup_cons.2 ⟨hw, h.nodup⟩
  fresh b hb := by
    rcases List.mem_cons.1 hb with rfl | hb
    · exact hfresh
    · exact h.fresh b hb
  body b hb := by
    rcases List.mem_cons.1 hb with rfl | hb
    · exact hbody
    · exact h.body b hb
  reach x hx := by
    have hst := h.reach _ (List.mem_cons_self ..)
    simp only [List.mem_append, List.mem_map, List.mem_cons] at hx
    rcases hx with ⟨b, hb, rfl⟩ | rfl | hx
    · exact hst.tail (Structs.mem_embedded _ |>.1 hb)
    · exact hst
    · exact h.reach x (List.mem_cons_of_mem _ hx)
  above := by
    obtain ⟨hst, hrest⟩ := List.pairwise_cons.1 h.above
    refine List.pairwise_append.2 ⟨?_, List.pairwise_cons.2 ⟨hst, hrest⟩, ?_⟩
    · exact List.pairwise_map.2 (List.pairwise_of_forall fun _ _ hy => nomatch hy)
    · intro x hx y hy hready
      obtain ⟨b, hb, rfl⟩ := List.mem_map.1 hx
      have hb := (Structs.mem_embedded _).1 hb
      rcases List.mem_cons.1 hy with rfl | hy
      · exact .single hb
      · exact .tail (hst y hy hready) hb
  supported := by
    refine .met ⟨fun _ b hb => .inr ((Structs.mem_embedded _).2 hb), ?_⟩
    exact h.supported.2.mono fun b hb => hb.imp_left .inl
  root := by
    rcases h.root with hr | ⟨x, hx, hr⟩
    · exact .inl hr
    · refine .inr ?_
      rcases List.mem_cons.1 hx with rfl | hx
      · exact ⟨⟨st, true⟩, by simp, hr⟩
      · exact ⟨x, by simp [hx], hr⟩

/-- A struct that is ready can be built. -/
theorem buildable (h : Sane cx t root ⟨⟨st, true⟩ :: rest, waiting⟩ s)
    (hfresh : s.registry.handle? st cx.module.name = none) : Buildable cx s st :=
  ⟨hfresh, h.supported.1 rfl⟩

theorem waiting_cons (h : Sane cx t root ⟨⟨st, true⟩ :: rest, waiting⟩ s) :
    waiting = st :: (rest.filter Task.ready).map Task.struct :=
  h.waiting

/-- A struct that was ready has been built. -/
theorem built (h : Sane cx t root ⟨⟨st, true⟩ :: rest, waiting⟩ s) (ho : Orderly cx s')
    (ha : Advances cx s s') {n : Nat} (hn : s'.registry.handle? st cx.module.name = some n)
    (hothers : ∀ b, b ≠ st →
      s'.registry.handle? b cx.module.name = s.registry.handle? b cx.module.name) :
    Sane cx t root ⟨rest, waiting.erase st⟩ s' where
  orderly := ho
  target := (ha.layouts.targets _ h.orderly.layout).trans h.target
  waiting := by rw [h.waiting_cons, List.erase_cons_head]
  nodup := h.nodup.erase st
  fresh b hb := by
    have hne : b ≠ st := fun he => h.nodup.not_mem_erase (he ▸ hb)
    rw [hothers b hne]
    exact h.fresh b (List.mem_of_mem_erase hb)
  body b hb := h.body b (List.mem_of_mem_erase hb)
  reach x hx := h.reach x (List.mem_cons_of_mem _ hx)
  above := (List.pairwise_cons.1 h.above).2
  supported := by
    refine h.supported.2.mono fun b hb => ?_
    rcases hb with ⟨n', hn'⟩ | rfl
    · exact ⟨n', ha.old hn'⟩
    · exact ⟨n, hn⟩
  root := by
    rcases h.root with ⟨n', hn'⟩ | ⟨x, hx, hr⟩
    · exact .inl ⟨n', ha.old hn'⟩
    · rcases List.mem_cons.1 hx with rfl | hx
      · exact .inl ⟨n, hr ▸ hn⟩
      · exact .inr ⟨x, hx, hr⟩

/-- A struct that is met while it is in progress holds itself. -/
theorem holds_self (h : Sane cx t root ⟨⟨st, false⟩ :: rest, waiting⟩ s) (hw : st ∈ waiting) :
    cx.structs.Holds st st := by
  have hwait : waiting = (rest.filter Task.ready).map Task.struct := h.waiting
  rw [hwait] at hw
  obtain ⟨y, hy, rfl⟩ := List.mem_map.1 hw
  obtain ⟨hmem, hready⟩ := List.mem_filter.1 hy
  exact (List.pairwise_cons.1 h.above).1 y hmem hready

end Sane

/-! ## Turns and runs -/

/-- What a turn can do with the task on top of the stack. -/
inductive Turned (cx : FlattenContext) (t : Target) (s : FlattenState) (st : StructId)
    (rest : List Task) (waiting : List StructId) :
    Bool → EStateM.Result Fault FlattenState WorkList → Prop where
  | drop {n : Nat} (known : s.registry.handle? st cx.module.name = some n) :
      Turned cx t s st rest waiting false (.ok ⟨rest, waiting⟩ s)
  | push (fresh : s.registry.handle? st cx.module.name = none) (free : st ∉ waiting)
      (body : (cx.structs.get st).isOpaque = false) :
      Turned cx t s st rest waiting false
        (.ok ⟨(cx.structs.embedded st).map (Task.mk · false) ++ ⟨st, true⟩ :: rest,
          st :: waiting⟩ s)
  | cycle (waits : st ∈ waiting) :
      Turned cx t s st rest waiting false
        (.error (.worded .embedsItself (cx.structs.structText st)) s)
  | noBody (noBody : (cx.structs.get st).isOpaque = true) :
      Turned cx t s st rest waiting false
        (.error (.worded (.opaqueType · .flatten) (cx.structs.label st)) s)
  | built {s' : FlattenState} {l : StructLayout} {n : Nat} (named : cx.structs.Nameable st)
      (lays : cx.structs.layoutOn t st = .ok l) (orderly : Orderly cx s')
      (advances : Advances cx s s') (known : s'.registry.handle? st cx.module.name = some n)
      (others : ∀ b, b ≠ st →
        s'.registry.handle? b cx.module.name = s.registry.handle? b cx.module.name) :
      Turned cx t s st rest waiting true (.ok ⟨rest, waiting.erase st⟩ s')
  | unnamed {e : Fault} (fresh : ¬ Known cx s st) (unnamed : cx.structs.label st = .error e) :
      Turned cx t s st rest waiting true (.error e s)
  | noLayout {s' : FlattenState} {e : Fault} (noLayout : cx.structs.layoutOn t st = .error e)
      (orderly : Orderly cx s') (advances : Advances cx s s')
      (same : ∀ b m, s'.registry.handle? b m = s.registry.handle? b m) :
      Turned cx t s st rest waiting true (.error e s')

theorem turn_turned {st : StructId} {ready : Bool} {rest : List Task} {waiting : List StructId}
    (h : Sane cx t root ⟨⟨st, ready⟩ :: rest, waiting⟩ s) :
    Turned cx t s st rest waiting ready (turn cx ⟨⟨st, ready⟩ :: rest, waiting⟩ s) := by
  rw [turn_cons]
  cases hk : s.registry.handle? st cx.module.name with
  | some n =>
    cases ready with
    | false => exact .drop hk
    | true =>
      -- a struct in progress has no descriptor
      have hst := h.fresh st (h.waiting_cons ▸ List.mem_cons_self ..)
      rw [hk] at hst
      cases hst
  | none =>
    simp only [Option.isSome_none, Bool.false_eq_true, if_false]
    cases ready with
    | true =>
      simp only [if_true]
      cases hlabel : cx.structs.label st with
      | error e =>
        rw [build_unnamed hlabel]
        refine .unnamed ?_ hlabel
        rintro ⟨n, hn⟩
        rw [hk] at hn
        cases hn
      | ok name =>
        have hname : cx.structs.Nameable st := ⟨name, hlabel⟩
        cases hl : cx.structs.layoutOn (s.layouts.targetOf cx.layout) st with
        | ok l =>
          obtain ⟨s', he, ho, ha, hn⟩ := build_ok h.orderly (h.buildable hk) hname hl
          rw [he]
          refine .built hname (h.target ▸ hl) ho ha hn fun b hne => ?_
          rw [handle?_build cx he, if_neg fun hb => hne hb.1]
        | error e =>
          obtain ⟨s', he, ho, ha, hsame⟩ := build_error h.orderly (h.buildable hk) hname hl
          rw [he]
          exact .noLayout (h.target ▸ hl) ho ha hsame
    | false =>
      simp only [Bool.false_eq_true, if_false]
      by_cases hw : st ∈ waiting
      · rw [if_pos hw]
        exact .cycle hw
      rw [if_neg hw]
      cases hbody : (cx.structs.get st).isOpaque with
      | true => exact .noBody hbody
      | false => exact .push hk hw hbody

theorem turn_sane {w : WorkList} (h : Sane cx t root w s) (hne : w.stack ≠ []) :
    (∃ w' s', turn cx w s = .ok w' s' ∧ Sane cx t root w' s' ∧ Advances cx s s') ∨
    (∃ e s', turn cx w s = .error e s' ∧ Orderly cx s' ∧ Advances cx s s' ∧
      Excuse cx s t root e) := by
  obtain ⟨_ | ⟨⟨st, ready⟩, rest⟩, waiting⟩ := w
  · exact absurd rfl hne
  have hreach : cx.structs.Reaches root st := h.reach _ (List.mem_cons_self ..)
  have hturn := turn_turned h
  generalize turn cx ⟨⟨st, ready⟩ :: rest, waiting⟩ s = result at hturn
  cases hturn with
  | drop known => exact .inl ⟨_, s, rfl, h.drop known, .refl cx s⟩
  | push fresh free body => exact .inl ⟨_, s, rfl, h.push fresh free body, .refl cx s⟩
  | cycle waits =>
    exact .inr ⟨_, s, rfl, h.orderly, .refl cx s, .cycle hreach (h.holds_self waits)⟩
  | noBody noBody => exact .inr ⟨_, s, rfl, h.orderly, .refl cx s, .noBody hreach noBody⟩
  | built named lays orderly advances known others =>
    exact .inl ⟨_, _, rfl, h.built orderly advances known others, advances⟩
  | unnamed fresh unnamed =>
    exact .inr ⟨_, s, rfl, h.orderly, .refl cx s, .unnamed hreach fresh unnamed⟩
  | noLayout noLayout orderly advances same =>
    refine .inr ⟨_, _, rfl, orderly, advances, .noLayout hreach ?_ (fun b hb => ?_) noLayout⟩
    · exact h.body st (h.waiting_cons ▸ List.mem_cons_self ..)
    · obtain ⟨n, hn⟩ := h.supported.1 rfl b hb
      exact h.orderly.consistent.wellFormed hn

/-- The run of a work list ends with the struct it was started for, or with an excuse. -/
theorem drainFrom_spec {w : WorkList} (h : Sane cx t root w s) :
    (∃ n s', drainFrom cx w s = .ok () s' ∧ Orderly cx s' ∧ Advances cx s s' ∧
      s'.registry.handle? root cx.module.name = some n) ∨
    (∃ e s', drainFrom cx w s = .error e s' ∧ Orderly cx s' ∧ Advances cx s s' ∧
      Excuse cx s t root e) := by
  induction w, s using drainFrom.induct cx with
  | case1 w s hempty =>
    obtain ⟨stack, waiting⟩ := w
    subst hempty
    rw [drainFrom_nil]
    obtain ⟨n, hn⟩ := h.root.resolve_right (by simp)
    exact .inl ⟨n, s, rfl, h.orderly, .refl cx s, hn⟩
  | case2 w s hne w' s' ht ih =>
    rw [drainFrom_of_ok cx hne ht]
    rcases turn_sane h hne with ⟨w₁, s₁, he, hs, ha⟩ | ⟨e, s₁, he, -⟩
    · rw [ht] at he
      cases he
      rcases ih hs with ⟨n, s'', he', ho', ha', hn⟩ | ⟨e, s'', he', ho', ha', hx⟩
      · exact .inl ⟨n, s'', he', ho', .trans hs.orderly ha ha', hn⟩
      · exact .inr ⟨e, s'', he', ho', .trans hs.orderly ha ha', hx.older ha⟩
    · rw [ht] at he
      cases he
  | case3 w s hne e s' ht =>
    rw [drainFrom_of_error cx hne ht]
    rcases turn_sane h hne with ⟨w₁, s₁, he, -⟩ | ⟨e₁, s₁, he, ho, ha, hx⟩
    · rw [ht] at he
      cases he
    · rw [ht] at he
      cases he
      exact .inr ⟨e, s', rfl, ho, ha, hx⟩

/-- A request for a struct is met with its position, or with an excuse. -/
theorem handleOf_spec (ho : Orderly cx s) (root : StructId) :
    (∃ n s', handleOf cx root s = .ok n s' ∧ Orderly cx s' ∧ Advances cx s s' ∧
      s'.registry.handle? root cx.module.name = some n) ∨
    (∃ e s', handleOf cx root s = .error e s' ∧ Orderly cx s' ∧ Advances cx s s' ∧
      Excuse cx s (s.layouts.targetOf cx.layout) root e) := by
  unfold handleOf
  cases hb : (cx.structs.get root).isOpaque with
  | true => exact .inr ⟨_, s, rfl, ho, .refl cx s, .noBody .refl hb⟩
  | false =>
    simp only [Bool.false_eq_true, if_false]
    rw [get_bind]
    cases hk : s.registry.handle? root cx.module.name with
    | some n => exact .inl ⟨n, s, rfl, ho, .refl cx s, hk⟩
    | none =>
      dsimp only
      rcases drainFrom_spec (Sane.start ho root) with
        ⟨n, s', he, ho', ha, hn⟩ | ⟨e, s', he, ho', ha, hx⟩
      · refine .inl ⟨n, s', ?_, ho', ha, hn⟩
        rw [bind_ok (x := drain cx (.start root)) he, built_eq hn]
      · exact .inr ⟨e, s', bind_error (x := drain cx (.start root)) he, ho', ha, hx⟩

end KernelObjects.Flatten
