import KernelObjects.Proofs.Arena
import KernelObjects.Proofs.Effects

/-!
# Runs of a module

A run visits the structs of a module in order and asks for those that have a body. What it builds is
what those hold by value, wherever that is defined, and it builds nothing else. A second run finds
every struct built and every name registered, so it changes nothing.

Results:
* `Flatten.handleOf_reached`, `Flatten.forM_meet_reached`: what is built was asked for or is held.
* `Flatten.forM_meet_visited`: what a run that returns has visited.
* `Flatten.run_again`: a run over visited structs does nothing.
* `run_closure`: the three together, for a session after any run of operations.
-/
namespace KernelObjects

/-! ## Names that are registered already -/

namespace Registry

/-- The names of a struct are registered, and so is a module that defines it if this one does. -/
def Entered (S : Structs) (m : Module) (st : StructId) (r : Registry) : Prop :=
  (S.get st).isLiteral = false →
    r.names.contains (S.get st).name = true ∧ r.aliases.contains (S.get st).baseName = true ∧
      (m.defines S st = true → (r.owners.get? st.idx).isSome = true)

variable {S : Structs} {r : Registry} {m : Module} {st : StructId}

theorem registerName_of_entered (h : r.Entered S m st) (home : ModuleId) :
    r.registerName S st home m = r := by
  unfold registerName
  dsimp only
  by_cases hl : (S.get st).isLiteral = true
  · rw [if_pos hl]
  · obtain ⟨hn, ha, ho⟩ := h (Bool.eq_false_iff.2 hl)
    rw [if_neg hl, Table.insertNew, Table.insertNew, if_pos hn, if_pos ha]
    split
    · next hd => rw [Slots.insertNew, if_pos (ho hd)]
    · rfl

theorem contains_insertNew {t : Table String StructId} {k : String} (k' : String) (v : StructId)
    (h : t.contains k = true ∨ k = k') : (t.insertNew k' v).contains k = true := by
  rw [Table.contains, Table.get?_insertNew]
  split
  · rfl
  · next hne => exact h.resolve_right hne

theorem isSome_insertNew {t : Slots ModuleId} {i : Nat} (j : Nat) (home : ModuleId)
    (h : (t.get? i).isSome = true ∨ i = j) : ((t.insertNew j home).get? i).isSome = true := by
  rw [Slots.get?_insertNew]
  split
  · rfl
  · next hne => exact h.resolve_right hne

theorem entered_registerName (S : Structs) (m : Module) (st : StructId) (home : ModuleId)
    (r : Registry) : (r.registerName S st home m).Entered S m st := by
  intro hl
  rw [registerName, hl]
  refine ⟨contains_insertNew _ _ (.inr rfl), contains_insertNew _ _ (.inr rfl), fun hd => ?_⟩
  simp only [hd, Bool.false_eq_true, if_false, if_true]
  exact isSome_insertNew _ _ (.inr rfl)

theorem Entered.registerName (h : r.Entered S m st) (S' : Structs) (st' : StructId)
    (home' : ModuleId) (m' : Module) : (r.registerName S' st' home' m').Entered S m st := by
  intro hl
  obtain ⟨hn, ha, ho⟩ := h hl
  unfold Registry.registerName
  dsimp only
  split
  · exact ⟨hn, ha, ho⟩
  · refine ⟨contains_insertNew _ _ (.inl hn), contains_insertNew _ _ (.inl ha), fun hd => ?_⟩
    split
    · exact isSome_insertNew _ _ (.inl (ho hd))
    · exact ho hd

end Registry

namespace Flatten

variable {cx : FlattenContext} {s s' : FlattenState} {st root : StructId} {t : Target}

theorem stable_entered (cx : FlattenContext) (S : Structs) (m : Module) (st : StructId) :
    Stable cx fun r => r.Entered S m st where
  noted hr := hr
  built {r st' d} hr _ := by
    have hpush : (r.push st' cx.module.name d).Entered S m st := hr
    exact hpush.registerName _ _ _ _

/-! ## What is built is reached -/

theorem turn_reached {w : WorkList} (h : Sane cx t root w s) {b : StructId}
    (hb : Known cx (after (turn cx w) s) b) : Known cx s b ∨ cx.structs.Reaches root b := by
  obtain ⟨_ | ⟨⟨st, ready⟩, rest⟩, waiting⟩ := w
  · exact .inl hb
  have hturn := turn_turned h
  unfold after at hb
  generalize turn cx ⟨⟨st, ready⟩ :: rest, waiting⟩ s = result at hturn hb
  cases hturn with
  | built named lays orderly advances known others =>
    by_cases he : b = st
    · exact .inr (he ▸ h.reach _ (List.mem_cons_self ..))
    · obtain ⟨n, hn⟩ := hb
      exact .inl ⟨n, (others b he).symm.trans hn⟩
  | noLayout noLayout orderly advances same =>
    obtain ⟨n, hn⟩ := hb
    exact .inl ⟨n, (same b _).symm.trans hn⟩
  | _ => exact .inl hb

theorem drain_reached {w : WorkList} (h : Sane cx t root w s) {b : StructId}
    (hb : Known cx (after (drain cx w) s) b) : Known cx s b ∨ cx.structs.Reaches root b := by
  unfold drain at hb
  induction w, s using drainFrom.induct cx with
  | case1 w s hempty =>
    obtain ⟨stack, waiting⟩ := w
    subst hempty
    rw [after_ok (drainFrom_nil cx waiting s)] at hb
    exact .inl hb
  | case2 w s hne w' s' hturn ih =>
    have hrest : after (drainFrom cx w) s = after (drainFrom cx w') s' := by
      simp only [after, drainFrom_of_ok cx hne hturn]
    rw [hrest] at hb
    rcases turn_sane h hne with ⟨w₁, s₁, he, hs, -⟩ | ⟨e, s₁, he, -⟩
    · rw [hturn] at he
      cases he
      rcases ih hs hb with hb | hb
      · exact turn_reached h (by rw [after_ok hturn]; exact hb)
      · exact .inr hb
    · rw [hturn] at he
      cases he
  | case3 w s hne e s' hturn =>
    rw [after_error (drainFrom_of_error cx hne hturn)] at hb
    exact turn_reached h (by rw [after_error hturn]; exact hb)

/-- A request builds its struct and what that holds, failed or not, and nothing else. -/
theorem handleOf_reached (ho : Orderly cx s) {b : StructId}
    (hb : Known cx (after (handleOf cx root) s) b) :
    Known cx s b ∨ (cx.structs.get root).isOpaque = false ∧ cx.structs.Reaches root b := by
  cases hbody : (cx.structs.get root).isOpaque with
  | true =>
    unfold handleOf at hb
    rw [hbody] at hb
    exact .inl hb
  | false =>
    cases hk : s.registry.handle? root cx.module.name with
    | some n =>
      rw [after_ok (handleOf_known hbody hk)] at hb
      exact .inl hb
    | none =>
      rw [after_handleOf hbody hk] at hb
      exact (drain_reached (.start ho root) hb).imp_right fun hr => ⟨rfl, hr⟩

/-- The state in which the names of a struct are registered. -/
def registered (cx : FlattenContext) (st : StructId) (s : FlattenState) : FlattenState :=
  { s with registry := s.registry.registerName cx.structs st cx.home cx.module }

theorem known_registered {b : StructId} : Known cx (registered cx st s) b ↔ Known cx s b := by
  simp only [Known, registered, Registry.handle?_registerName]

theorem orderly_registered (ho : Orderly cx s) (st : StructId) : Orderly cx (registered cx st s) :=
  (Safe.registerName st s ho).1

theorem meet_of_opaque (h : (cx.structs.get st).isOpaque = true) (s : FlattenState) :
    ∃ log, meet cx st s = .ok () { registered cx st s with log } := by
  unfold meet
  rw [h]
  exact ⟨_, rfl⟩

theorem meet_of_body (h : (cx.structs.get st).isOpaque = false) (s : FlattenState) :
    meet cx st s =
      match handleOf cx st (registered cx st s) with
      | .ok _ s' => .ok () s'
      | .error e s' => .error e s' := by
  have hname : onRegistry (fun r => r.registerName cx.structs st cx.home cx.module) s =
      .ok () (registered cx st s) := rfl
  unfold meet
  rw [bind_ok hname, h]
  simp only [Bool.false_eq_true, if_false, bind, EStateM.bind]
  cases handleOf cx st (registered cx st s) <;> rfl

theorem meet_reached (ho : Orderly cx s) {b : StructId} (hb : Known cx (after (meet cx root) s) b) :
    Known cx s b ∨ (cx.structs.get root).isOpaque = false ∧ cx.structs.Reaches root b := by
  cases hbody : (cx.structs.get root).isOpaque with
  | true =>
    obtain ⟨log, he⟩ := meet_of_opaque hbody s
    rw [after_ok he] at hb
    exact .inl (known_registered.1 hb)
  | false =>
    have hafter : after (meet cx root) s = after (handleOf cx root) (registered cx root s) := by
      rw [after, meet_of_body hbody, after]
      cases handleOf cx root (registered cx root s) <;> rfl
    rw [hafter] at hb
    rcases handleOf_reached (orderly_registered ho root) hb with hold | ⟨-, hreach⟩
    · exact .inl (known_registered.1 hold)
    · exact .inr ⟨rfl, hreach⟩

theorem forM_meet_reached (ho : Orderly cx s) {xs : List StructId} {b : StructId}
    (hb : Known cx (after (xs.forM (meet cx)) s) b) : Known cx s b ∨
      ∃ root ∈ xs, (cx.structs.get root).isOpaque = false ∧ cx.structs.Reaches root b := by
  induction xs generalizing s with
  | nil => exact .inl hb
  | cons x xs ih =>
    have hone : ∀ {y}, Known cx (after (meet cx x) s) y → Known cx s y ∨
        ∃ root ∈ x :: xs, (cx.structs.get root).isOpaque = false ∧ cx.structs.Reaches root y :=
      fun hy => (meet_reached ho hy).imp_right fun h => ⟨x, List.mem_cons_self .., h⟩
    have ho' : Orderly cx (after (meet cx x) s) := (Safe.meet x s ho).1
    cases he : meet cx x s with
    | ok u s' =>
      rw [after_ok he] at hone ho'
      have hforM : (x :: xs).forM (meet cx) s = xs.forM (meet cx) s' := bind_ok he
      rw [after, hforM, ← after] at hb
      rcases ih ho' hb with hb | ⟨root, hroot, h⟩
      · exact hone hb
      · exact .inr ⟨root, List.mem_cons_of_mem _ hroot, h⟩
    | error e s' =>
      rw [after_error he] at hone
      have hforM : (x :: xs).forM (meet cx) s = .error e s' := bind_error he
      rw [after_error hforM] at hb
      exact hone hb

/-! ## Visits -/

/-- A struct has been visited: its names are registered, and it is built unless it is opaque. -/
structure Visited (cx : FlattenContext) (s : FlattenState) (st : StructId) : Prop where
  entered : s.registry.Entered cx.structs cx.module st
  known : (cx.structs.get st).isOpaque = false → Known cx s st

theorem meet_visited (ho : Orderly cx s) {u : Unit} (h : meet cx st s = .ok u s') :
    Visited cx s' st := by
  have hentered : (registered cx st s).registry.Entered cx.structs cx.module st :=
    Registry.entered_registerName _ _ _ _ _
  cases hbody : (cx.structs.get st).isOpaque with
  | true =>
    obtain ⟨log, he⟩ := meet_of_opaque hbody s
    rw [he] at h
    cases h
    exact ⟨hentered, fun hb => absurd (hbody.symm.trans hb) Bool.noConfusion⟩
  | false =>
    rw [meet_of_body hbody] at h
    have hkept := (stable_entered cx cx.structs cx.module st).handleOf st _ hentered
    rcases handleOf_spec (orderly_registered ho st) st with ⟨n, s₁, he, -, -, hn⟩ | ⟨e, s₁, he, -⟩
    · rw [after_ok he] at hkept
      rw [he] at h
      cases h
      exact ⟨hkept, fun _ => ⟨n, hn⟩⟩
    · rw [he] at h
      cases h

theorem forM_meet_visited (ho : Orderly cx s) {xs : List StructId} {u : Unit}
    (h : xs.forM (meet cx) s = .ok u s') : ∀ st ∈ xs, Visited cx s' st := by
  induction xs generalizing s with
  | nil => nofun
  | cons x xs ih =>
    have ho₁ : Orderly cx (after (meet cx x) s) := (Safe.meet x s ho).1
    cases he : meet cx x s with
    | error e s₁ =>
      have hforM : (x :: xs).forM (meet cx) s = .error e s₁ := bind_error he
      rw [hforM] at h
      cases h
    | ok u₁ s₁ =>
      rw [after_ok he] at ho₁
      have hforM : (x :: xs).forM (meet cx) s = xs.forM (meet cx) s₁ := bind_ok he
      rw [hforM] at h
      refine List.forall_mem_cons.2 ⟨?_, ih ho₁ h⟩
      -- the later visits leave the first struct visited
      have hx := meet_visited ho he
      have hadv : Advances cx s₁ (after (xs.forM (meet cx)) s₁) :=
        (Safe.forM Safe.meet s₁ ho₁).2
      have hentered : (after (xs.forM (meet cx)) s₁).registry.Entered cx.structs cx.module x :=
        Preserves.forM ((stable_entered cx cx.structs cx.module x).meet fun hr =>
          hr.registerName _ _ _ _) s₁ hx.entered
      rw [after_ok h] at hadv hentered
      exact ⟨hentered, fun hb => hadv.known (hx.known hb)⟩

/-- An opaque struct can be met, and a well-formed one of which all can be named. -/
theorem meet_returns (ho : Orderly cx s) (ht : (s.layouts.targetOf cx.layout).Aligned)
    (hst : (cx.structs.get st).isOpaque = true ∨
      (cx.structs.WellFormed st ∧ ∀ x, cx.structs.Reaches st x → cx.structs.Nameable x)) :
    ∃ s', meet cx st s = .ok () s' := by
  rcases hst with hbody | ⟨hw, hn⟩
  · obtain ⟨log, he⟩ := meet_of_opaque hbody s
    exact ⟨_, he⟩
  · rw [meet_of_body hw.has_body]
    rcases handleOf_spec (orderly_registered ho st) st with ⟨n, s', he, -⟩ | ⟨e, s', -, -, -, hx⟩
    · rw [he]
      exact ⟨s', rfl⟩
    · exact absurd ⟨hw, fun x hreach => .inr (hn x hreach)⟩ (hx.refutes ht)

theorem forM_meet_returns (ho : Orderly cx s) (ht : (s.layouts.targetOf cx.layout).Aligned)
    {xs : List StructId}
    (hxs : ∀ st ∈ xs, (cx.structs.get st).isOpaque = true ∨
      (cx.structs.WellFormed st ∧ ∀ x, cx.structs.Reaches st x → cx.structs.Nameable x)) :
    ∃ s', xs.forM (meet cx) s = .ok () s' := by
  induction xs generalizing s with
  | nil => exact ⟨s, rfl⟩
  | cons x xs ih =>
    obtain ⟨hx, hrest⟩ := List.forall_mem_cons.1 hxs
    obtain ⟨s₁, he⟩ := meet_returns ho ht hx
    have hsafe := Safe.meet x s ho
    rw [after_ok he] at hsafe
    have ht₁ : (s₁.layouts.targetOf cx.layout).Aligned := by
      rw [hsafe.2.layouts.targets _ ho.layout]
      exact ht
    obtain ⟨s', he'⟩ := ih hsafe.1 ht₁ hrest
    have hforM : (x :: xs).forM (meet cx) s = xs.forM (meet cx) s₁ := bind_ok he
    exact ⟨s', hforM.trans he'⟩

/-- To meet a visited struct again writes to the log at most. -/
theorem meet_again (h : Visited cx s st) : ∃ log, meet cx st s = .ok () { s with log } := by
  have hsame : registered cx st s = s := by
    rw [registered, Registry.registerName_of_entered h.entered]
  cases hbody : (cx.structs.get st).isOpaque with
  | true =>
    obtain ⟨log, he⟩ := meet_of_opaque hbody s
    rw [hsame] at he
    exact ⟨log, he⟩
  | false =>
    obtain ⟨n, hn⟩ := h.known hbody
    rw [meet_of_body hbody, hsame, handleOf_known hbody hn]
    exact ⟨s.log, rfl⟩

theorem forM_meet_again {xs : List StructId} (h : ∀ st ∈ xs, Visited cx s st) :
    ∃ log, xs.forM (meet cx) s = .ok () { s with log } := by
  induction xs generalizing s with
  | nil => exact ⟨s.log, rfl⟩
  | cons x xs ih =>
    obtain ⟨hx, hxs⟩ := List.forall_mem_cons.1 h
    obtain ⟨log, he⟩ := meet_again hx
    obtain ⟨log', he'⟩ :=
      @ih { s with log } fun st hst => ⟨(hxs st hst).entered, (hxs st hst).known⟩
    have hforM : (x :: xs).forM (meet cx) s = xs.forM (meet cx) { s with log } := bind_ok he
    exact ⟨log', hforM.trans he'⟩

theorem run_again (h : ∀ st ∈ cx.module.structs.values, Visited cx s st) :
    ∃ log, run cx s = .ok 0 { s with log } := by
  obtain ⟨log, he⟩ := forM_meet_again h
  unfold run
  rw [get_bind, bind_ok he, get_bind, Nat.sub_self]
  exact ⟨_, rfl⟩

/-! ## Runs -/

theorem run_eq_ok {n : Nat} (h : run cx s = .ok n s') :
    ∃ s₁ log, cx.module.structs.values.forM (meet cx) s = .ok () s₁ ∧
      n = s₁.registry.size - s.registry.size ∧ s' = { s₁ with log } := by
  unfold run at h
  rw [get_bind] at h
  cases he : cx.module.structs.values.forM (meet cx) s with
  | ok u s₁ =>
    rw [bind_ok he, get_bind] at h
    cases h
    exact ⟨s₁, _, rfl, rfl, rfl⟩
  | error e s₁ =>
    rw [bind_error he] at h
    cases h

/-- A run returns if every struct of the module is opaque, or well formed and all of it can be
named. -/
theorem run_returns (ho : Orderly cx s) (ht : (s.layouts.targetOf cx.layout).Aligned)
    (hst : ∀ st ∈ cx.module.structs.values, (cx.structs.get st).isOpaque = true ∨
      (cx.structs.WellFormed st ∧ ∀ x, cx.structs.Reaches st x → cx.structs.Nameable x)) :
    ∃ n s', run cx s = .ok n s' := by
  obtain ⟨s', he⟩ := forM_meet_returns ho ht hst
  unfold run
  rw [get_bind, bind_ok he, get_bind]
  exact ⟨_, _, rfl⟩

/-- A run that returns builds the structs with a body and what they hold, and nothing else. -/
theorem run_known (ho : Orderly cx s) {n : Nat} (h : run cx s = .ok n s') {b : StructId} :
    Known cx s' b ↔ Known cx s b ∨ ∃ root ∈ cx.module.structs.values,
      (cx.structs.get root).isOpaque = false ∧ cx.structs.Reaches root b := by
  obtain ⟨s₁, log, he, -, rfl⟩ := run_eq_ok h
  have hsafe : Orderly cx s₁ ∧ Advances cx s s₁ := by
    have hforM : Safe cx (cx.module.structs.values.forM (meet cx)) := Safe.forM Safe.meet
    have hafter := hforM s ho
    rw [after_ok he] at hafter
    exact hafter
  constructor
  · intro hb
    exact forM_meet_reached ho (by rw [after_ok he]; exact hb)
  · rintro (hb | ⟨root, hroot, hbody, hreach⟩)
    · exact hsafe.2.known hb
    · obtain ⟨k, hk⟩ := (forM_meet_visited ho he root hroot).known hbody
      exact hsafe.1.consistent.reaches hk hreach

/-- As many descriptors as an action adds to the arena, as many structs it builds. -/
theorem Additive.exists_added {α : Type} {act : Flatten α} (hact : Additive cx act)
    (ho : Orderly cx s) :
    ∃ added : List StructId, added.Nodup ∧
      added.length = (after act s).registry.size - s.registry.size ∧
      ∀ b, b ∈ added ↔ Known cx (after act s) b ∧ ¬ Known cx s b := by
  obtain ⟨ho', hadv⟩ := hact.safe s ho
  have hadds := hact.adds s ho
  generalize after act s = s' at ho' hadv hadds ⊢
  have hkey : ∀ h ∈ List.range' s.registry.size (s'.registry.size - s.registry.size),
      s.registry.size ≤ h ∧
        s'.registry.handle? (s'.registry.descriptor h).type cx.module.name = some h := by
    intro h hh
    rw [List.mem_range'_1] at hh
    obtain ⟨b, hb, -⟩ := hadds.made h hh.1 (by omega)
    rw [ho'.consistent.type hb]
    exact ⟨hh.1, hb⟩
  refine ⟨(List.range' s.registry.size (s'.registry.size - s.registry.size)).map
    fun h => (s'.registry.descriptor h).type, ?_, by simp, fun b => ?_⟩
  · refine List.Nodup.map_on (fun h hh k hk he => ?_) List.nodup_range'
    have hh' := (hkey h hh).2
    rw [he, (hkey k hk).2] at hh'
    exact (Option.some.inj hh').symm
  · rw [List.mem_map]
    constructor
    · rintro ⟨h, hh, rfl⟩
      obtain ⟨hle, hb⟩ := hkey h hh
      refine ⟨⟨h, hb⟩, ?_⟩
      rintro ⟨k, hk⟩
      have hlt := ho.consistent.lt hk
      have hkh := hadv.old hk
      rw [hb] at hkh
      cases hkh
      omega
    · rintro ⟨⟨h, hb⟩, hno⟩
      rcases hadds.old_or_made ho ho' hadv hb with ⟨-, hold⟩ | ⟨hle, -⟩
      · exact absurd ⟨h, hold⟩ hno
      · have hlt := ho'.consistent.lt hb
        exact ⟨h, List.mem_range'_1.2 ⟨hle, by omega⟩, ho'.consistent.type hb⟩

end Flatten

/-! ## Sessions -/

variable {ops : List Operation} {s s' : Session} {a : AnalysisId} {home : ModuleId}
  {layout : Option LayoutId}

theorem Session.flatten_eq_ok {α : Type} {act : FlattenContext → Flatten α} {x : α}
    (h : Work.flatten a home layout act s = .ok x s') :
    ∃ f, act (Work.contextFor s a home layout) (Work.stateFor s a) = .ok x f ∧
      s' = Work.takeOver a f s := by
  simp only [Work.flatten, onPart] at h
  cases he : act (Work.contextFor s a home layout) (Work.stateFor s a) with
  | ok y f =>
    rw [he] at h
    cases h
    exact ⟨f, rfl, rfl⟩
  | error e f =>
    rw [he] at h
    cases h

/-- What a run has left behind is visited, also for a run on another layout. -/
theorem Session.run_again {f : FlattenState} (ha : a.idx < s.analyses.size)
    (hv : ∀ st ∈ (s.program.module home).structs.values,
      Flatten.Visited (Work.contextFor s a home layout) f st) (layout' : Option LayoutId) :
    ∃ log, Work.run a home layout' (Work.takeOver a f s) =
      .ok 0 { Work.takeOver a f s with log } := by
  have hregistry : (Work.stateFor (Work.takeOver a f s) a).registry = f.registry :=
    registry_takeOver ha f
  have hprogram : (Work.takeOver a f s).program = s.program := rfl
  generalize Work.takeOver a f s = s' at hregistry hprogram ⊢
  have hv' : ∀ st ∈ (Work.contextFor s' a home layout').module.structs.values,
      Flatten.Visited (Work.contextFor s' a home layout') (Work.stateFor s' a) st := by
    intro st hst
    simp only [Work.contextFor, hprogram] at hst
    obtain ⟨hentered, hknown⟩ := hv st hst
    constructor
    · rw [hregistry]
      simp only [Work.contextFor, hprogram]
      exact hentered
    · rw [Flatten.Known, hregistry]
      simp only [Work.contextFor, hprogram]
      exact hknown
  obtain ⟨log, he⟩ := Flatten.run_again hv'
  refine ⟨log, ?_⟩
  have htake : Work.takeOver a { Work.stateFor s' a with log } s' = { s' with log } :=
    congrArg (fun s : Session => { s with log }) (takeOver_stateFor s' a)
  simp only [Work.run, Work.flatten, onPart, he, htake]

/-- After any run of operations, flattening a module that returns adds exactly the structs of the
module that have a body and what they hold by value, all under the name of the module, and tells how
many they are. To flatten the module again at once, on whatever layout, adds nothing and leaves the
session as it is but for the log. -/
theorem run_closure (h : Runs (fun _ _ _ => True) ops s) (ha : a.idx < s.analyses.size)
    (hl : Event.Admits (fun _ _ _ => True) s a home layout) {n : Nat}
    (hrun : Work.run a home layout s = .ok n s') :
    let S := s.program.structs
    let m := s.program.module home
    (∀ st name, s'.Has a st name ↔ s.Has a st name ∨ (name = m.name ∧
      ∃ root ∈ m.structs.values, (S.get root).isOpaque = false ∧ S.Reaches root st)) ∧
    (∃ added : List (StructId × String), added.Nodup ∧ added.length = n ∧
      ∀ key, key ∈ added ↔ s'.Has a key.1 key.2 ∧ ¬ s.Has a key.1 key.2) ∧
    ∀ layout', ∃ log, Work.run a home layout' s' = .ok 0 { s' with log } := by
  intro S m
  have ho := h.sound.orderly a home layout hl.1
  obtain ⟨f, hf, rfl⟩ := Session.flatten_eq_ok hrun
  have hadditive : Flatten.Additive (Work.contextFor s a home layout) (Flatten.run _) := .run
  have hadv : Flatten.Advances _ (Work.stateFor s a) f := after_ok hf ▸ (hadditive.safe _ ho).2
  have hregistry : ((Work.takeOver a f s).analysis a).registry = f.registry :=
    Session.registry_takeOver ha f
  have hhas : ∀ st name, (Work.takeOver a f s).Has a st name ↔
      ∃ i, f.registry.handle? st name = some i := by
    intro st name
    rw [Session.Has, hregistry]
  -- nothing is built under another name
  have hother : ∀ st name, name ≠ m.name →
      ((Work.takeOver a f s).Has a st name ↔ s.Has a st name) := by
    intro st name hne
    rw [hhas]
    constructor
    · rintro ⟨i, hi⟩
      exact ⟨i, (hadv.new hi).resolve_right fun hm => hne hm.1⟩
    · rintro ⟨i, hi⟩
      exact ⟨i, hadv.old hi⟩
  refine ⟨fun st name => ?_, ?_, ?_⟩
  · by_cases hm : name = m.name
    · subst hm
      rw [hhas]
      simp only [true_and]
      exact Flatten.run_known ho hf
    · rw [hother st name hm]
      simp only [hm, false_and, or_false]
  · obtain ⟨s₁, log, he, hn, rfl⟩ := Flatten.run_eq_ok hf
    obtain ⟨added, hnodup, hlength, hmem⟩ := hadditive.exists_added ho
    rw [after_ok hf] at hlength hmem
    refine ⟨added.map fun b => (b, m.name), ?_, ?_, ?_⟩
    · exact hnodup.map fun x y he => congrArg Prod.fst he
    · rw [List.length_map, hlength, hn]
    · rintro ⟨st, name⟩
      rw [List.mem_map]
      constructor
      · rintro ⟨b, hb, he⟩
        obtain ⟨rfl, rfl⟩ := Prod.mk.inj he
        rw [hhas]
        exact (hmem b).1 hb
      · rintro ⟨hnew, hold⟩
        by_cases hm : name = m.name
        · subst hm
          rw [hhas] at hnew
          exact ⟨st, (hmem st).2 ⟨hnew, hold⟩, rfl⟩
        · exact absurd ((hother st name hm).1 hnew) hold
  · obtain ⟨s₁, log, he, -, rfl⟩ := Flatten.run_eq_ok hf
    have hv : ∀ st ∈ m.structs.values,
        Flatten.Visited (Work.contextFor s a home layout) { s₁ with log } st := by
      intro st hst
      obtain ⟨hentered, hknown⟩ := Flatten.forM_meet_visited ho he st hst
      exact ⟨hentered, hknown⟩
    exact Session.run_again ha hv

/-- The structs of the small program, of which one module lists three, and another one none. -/
def listedProgram : Program :=
  let structs := ((Table.insert ∅ "struct.node" ⟨2⟩).insert "struct.hidden" ⟨3⟩).insert
    "struct.pair" ⟨0⟩
  { structs := smallProgram.structs
    modules := #[
      { name := "m", layout := ⟨0⟩, sourceFile := "m", structs },
      { name := "n", layout := ⟨0⟩, sourceFile := "n" }] }

def listedOps : List Operation :=
  [Event.addAnalysis none none, .addLayout {}, .edit listedProgram].map .event

theorem runs_listedOps (policy : AnalysisId → String → Target → Prop) :
    Runs policy listedOps (replay listedOps) :=
  .step (.step (.edit _ listedProgram) (.event (.addLayout {})) trivial)
    (.event (.addAnalysis none none)) ⟨nofun, nofun⟩

theorem run_listedOps : ∃ n s', Work.run ⟨0⟩ ⟨0⟩ none (replay listedOps) = .ok n s' := by
  have ho := (runs_listedOps fun _ _ _ => True).sound.orderly ⟨0⟩ ⟨0⟩ none (by decide)
  have hnode : listedProgram.structs.WellFormed ⟨2⟩ := wellFormed_smallProgram
  have hpair : listedProgram.structs.WellFormed ⟨0⟩ :=
    hnode.embeds ((Structs.mem_embedded _).1 (by decide))
  obtain ⟨n, f, he⟩ := Flatten.run_returns ho (by decide) fun st hst => by
    have hlisted : (listedProgram.module ⟨0⟩).structs.values = [⟨2⟩, ⟨3⟩, ⟨0⟩] := by decide +kernel
    have hmem : st ∈ (listedProgram.module ⟨0⟩).structs.values := hst
    rw [hlisted] at hmem
    simp only [List.mem_cons, List.not_mem_nil, or_false] at hmem
    rcases hmem with rfl | rfl | rfl
    · exact .inr ⟨hnode, fun x _ => nameable_smallProgram x⟩
    · exact .inl rfl
    · exact .inr ⟨hpair, fun x _ => nameable_smallProgram x⟩
  exact ⟨n, _, by simp only [Work.run, Work.flatten, onPart, he]; rfl⟩

/-- The run builds a union that the module does not list, and a second one finds it there. -/
theorem run_closure_listed :
    ∃ n s', Work.run ⟨0⟩ ⟨0⟩ none (replay listedOps) = .ok n s' ∧ s'.Has ⟨0⟩ ⟨1⟩ "m" ∧
      ∃ log, Work.run ⟨0⟩ ⟨0⟩ none s' = .ok 0 { s' with log } := by
  obtain ⟨n, s', hrun⟩ := run_listedOps
  obtain ⟨hhas, -, hagain⟩ :=
    run_closure (runs_listedOps _) (by decide) ⟨by decide, trivial⟩ hrun
  refine ⟨n, s', hrun, (hhas ⟨1⟩ "m").2 (.inr ⟨rfl, ⟨2⟩, ?_, rfl, ?_⟩), hagain none⟩
  · have hlisted : ⟨2⟩ ∈ (listedProgram.module ⟨0⟩).structs.values := by decide +kernel
    exact hlisted
  · exact .single ((Structs.mem_embedded _).1 (by decide))

end KernelObjects
