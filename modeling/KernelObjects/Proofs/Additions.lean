import KernelObjects.Proofs.Gets

/-!
# What flattening adds

Whatever is asked of a registry, and whether it fails, its arena only grows at the end. A descriptor
that was there before may gain containers and is left alone otherwise. A new one is finished and
assembled from the descriptors of the structs that it embeds, and the tracker was offered the new
ones, in order, and nothing else.

Results:
* `assembled_congr`: what a descriptor takes from those of the structs that it embeds.
* `Ready.adds`: building one descriptor adds it.
* `Adds.old_or_made`: a descriptor was there before, or it was made on the target of the request.
* `Additive.handleOf`, `Additive.run`: requests add descriptors, failed or not.
-/
namespace KernelObjects.Flatten

variable {cx : FlattenContext} {s s' s'' : FlattenState} {st : StructId} {t : Target}
  {nested nested' : StructId → Descriptor}

/-! ## What a descriptor takes from others -/

/-- What the descriptor of a struct takes from that of a struct in it. -/
def taken (d : Descriptor) : Shape × OffsetSet × OffsetSet × Bool :=
  (d.shape, d.refcountOffsets, d.credOffsets, d.flexible)

theorem withField_congr {e : Ty}
    (hn : ∀ b, e.embedded? = some b → taken (nested b) = taken (nested' b)) (o : Int)
    (isLast inUnion : Bool) (d : Descriptor) :
    withField cx t nested e o isLast inUnion d = withField cx t nested' e o isLast inUnion d := by
  unfold withField
  cases hb : e.embedded? with
  | none => rfl
  | some b =>
    have h := hn b hb
    simp only [taken, Prod.mk.injEq] at h
    obtain ⟨hshape, hcounters, hcreds, hflexible⟩ := h
    simp only [embed, hshape, hcounters, hcreds, hflexible]

theorem withFields_congr {es : List Ty}
    (hn : ∀ e ∈ es, ∀ b, e.embedded? = some b → taken (nested b) = taken (nested' b)) (i : Nat)
    (d : Descriptor) :
    withFields cx t nested st es i d = withFields cx t nested' st es i d := by
  induction es generalizing i d with
  | nil => rfl
  | cons e es ih =>
    obtain ⟨he, hes⟩ := List.forall_mem_cons.1 hn
    rw [withFields, withFields, withField_congr he, ih hes]

theorem assembled_congr (hn : ∀ b, cx.structs.Embeds st b → taken (nested b) = taken (nested' b)) :
    assembled cx t nested st = assembled cx t nested' st := by
  have hn' : ∀ e ∈ (cx.structs.get st).elements, ∀ b, e.embedded? = some b →
      taken (nested b) = taken (nested' b) := fun e he b hb => hn b ⟨e, he, hb⟩
  unfold assembled withBody
  dsimp only
  split
  · cases hw : widestFrom cx.structs t (cx.structs.get st).elements 0 none with
    | none => rfl
    | some w =>
      obtain ⟨j, hj, -⟩ := (getElem?_of_widestFrom hw).resolve_left (by simp)
      dsimp only
      rw [withField_congr (hn' _ (List.mem_of_getElem? hj))]
  · rw [withFields_congr hn']

/-! ## Additions -/

/-- A tracker that was offered the structs of the descriptors from one position on. -/
def offered (r : Registry) (first count : Nat) (tracker : Tracker) : Tracker :=
  (List.range' first count).foldl
    (fun t h => t.update (r.descriptor h).type (r.descriptor h).expandedSize) tracker

/-- From `s` to `s'`, descriptors were added at the end of the arena. -/
structure Adds (cx : FlattenContext) (s s' : FlattenState) : Prop where
  size_le : s.registry.size ≤ s'.registry.size
  kept : ∀ h < s.registry.size, s'.registry.descriptor h =
    { s.registry.descriptor h with containers := (s'.registry.descriptor h).containers }
  made : ∀ h, s.registry.size ≤ h → h < s'.registry.size →
    ∃ b, s'.registry.handle? b cx.module.name = some h ∧ s'.registry.descriptor h =
      { assembled cx (s.layouts.targetOf cx.layout) (nestedIn cx s') b with
        containers := (s'.registry.descriptor h).containers }
  tracker : s'.tracker =
    offered s'.registry s.registry.size (s'.registry.size - s.registry.size) s.tracker

theorem offered_congr {r r' : Registry} {first count : Nat}
    (h : ∀ i, i < first + count → (r'.descriptor i).type = (r.descriptor i).type ∧
      (r'.descriptor i).expandedSize = (r.descriptor i).expandedSize) (tracker : Tracker) :
    offered r' first count tracker = offered r first count tracker := by
  refine List.foldl_ext _ _ _ fun t i hi => ?_
  rw [List.mem_range'_1] at hi
  obtain ⟨htype, hsize⟩ := h i hi.2
  rw [htype, hsize]

theorem offered_append (r : Registry) (first count count' : Nat) (tracker : Tracker) :
    offered r first (count + count') tracker =
      offered r (first + count) count' (offered r first count tracker) := by
  rw [offered, ← List.range'_append_1, List.foldl_append]
  rfl

namespace Adds

theorem refl (cx : FlattenContext) (s : FlattenState) : Adds cx s s where
  size_le := Nat.le_refl _
  kept _ _ := rfl
  made h hle hlt := absurd hlt (Nat.not_lt.2 hle)
  tracker := by rw [Nat.sub_self]; rfl

/-- What was taken from a descriptor can still be taken from it. -/
theorem taken_kept (h : Adds cx s s') {n : Nat} (hn : n < s.registry.size) :
    taken (s'.registry.descriptor n) = taken (s.registry.descriptor n) := by
  rw [h.kept n hn]
  rfl

theorem trans (ho : Orderly cx s) (ho' : Orderly cx s') (ha : Advances cx s s')
    (ha' : Advances cx s' s'') (h : Adds cx s s') (h' : Adds cx s' s'') : Adds cx s s'' where
  size_le := Nat.le_trans h.size_le h'.size_le
  kept n hn := by rw [h'.kept n (Nat.lt_of_lt_of_le hn h.size_le), h.kept n hn]
  made n hle hlt := by
    rcases Nat.lt_or_ge n s'.registry.size with hlt' | hle'
    · obtain ⟨b, hb, hd⟩ := h.made n hle hlt'
      refine ⟨b, ha'.old hb, ?_⟩
      rw [h'.kept n hlt', hd]
      -- it was assembled from descriptors that have at most gained containers since
      have hsame : assembled cx (s.layouts.targetOf cx.layout) (nestedIn cx s') b =
          assembled cx (s.layouts.targetOf cx.layout) (nestedIn cx s'') b := by
        refine assembled_congr fun c hc => ?_
        obtain ⟨k, hk, -⟩ := ho'.consistent.inner hb hc
        rw [nestedIn_of_handle hk, nestedIn_of_handle (ha'.old hk),
          h'.taken_kept (ho'.consistent.lt hk)]
      rw [hsame]
    · obtain ⟨b, hb, hd⟩ := h'.made n hle' hlt
      rw [ha.layouts.targets _ ho.layout] at hd
      exact ⟨b, hb, hd⟩
  tracker := by
    have hle := h.size_le
    have hle' := h'.size_le
    have hcount : s''.registry.size - s.registry.size =
        (s'.registry.size - s.registry.size) + (s''.registry.size - s'.registry.size) := by omega
    have hfirst : s.registry.size + (s'.registry.size - s.registry.size) = s'.registry.size := by
      omega
    rw [hcount, offered_append, hfirst, h'.tracker, h.tracker]
    congr 1
    refine (offered_congr (fun i hi => ?_) _).symm
    rw [hfirst] at hi
    rw [h'.kept i hi]
    exact ⟨rfl, rfl⟩

/-- A descriptor was there before, or it was made on the target of the request. -/
theorem old_or_made (ho : Orderly cx s) (ho' : Orderly cx s') (ha : Advances cx s s')
    (h : Adds cx s s') {b : StructId} {m : String} {n : Nat}
    (hb : s'.registry.handle? b m = some n) :
    (n < s.registry.size ∧ s.registry.handle? b m = some n) ∨
      (s.registry.size ≤ n ∧ m = cx.module.name ∧
        s'.registry.targetAt s'.layouts n = s.layouts.targetOf cx.layout ∧
        s'.registry.descriptor n =
          { assembled cx (s.layouts.targetOf cx.layout) (nestedIn cx s') b with
            containers := (s'.registry.descriptor n).containers }) := by
  rcases Nat.lt_or_ge n s.registry.size with hlt | hle
  · obtain ⟨b', m', hb'⟩ := ho.consistent.keyed n hlt
    obtain ⟨rfl, rfl⟩ := ho'.consistent.unique hb (ha.old hb')
    exact .inl ⟨hlt, hb'⟩
  · obtain ⟨b', hb', hmade⟩ := h.made n hle (ho'.consistent.lt hb)
    obtain ⟨rfl, rfl⟩ := ho'.consistent.unique hb hb'
    refine .inr ⟨hle, rfl, ?_, hmade⟩
    rw [Registry.targetAt, hmade]
    exact (congrArg _ (layout_assembled b)).trans (ha.layouts.targets _ ho.layout)

end Adds

theorem Noted.adds {owner : StructId} {C : StructId → Int → Prop} (h : Noted cx owner C s s') :
    Adds cx s s' where
  size_le := Nat.le_of_eq h.size_eq.symm
  kept n _ := h.frame n
  made n hle hlt := absurd hlt (Nat.not_lt.2 (h.size_eq ▸ hle))
  tracker := by
    rw [h.size_eq, Nat.sub_self]
    exact congrArg (fun o => o.2.2.1) h.outline

theorem Ready.adds (hr : Ready cx s st t s') : Adds cx s (completed cx s st t s') where
  size_le := by rw [hr.size_published]; exact Nat.le_succ _
  kept n hn := by
    rw [hr.descriptor_published, if_neg (Nat.ne_of_lt hn)]
    exact hr.noted.frame n
  made n hle hlt := by
    rw [hr.size_published] at hlt
    obtain rfl : n = s.registry.size := by omega
    refine ⟨st, hr.handle?_new, ?_⟩
    have hsame : assembled cx t (nestedIn cx s) st =
        assembled cx t (nestedIn cx (completed cx s st t s')) st := by
      refine assembled_congr fun c hc => ?_
      obtain ⟨k, hk⟩ := hr.inner c hc
      rw [nestedIn_of_handle hk, nestedIn_of_handle (hr.handle?_old hk), hr.descriptor_old hk]
      rfl
    rw [hr.descriptor_new, hr.target, ← hsame]
  tracker := by
    have hcount : s.registry.size + 1 - s.registry.size = 1 := by omega
    have htracker : s'.tracker = s.tracker := congrArg (fun o => o.2.2.1) hr.noted.outline
    have hone : ∀ r, offered r s.registry.size 1 s.tracker =
        s.tracker.update (r.descriptor s.registry.size).type
          (r.descriptor s.registry.size).expandedSize := fun _ => rfl
    rw [hr.size_published, hcount, hone, hr.descriptor_new, type_assembled, ← htracker]
    rfl

/-! ## Actions -/

/-- The action keeps a state in order and adds descriptors to it, failed or not. -/
structure Additive {α : Type} (cx : FlattenContext) (act : Flatten α) : Prop where
  safe : Safe cx act
  adds : ∀ s, Orderly cx s → Adds cx s (after act s)

/-- Building a struct adds its descriptor, or nothing. -/
theorem build_adds {st : StructId} (ho : Orderly cx s) (hb : Buildable cx s st) :
    Adds cx s (after (build cx st) s) := by
  cases hlabel : cx.structs.label st with
  | error e =>
    rw [after_error (build_unnamed hlabel s)]
    exact .refl cx s
  | ok name =>
    have hname : cx.structs.Nameable st := ⟨name, hlabel⟩
    cases hl : cx.structs.layoutOn (s.layouts.targetOf cx.layout) st with
    | ok l =>
      obtain ⟨s₁, hr, -, he⟩ := build_ready ho hb hname hl
      rw [after_ok he]
      exact hr.adds
    | error e =>
      obtain ⟨s₁, hn, -, he⟩ := build_noted ho hb hname hl
      rw [after_error he]
      exact hn.adds

theorem turn_adds {root : StructId} {w : WorkList} (h : Sane cx t root w s) (hne : w.stack ≠ []) :
    Adds cx s (after (turn cx w) s) := by
  obtain ⟨_ | ⟨⟨st, ready⟩, rest⟩, waiting⟩ := w
  · exact absurd rfl hne
  cases ready with
  | false =>
    have hsame : after (turn cx ⟨⟨st, false⟩ :: rest, waiting⟩) s = s := by
      simp only [after, turn_cons, Bool.false_eq_true, if_false]
      split_ifs <;> rfl
    rw [hsame]
    exact .refl cx s
  | true =>
    have hfresh : s.registry.handle? st cx.module.name = none :=
      h.fresh st (h.waiting_cons ▸ List.mem_cons_self ..)
    have hbuild : after (turn cx ⟨⟨st, true⟩ :: rest, waiting⟩) s = after (build cx st) s := by
      simp only [after, turn_cons, hfresh, Option.isSome_none, Bool.false_eq_true, if_false,
        if_true]
      cases build cx st s <;> rfl
    rw [hbuild]
    exact build_adds h.orderly (h.buildable hfresh)

/-- What the run of a work list adds is what its turns add. -/
theorem drain_adds {root : StructId} {w : WorkList} (h : Sane cx t root w s) :
    Adds cx s (after (drain cx w) s) := by
  unfold drain
  -- along the turns; one that fails has at most asked a layout
  induction w, s using drainFrom.induct cx with
  | case1 w s hempty =>
    obtain ⟨stack, waiting⟩ := w
    subst hempty
    rw [after_ok (drainFrom_nil cx waiting s)]
    exact .refl cx s
  | case2 w s hne w' s' hturn ih =>
    have hadds := turn_adds h hne
    rw [after_ok hturn] at hadds
    rcases turn_sane h hne with ⟨w₁, s₁, he, hs, ha⟩ | ⟨e, s₁, he, -⟩
    · rw [hturn] at he
      cases he
      have hrest : after (drainFrom cx w) s = after (drainFrom cx w') s' := by
        simp only [after, drainFrom_of_ok cx hne hturn]
      rw [hrest]
      have hafter : Orderly cx (after (drainFrom cx w') s') ∧
          Advances cx s' (after (drainFrom cx w') s') := by
        rcases drainFrom_spec hs with ⟨n, s'', he, ho, ha, -⟩ | ⟨e, s'', he, ho, ha, -⟩
        · rw [after_ok he]
          exact ⟨ho, ha⟩
        · rw [after_error he]
          exact ⟨ho, ha⟩
      exact .trans h.orderly hs.orderly ha hafter.2 hadds (ih hs)
    · rw [hturn] at he
      cases he
  | case3 w s hne e s' hturn =>
    have hadds := turn_adds h hne
    rw [after_error hturn] at hadds
    rw [after_error (drainFrom_of_error cx hne hturn)]
    exact hadds

namespace Additive

variable {α β : Type}

theorem pure (a : α) : Additive cx (Pure.pure a) :=
  ⟨.pure a, fun s _ => .refl cx s⟩

theorem get : Additive cx MonadState.get :=
  ⟨.get, fun s _ => .refl cx s⟩

theorem bind {x : Flatten α} {f : α → Flatten β} (hx : Additive cx x)
    (hf : ∀ a, Additive cx (f a)) : Additive cx (x >>= f) := by
  refine ⟨.bind hx.safe fun a => (hf a).safe, fun s ho => ?_⟩
  obtain ⟨ho₁, ha₁⟩ := hx.safe s ho
  have hadds := hx.adds s ho
  cases he : x s with
  | ok a s₁ =>
    rw [after_ok he] at ho₁ ha₁ hadds
    have hb : after (x >>= f) s = after (f a) s₁ := by
      simp only [after, bind_ok (f := f) he]
    rw [hb]
    exact .trans ho ho₁ ha₁ ((hf a).safe s₁ ho₁).2 hadds ((hf a).adds s₁ ho₁)
  | error e s₁ =>
    rw [after_error he] at hadds
    rw [after_error (bind_error he)]
    exact hadds

theorem forM {xs : List β} {f : β → Flatten PUnit} (hf : ∀ b, Additive cx (f b)) :
    Additive cx (xs.forM f) := by
  induction xs with
  | nil => exact pure _
  | cons b bs ih => exact bind (hf b) fun _ => ih

theorem emit (level : Level) (message : String) : Additive cx (emit level message) :=
  ⟨.emit level message, fun s _ => { Adds.refl cx s with }⟩

theorem registerName (st : StructId) :
    Additive cx (onRegistry fun r => r.registerName cx.structs st cx.home cx.module) := by
  refine ⟨.registerName st, fun s _ => ?_⟩
  have hd := s.registry.descriptor_registerName cx.structs st cx.home cx.module
  have hs := s.registry.size_registerName cx.structs st cx.home cx.module
  have he : after (onRegistry fun r => r.registerName cx.structs st cx.home cx.module) s =
      { s with registry := s.registry.registerName cx.structs st cx.home cx.module } := rfl
  rw [he]
  generalize s.registry.registerName cx.structs st cx.home cx.module = r at hd hs
  refine ⟨Nat.le_of_eq hs.symm, fun h _ => ?_, fun h hle hlt => ?_, ?_⟩
  · simp only [hd]
  · exact absurd hlt (Nat.not_lt.2 (hs ▸ hle))
  · simp only [hs, Nat.sub_self]
    rfl

theorem handleOf (root : StructId) : Additive cx (handleOf cx root) := by
  refine ⟨.handleOf root, fun s ho => ?_⟩
  unfold Flatten.handleOf
  cases hb : (cx.structs.get root).isOpaque with
  | true => exact .refl cx s
  | false =>
    simp only [Bool.false_eq_true, if_false, after, get_bind]
    cases hk : s.registry.handle? root cx.module.name with
    | some n => exact .refl cx s
    | none =>
      have hdrain := drain_adds (Sane.start ho root)
      dsimp only
      rw [← after]
      cases he : drain cx (.start root) s with
      | ok u s₁ =>
        have hbuilt : after (do drain cx (.start root); built cx root) s =
            after (built cx root) s₁ := by simp only [after, bind_ok he]
        rw [after_ok he] at hdrain
        rw [hbuilt, after_built]
        exact hdrain
      | error e s₁ =>
        rw [after_error he] at hdrain
        rw [after_error (bind_error he)]
        exact hdrain

theorem meet (st : StructId) : Additive cx (meet cx st) := by
  refine bind (registerName st) fun _ => ?_
  split
  · exact emit _ _
  · exact bind (handleOf st) fun _ => pure _

theorem run : Additive cx (run cx) :=
  bind get fun _ => bind (forM meet) fun _ => bind get fun _ => bind (emit _ _) fun _ => pure _

end Additive

end KernelObjects.Flatten

namespace KernelObjects

/-! ## Requests of a session -/

namespace Session

theorem handleOf_eq (s : Session) (a : AnalysisId) (root : StructId) (home : ModuleId)
    (layout : Option LayoutId) :
    Work.handleOf a root home layout s =
      match Flatten.handleOf (Work.contextFor s a home layout) root (Work.stateFor s a) with
      | .ok n f => .ok n (Work.takeOver a f s)
      | .error e f => .error e (Work.takeOver a f s) := by
  simp only [Work.handleOf, Work.flatten, onPart]
  cases Flatten.handleOf (Work.contextFor s a home layout) root (Work.stateFor s a) <;> rfl

theorem registry_takeOver {s : Session} {a : AnalysisId} (ha : a.idx < s.analyses.size)
    (f : FlattenState) : ((Work.takeOver a f s).analysis a).registry = f.registry := by
  rw [analysis_takeOver, if_pos ⟨rfl, ha⟩]

end Session

end KernelObjects
