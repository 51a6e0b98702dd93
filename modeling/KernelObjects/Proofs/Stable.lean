import KernelObjects.Proofs.Annotations
import KernelObjects.Registry.WorkList

/-!
# What flattening does to a registry

Whatever is asked for, a registry changes in three ways: a descriptor gets one more container, a new
descriptor is put at the end of the arena, and the names of a struct are remembered. A property of
registries that survives those survives every request, failed or not, and whatever was done to the
program before.

Results:
* `prepare_completed`, `prepare_fresh`: what is put into a registry is a draft that was completed;
  it is settled, and says where it comes from.
* `preserves_handleOf`, `preserves_run`: a request preserves what building preserves.
* `Stable.handleOf`, `Stable.run`: a request preserves what the three changes preserve.
-/
namespace KernelObjects.Flatten

variable {cx : FlattenContext} {st : StructId} {d : Descriptor}

/-! ## New descriptors -/

/-- A descriptor under construction. -/
def Draft (cx : FlattenContext) (st : StructId) (d : Descriptor) : Prop :=
  ∃ name shape flexible refcountOffsets credOffsets,
    d = { blank cx st name with shape, flexible, refcountOffsets, credOffsets }

/-- A descriptor that has just been completed. -/
structure Fresh (cx : FlattenContext) (st : StructId) (d : Descriptor) : Prop where
  type : d.type = st
  home : d.home = cx.home
  settled : d.Settled

theorem draft_blank (cx : FlattenContext) (st : StructId) (name : String) :
    Draft cx st (blank cx st name) :=
  ⟨_, _, _, _, _, rfl⟩

theorem Draft.reshaped (h : Draft cx st d) (shape : Shape) : Draft cx st { d with shape } := by
  obtain ⟨_, _, _, _, _, rfl⟩ := h
  exact ⟨_, _, _, _, _, rfl⟩

theorem Draft.fresh (h : Draft cx st d) : Fresh cx st d.settle.finish := by
  obtain ⟨name, shape, flexible, refcountOffsets, credOffsets, rfl⟩ := h
  refine ⟨rfl, rfl, rfl, ?_, fun k => ?_⟩
  · exact congrArg Descriptor.finish (Descriptor.settle_settle _)
  · cases k with
    | funcPtr =>
      simp [Descriptor.marked, Descriptor.offsets, Descriptor.settle, Descriptor.finish, blank]
    | refcount =>
      rw [← OffsetSet.isEmpty_eq_false_iff, ← Bool.not_eq_true']
      rfl
    | cred =>
      rw [← OffsetSet.isEmpty_eq_false_iff, ← Bool.not_eq_true']
      rfl
    | _ =>
      refine ⟨fun h => absurd h Bool.false_ne_true, ?_⟩
      rintro ⟨o, ho⟩
      exact absurd ho (OffsetSet.not_mem_empty o)

theorem flattenField_draft (h : Draft cx st d) (owner : StructId) (elem : Ty) (offset : Int)
    (isLast inUnion : Bool) :
    Returns (Draft cx st) (flattenField cx owner elem offset isLast inUnion d) := by
  obtain ⟨_, _, _, _, _, rfl⟩ := h
  unfold flattenField
  dsimp only
  split
  · exact .bind (.any _) fun _ _ => .bind (.any _) fun _ _ => .bind (.any _) fun _ _ =>
      .pure ⟨_, _, _, _, _, rfl⟩
  · exact .bind (.any _) fun _ _ => .pure ⟨_, _, _, _, _, rfl⟩

theorem flattenFields_draft (h : Draft cx st d) (owner : StructId) (placed : StructLayout)
    (es : List Ty) (i : Nat) : Returns (Draft cx st) (flattenFields cx owner placed es i d) := by
  induction es generalizing i d with
  | nil => exact .pure h
  | cons e es ih =>
    exact .bind (.any _) fun _ _ => .bind (flattenField_draft (h.reshaped _) _ _ _ _ _) fun _ h' =>
      ih h' _

theorem scanMembers_draft (h : Draft cx st d) (es : List Ty) (i : Nat) (best : Option Widest) :
    Returns (fun x => Draft cx st x.2) (scanMembers cx es i best d) := by
  induction es generalizing i best d with
  | nil => exact .pure h
  | cons e es ih => exact .bind (.any _) fun _ _ => ih (h.reshaped _) _ _

theorem flattenBody_draft (h : Draft cx st d) (placed : StructLayout) :
    Returns (Draft cx st) (flattenBody cx st placed d) := by
  unfold flattenBody
  dsimp only
  split
  · refine .bind (scanMembers_draft h _ _ _) fun (best, d') h' => .bind (.any _) fun _ _ => ?_
    cases best with
    | none => exact .pure h'
    | some w => exact flattenField_draft h' _ _ _ _ _
  · exact flattenFields_draft h _ _ _ _

/-- What is made of a draft in the end. -/
inductive Completed (cx : FlattenContext) (st : StructId) : Descriptor → Prop where
  | known {d : Descriptor} (h : Draft cx st d) : Completed cx st d.settle.finish
  | sized {d : Descriptor} (h : Draft cx st d) (size : Int) :
      Completed cx st (d.settle.setAllocSize size).finish

theorem prepare_completed (cx : FlattenContext) (st : StructId) :
    Returns (Completed cx st) (prepare cx st) := by
  refine .bind (.any _) fun name _ => .bind (.any _) fun placed _ =>
    .bind (flattenBody_draft (draft_blank cx st name) placed) fun d hd => ?_
  unfold complete
  dsimp only
  split
  · exact .bind (.any _) fun size _ => .pure (.sized hd size)
  · exact .pure (.known hd)

theorem Completed.fresh (h : Completed cx st d) : Fresh cx st d := by
  cases h with
  | known hd => exact hd.fresh
  | sized hd size =>
    have hfresh := hd.fresh
    -- the size is a note like any other
    exact ⟨hfresh.type, hfresh.home, hfresh.settled.note (.allocSize size)⟩

theorem prepare_fresh (cx : FlattenContext) (st : StructId) :
    Returns (Fresh cx st) (prepare cx st) :=
  fun s d s' hd => (prepare_completed cx st s d s' hd).fresh

/-! ## Requests -/

section

variable {p : FlattenState → Prop}

/-- What questions, containers and the new descriptor leave true, building preserves. -/
theorem preserves_build {q : Descriptor → Prop} (hp : Robust p) (hq : Returns q (prepare cx st))
    (hpublished : ∀ s d, p s → q d → p (published cx st d s)) : Preserves p (build cx st) :=
  .bind_returns (hp.prepare st) hq fun d hd s hs => hpublished s d hs hd

/-- What every turn preserves, a work list preserves. -/
theorem preserves_drain (h : ∀ w, Preserves p (turn cx w)) (w : WorkList) :
    Preserves p (drain cx w) := by
  intro s hs
  unfold drain
  induction w, s using drainFrom.induct cx with
  | case1 w s hempty =>
    obtain ⟨stack, waiting⟩ := w
    subst hempty
    rw [after_ok (drainFrom_nil cx waiting s)]
    exact hs
  | case2 w s hne w' s' hturn ih =>
    have hnext := h w s hs
    rw [after_ok hturn] at hnext
    have hrest : after (drainFrom cx w) s = after (drainFrom cx w') s' := by
      simp only [after, drainFrom_of_ok cx hne hturn]
    rw [hrest]
    exact ih hnext
  | case3 w s hne e s' hturn =>
    have hnext := h w s hs
    rw [after_error hturn] at hnext
    rw [after_error (drainFrom_of_error cx hne hturn)]
    exact hnext

variable (hbuild : ∀ st, Preserves p (build cx st))
include hbuild

/-- Of all that a turn does, only building changes anything. -/
theorem preserves_turn (w : WorkList) : Preserves p (turn cx w) := by
  obtain ⟨_ | ⟨⟨st, ready⟩, rest⟩, waiting⟩ := w
  · exact .pure _
  · refine .bind .get fun s => ?_
    split
    · exact .pure _
    split
    · exact .bind (hbuild st) fun _ => .pure _
    split
    · exact .throw _
    split
    · exact .throw _
    · exact .pure _

theorem preserves_handleOf (st : StructId) : Preserves p (handleOf cx st) := by
  unfold handleOf
  split
  · exact .throw _
  · refine .bind .get fun s => ?_
    split
    · exact .pure _
    · exact .bind (preserves_drain (preserves_turn hbuild) _) fun _ => Robust.built st

variable (hmet : ∀ s st, p s →
    p { s with registry := s.registry.registerName cx.structs st cx.home cx.module })
  (hlog : ∀ s log, p s → p { s with log })
include hmet hlog

theorem preserves_meet (st : StructId) : Preserves p (meet cx st) := by
  refine .bind (.modify fun s hs => hmet s st hs) fun _ => ?_
  split
  · exact .modify fun s hs => hlog s _ hs
  · exact .bind (preserves_handleOf hbuild st) fun _ => .pure _

theorem preserves_run : Preserves p (run cx) :=
  .bind .get fun _ => .bind (.forM (preserves_meet hbuild hmet hlog)) fun _ => .bind .get fun _ =>
    .bind (.modify fun s hs => hlog s _ hs) fun _ => .pure _

end

/-- A property of registries that neither a container nor a new descriptor breaks. -/
structure Stable (cx : FlattenContext) (p : Registry → Prop) : Prop where
  noted : ∀ {r handle container offset}, p r →
    p (r.modify handle (·.addContainer container offset))
  built : ∀ {r st d}, p r → Fresh cx st d →
    p ((r.push st cx.module.name d).registerName cx.structs st cx.home cx.module)

namespace Stable

variable {p : Registry → Prop} (hp : Stable cx p)
include hp

theorem robust : Robust fun s => p s.registry where
  asked hs := hs
  noted hs := hp.noted hs

theorem build (st : StructId) : Preserves (fun s => p s.registry) (build cx st) :=
  preserves_build hp.robust (prepare_fresh cx st) fun _ _ hs hd => hp.built hs hd

theorem handleOf (st : StructId) : Preserves (fun s => p s.registry) (handleOf cx st) :=
  preserves_handleOf hp.build st

theorem meet (hmet : ∀ {r st}, p r → p (r.registerName cx.structs st cx.home cx.module))
    (st : StructId) : Preserves (fun s => p s.registry) (meet cx st) :=
  preserves_meet hp.build (fun _ _ hs => hmet hs) (fun _ _ hs => hs) st

theorem run (hmet : ∀ {r st}, p r → p (r.registerName cx.structs st cx.home cx.module)) :
    Preserves (fun s => p s.registry) (run cx) :=
  preserves_run hp.build (fun _ _ hs => hmet hs) fun _ _ hs => hs

end Stable

end KernelObjects.Flatten
