import KernelObjects.Proofs.Effects
import KernelObjects.Proofs.Repeatable

/-!
# Descriptors last

A descriptor that is in an arena is never rebuilt. Its table, its struct, its module and its layout
are fixed; everything else is only added to, by the mutators of the descriptor and by the
descriptors that are built around it. Nothing is asked of the client: it may edit the program at
will, fail as often as it likes, and try to go on with the construction of what is finished.

Results:
* `Registry.Lasts.modify`, `Registry.stable_lasts`: each change of a registry keeps what it has.
* `Session.Lasts.call`: so does each call of a session.
* `descriptors_last`: so do all calls, one after the other.
-/
namespace KernelObjects

/-- What a client does to a session and to the descriptors in it. -/
inductive Call where
  | operation (op : Operation)
  | addContainer (d : DescriptorRef) (container : StructId) (offset : Int)
  | reshape (d : DescriptorRef) (f : Shape → Shape)
  | finish (d : DescriptorRef)

/-- The session after a call, also if it fails. -/
def Call.exec (s : Session) : Call → Session
  | .operation op => op.exec s
  | .addContainer d container offset => after (Work.addContainer d container offset) s
  | .reshape d f => after (Work.reshape d f) s
  | .finish d => after (Work.finish d) s

/-- The session after some calls, the latest call first. -/
def perform (calls : List Call) : Session :=
  calls.foldr (fun c s => c.exec s) {}

/-! ## Registries -/

namespace Registry

/-- The descriptors of the first registry are still in the second one, with at most more
annotations, and all those of the second one are settled. -/
structure Lasts (r₀ r : Registry) : Prop where
  size_le : r₀.size ≤ r.size
  becomes : ∀ n < r₀.size, (r₀.descriptor n).Becomes (r.descriptor n)
  settled : ∀ n < r.size, (r.descriptor n).Settled

variable {r₀ r r' : Registry}

theorem Lasts.refl (h : ∀ n < r.size, (r.descriptor n).Settled) : r.Lasts r :=
  ⟨Nat.le_refl _, fun _ _ => .refl _, h⟩

theorem Lasts.modify (h : r₀.Lasts r) {n : Nat} {f : Descriptor → Descriptor}
    (hf : (r.descriptor n).Settled →
      (r.descriptor n).Becomes (f (r.descriptor n)) ∧ (f (r.descriptor n)).Settled) :
    r₀.Lasts (r.modify n f) := by
  have hsize : (r.modify n f).size = r.size := Array.size_modify
  by_cases hn : n < r.size
  · have hd := fun k => r.descriptor_modify n k f hn
    obtain ⟨hbecomes, hsettled⟩ := hf (h.settled n hn)
    refine ⟨hsize ▸ h.size_le, fun k hk => ?_, fun k hk => ?_⟩
    · rw [hd]
      split
      · next he =>
        subst he
        exact (h.becomes k hk).trans hbecomes
      · exact h.becomes k hk
    · rw [hd]
      split
      · exact hsettled
      · exact h.settled k (hsize ▸ hk)
  · have hd := fun k => descriptor_modify_of_size_le f k (Nat.le_of_not_lt hn)
    refine ⟨hsize ▸ h.size_le, fun k hk => ?_, fun k hk => ?_⟩
    · rw [hd]
      exact h.becomes k hk
    · rw [hd]
      exact h.settled k (hsize ▸ hk)

theorem Lasts.annotated (h : r₀.Lasts r) (ha : r.Annotated r') : r₀.Lasts r' := by
  cases ha with
  | same => exact h
  | one n f ha => exact h.modify fun hs => ⟨ha.becomes, ha.settled hs⟩

theorem Lasts.push (h : r₀.Lasts r) {st : StructId} {m : String} {d : Descriptor}
    (hd : d.Settled) : r₀.Lasts (r.push st m d) := by
  have hsize : (r.push st m d).size = r.size + 1 := Array.size_push ..
  refine ⟨?_, fun n hn => ?_, fun n hn => ?_⟩
  · rw [hsize]
    exact Nat.le_succ_of_le h.size_le
  · have hne : n ≠ r.size := Nat.ne_of_lt (Nat.lt_of_lt_of_le hn h.size_le)
    rw [descriptor_push, if_neg hne]
    exact h.becomes n hn
  · rw [descriptor_push]
    split
    · exact hd
    · next hne => exact h.settled n (by omega)

theorem Lasts.registerName (h : r₀.Lasts r) (S : Structs) (st : StructId) (home : ModuleId)
    (m : Module) : r₀.Lasts (r.registerName S st home m) := by
  refine ⟨?_, fun n hn => ?_, fun n hn => ?_⟩
  · rw [size_registerName]
    exact h.size_le
  · rw [descriptor_registerName]
    exact h.becomes n hn
  · rw [size_registerName] at hn
    rw [descriptor_registerName]
    exact h.settled n hn

theorem stable_lasts (cx : FlattenContext) (r₀ : Registry) :
    Flatten.Stable cx fun r => r₀.Lasts r where
  noted hr := hr.modify fun hs =>
    ⟨(Descriptor.Annotates.container ..).becomes, (Descriptor.Annotates.container ..).settled hs⟩
  built hr hd := (hr.push hd.settled).registerName _ _ _ _

end Registry

/-! ## Sessions -/

namespace Session

/-- What the registries of the first session hold lasts into the second one. -/
def Lasts (s₀ s : Session) : Prop :=
  ∀ a, (s₀.analysis a).registry.Lasts (s.analysis a).registry

namespace Lasts

variable {s₀ s : Session}

theorem empty : ({} : Session).Lasts {} := by
  intro a
  refine .refl fun n hn => ?_
  rw [registry_empty] at hn
  exact absurd hn (Nat.not_lt_zero n)

theorem flatten {α : Type} (h : s₀.Lasts s) (a : AnalysisId) (home : ModuleId)
    (layout : Option LayoutId) {act : FlattenContext → Flatten α}
    (hact : ∀ cx r₀, Preserves (fun f => Registry.Lasts r₀ f.registry) (act cx)) :
    s₀.Lasts (after (Work.flatten a home layout act) s) := by
  intro a'
  rw [after_flatten, analysis_takeOver]
  split
  · next he =>
    rw [he.1]
    exact hact _ _ (Work.stateFor s a) (h a)
  · exact h a'

theorem operation (h : s₀.Lasts s) (op : Operation) : s₀.Lasts (op.exec s) := by
  have heffect := s.exec_effect op
  generalize op.exec s = s' at heffect
  cases heffect with
  | edited P => exact h
  | ran a home layout =>
    exact h.flatten a home layout fun cx r₀ =>
      (Registry.stable_lasts cx r₀).run fun hr => hr.registerName _ _ _ _
  | asked _ a st home layout _ =>
    exact h.flatten a home layout fun cx r₀ => (Registry.stable_lasts cx r₀).handleOf st
  | annotated _ _ registries => exact fun a => (h a).annotated (registries a)

theorem modifyDescriptor (h : s₀.Lasts s) {d : DescriptorRef} {f : Descriptor → Descriptor}
    (hf : (s.descriptor d).Settled →
      (s.descriptor d).Becomes (f (s.descriptor d)) ∧ (f (s.descriptor d)).Settled) :
    s₀.Lasts (s.modifyDescriptor d f) := by
  cases d with
  | loose i => exact h
  | listed a n =>
    intro a'
    have hget := s.analysis_modify a a' fun x => { x with registry := x.registry.modify n f }
    rw [Session.modifyDescriptor, hget]
    split
    · next he =>
      rw [he.1]
      exact (h a).modify hf
    · exact h a'

/-- The table of a descriptor in an arena is closed. -/
theorem reshape (d : DescriptorRef) (f : Shape → Shape) :
    Preserves s₀.Lasts (Work.reshape d f) := by
  intro s h
  unfold Work.reshape
  simp only [after, get_bind]
  cases hx : (s.descriptor d).reshape f with
  | error e => exact h
  | ok changed =>
    refine h.modifyDescriptor fun hs => ?_
    simp only [Descriptor.reshape, hs.finished, if_true] at hx
    cases hx

/-- To finish what is finished may at most tell its size. -/
theorem finish (d : DescriptorRef) : Preserves s₀.Lasts (Work.finish d) := by
  have hclose : Preserves s₀.Lasts
      (modify fun s => s.modifyDescriptor d Descriptor.finish : Work PUnit) := by
    refine .modify fun s h => h.modifyDescriptor fun hs => ?_
    have hsame : ∀ {x : Descriptor}, x.finished = true → x.finish = x := by
      intro x hx
      cases x
      cases hx
      rfl
    rw [hsame hs.finished]
    exact ⟨.refl _, hs⟩
  refine .bind (.modify fun s h => ?_) fun _ => .bind .get fun s => .bind .get fun s' => ?_
  · exact h.modifyDescriptor fun hs => hs.settle.symm ▸ ⟨.refl _, hs⟩
  · dsimp only
    split
    · refine .bind ?_ fun size => .bind (.modify fun s h => ?_) fun _ => hclose
      · intro s h
        rw [after_askLayout]
        exact h
      · exact h.modifyDescriptor fun hs => ⟨Descriptor.becomes_note _ _, hs.note _⟩
    · exact hclose

theorem call (h : s₀.Lasts s) (c : Call) : s₀.Lasts (c.exec s) := by
  cases c with
  | operation op => exact h.operation op
  | addContainer d container offset =>
    exact h.modifyDescriptor fun hs => ⟨(Descriptor.Annotates.container ..).becomes,
      (Descriptor.Annotates.container ..).settled hs⟩
  | reshape d f => exact reshape d f s h
  | finish d => exact finish d s h

theorem calls (h : s₀.Lasts s) (cs : List Call) : s₀.Lasts (cs.foldr (fun c s => c.exec s) s) := by
  induction cs with
  | nil => exact h
  | cons c cs ih => exact ih.call c

end Lasts

end Session

theorem lasts_perform (later before : List Call) :
    (perform before).Lasts (perform (later ++ before)) := by
  have hbefore : ({} : Session).Lasts (perform before) := Session.Lasts.empty.calls before
  have hsame : (perform before).Lasts (perform before) := fun a => .refl (hbefore a).settled
  have happend : perform (later ++ before) =
      later.foldr (fun c s => c.exec s) (perform before) := List.foldr_append
  rw [happend]
  exact hsame.calls later

/-- A descriptor that is in an arena stays there, whatever a client does: its table, struct, module
and layout are the same for ever, and its containers, offsets, instructions, flags and leak sites
are at most added to. No instruction is listed twice, and every flag says whether there is an offset
in the set beside it. -/
theorem descriptors_last (later before : List Call) (a : AnalysisId) (n : Nat)
    (hn : n < ((perform before).analysis a).registry.size) :
    let d := ((perform before).analysis a).registry.descriptor n
    let d' := ((perform (later ++ before)).analysis a).registry.descriptor n
    n < ((perform (later ++ before)).analysis a).registry.size ∧ d.Becomes d' ∧
      (∀ k, (d'.insts k).items.Nodup) ∧ ∀ k, d'.marked k = true ↔ ∃ o, o ∈ d'.offsets k := by
  intro d d'
  have hlasts := lasts_perform later before a
  have hn' := Nat.lt_of_lt_of_le hn hlasts.size_le
  exact ⟨hn', hlasts.becomes n hn, fun k => (d'.insts k).nodup, (hlasts.settled n hn').inStep⟩

/-- Calls that ask for a struct. -/
def askCalls : List Call :=
  [Event.locate ⟨0⟩ ⟨2⟩ ⟨0⟩ none, .addAnalysis none none, .addLayout {}, .edit smallProgram].map
    fun e => .operation (.event e)

/-- A note that the struct leaks, and what a client may try on the descriptor afterwards. -/
def leakNote (n : Nat) : Operation :=
  .note (.listed ⟨0⟩ n) (.leakable 4 none)

def laterCalls (n : Nat) : List Call :=
  [.finish (.listed ⟨0⟩ n), .reshape (.listed ⟨0⟩ n) fun _ => {}, .operation (.event (.edit {}))]

theorem perform_askCalls : perform askCalls = askedSession :=
  rfl

theorem perform_leakNote (n : Nat) :
    perform (.operation (leakNote n) :: askCalls) = (leakNote n).exec askedSession :=
  rfl

theorem analyses_askedSession : 0 < askedSession.analyses.size := by
  rw [askedSession, Event.exec, Work.handleOf, Session.after_flatten]
  simp only [Work.takeOver, Array.size_modify]
  decide

/-- The note is there after the program was thrown away and the construction was tried again. -/
theorem descriptors_last_small :
    ∃ n, let calls := laterCalls n ++ .operation (leakNote n) :: askCalls
      let d := ((perform calls).analysis ⟨0⟩).registry.descriptor n
      d.type = ⟨2⟩ ∧ d.marked .leakable = true ∧ 4 ∈ d.offsets .leakable := by
  obtain ⟨n, hn⟩ := handle?_askedSession
  have hreg := reachable_askedSession.sound.registries ⟨0⟩
  have hlt : n < (((leakNote n).exec askedSession).analysis ⟨0⟩).registry.size := by
    have hsize := (lasts_perform [.operation (leakNote n)] askCalls ⟨0⟩).size_le
    rw [List.singleton_append, perform_leakNote, perform_askCalls] at hsize
    exact Nat.lt_of_lt_of_le (hreg.lt hn) hsize
  have hlast := descriptors_last (laterCalls n) (.operation (leakNote n) :: askCalls) ⟨0⟩ n
  rw [perform_leakNote] at hlast
  obtain ⟨-, hbecomes, -, hmarked⟩ := hlast hlt
  have hnoted := descriptor_note (hreg.lt hn) analyses_askedSession (.leakable 4 none)
  have hmem := hbecomes.offsets .leakable 4 (by
    rw [leakNote, hnoted]
    exact OffsetSet.mem_insert.2 (.inl rfl))
  refine ⟨n, ?_, (hmarked .leakable).2 ⟨4, hmem⟩, hmem⟩
  have htype := hbecomes.type
  rw [leakNote, hnoted] at htype
  exact htype.trans (hreg.type hn)

end KernelObjects
