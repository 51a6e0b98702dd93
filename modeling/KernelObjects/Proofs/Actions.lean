import KernelObjects.Proofs.Lasting

/-!
# Clients with objects of their own

Beside the operations on a session, a client may hand structs to a tracker itself, and may make a
descriptor outside all registries and annotate it. Nothing is asked of it but that it names things
that there are: it cannot ask an analysis that was never made, and a tracker or a descriptor has to
exist before it is given to somebody. Programs may be edited at will, and every action may fail.

Results:
* `collected_cons`: what is collected from the actions grows at its end.
* `Acts.of_append`: a client that has come so far has come by a shorter way before.
* `Session.exec_request`: a request takes over what flattening has made.
* `Session.after_addDescriptor`: a descriptor is made, or nothing happens.
* `Acts.lasts`: what is in an arena lasts through all actions to come.
-/
namespace KernelObjects

/-- The descriptor that an operation writes to. -/
def Operation.descriptor? : Operation → Option DescriptorRef
  | .note d _ | .leakSource d _ _ _ | .leak (.ofDescriptor d) _ _ _
  | .record (.allocation d) _ _ _ _ _ | .record (.other d) _ _ _ _ _ => some d
  | _ => none

/-- The tracker that an operation gives to an analysis. -/
def Operation.tracker? : Operation → Option TrackerId
  | .event (.addAnalysis _ tracker) => tracker
  | _ => none

/-- What a client does, with trackers and descriptors of its own. -/
inductive Action where
  | operation (op : Operation)
  | offer (id : TrackerId) (st : StructId) (size : Int)
  | addDescriptor (st : StructId) (home : ModuleId) (layout : Option LayoutId)
      (settings : Option SettingsId)

namespace Action

/-- The session after an action, also if it fails. -/
def exec (s : Session) : Action → Session
  | .operation op => op.exec s
  | .offer id st size => after (Work.offer id st size) s
  | .addDescriptor st home layout settings => after (Work.addDescriptor st home layout settings) s

/-- The analysis, the tracker and the descriptor that the action names are there. -/
def Proper (s : Session) : Action → Prop
  | .operation op =>
    (∀ a home, op.module? = some (a, home) → a.idx < s.analyses.size) ∧
    (∀ id, op.tracker? = some id → id.idx < s.trackers.size) ∧
    ∀ d, op.descriptor? = some d → d.Exists s
  | .offer id _ _ => id.idx < s.trackers.size
  | .addDescriptor .. => True

theorem Proper.of_descriptor {s : Session} {op : Operation} {d : DescriptorRef}
    (hmodule : op.module? = none) (htracker : op.tracker? = none)
    (hop : op.descriptor? = some d) (hd : d.Exists s) : Proper s (.operation op) := by
  refine ⟨fun a home he => ?_, fun id he => ?_, fun e he => ?_⟩
  · rw [hmodule] at he
    cases he
  · rw [htracker] at he
    cases he
  · rw [hop] at he
    cases he
    exact hd

end Action

/-- What actions have to say, in the order in which they were done. The latest of them is the first
in the list. -/
def collected {α : Type} (f : Action → Option α) (xs : List Action) : List α :=
  (xs.filterMap f).reverse

theorem collected_cons {α : Type} (f : Action → Option α) (x : Action) (xs : List Action) :
    collected f (x :: xs) = collected f xs ++ (f x).toList := by
  unfold collected
  rw [List.filterMap_cons]
  cases f x <;> simp

/-- The sessions that actions lead to, the latest action first. -/
inductive Acts : List Action → Session → Prop where
  | init : Acts [] {}
  | step {xs : List Action} {s : Session} (h : Acts xs s) (x : Action) (hx : x.Proper s) :
      Acts (x :: xs) (x.exec s)

namespace Acts

variable {xs later : List Action} {s s' : Session}

theorem uncons {x : Action} (h : Acts (x :: xs) s') :
    ∃ s, Acts xs s ∧ x.Proper s ∧ s' = x.exec s := by
  cases h with
  | step h _ hx => exact ⟨_, h, hx, rfl⟩

theorem unique (h : Acts xs s) (h' : Acts xs s') : s = s' := by
  induction h generalizing s' with
  | init =>
    cases h'
    rfl
  | step _ x _ ih =>
    obtain ⟨s₁, h₁, -, rfl⟩ := h'.uncons
    rw [ih h₁]

/-- What one action after the other keeps, they keep together. -/
theorem of_append {p : Session → Prop}
    (hstep : ∀ s x, x ∈ later → x.Proper s → p s → p (x.exec s)) (h : Acts xs s)
    (h' : Acts (later ++ xs) s') (hs : p s) : p s' := by
  induction later generalizing s' with
  | nil =>
    rw [← h.unique h']
    exact hs
  | cons x later ih =>
    obtain ⟨s₁, h₁, hx, rfl⟩ := h'.uncons
    refine hstep s₁ x (List.mem_cons_self ..) hx (ih (fun s y hy => ?_) h₁)
    exact hstep s y (List.mem_cons_of_mem _ hy)

end Acts

/-! ## Requests -/

theorem Registry.descriptor_addContainer (r : Registry) (h : Nat) (container : StructId)
    (offset : Int) (i : Nat) : ∃ cs, (r.modify h (·.addContainer container offset)).descriptor i =
      { r.descriptor i with containers := cs } := by
  by_cases hlt : h < r.size
  · rw [r.descriptor_modify h i _ hlt]
    split
    · next he => rw [he]; exact ⟨_, rfl⟩
    · exact ⟨_, rfl⟩
  · rw [descriptor_modify_of_size_le _ i (Nat.le_of_not_lt hlt)]
    exact ⟨_, rfl⟩

/-- A request is flattening for one analysis, and keeps what flattening preserves. -/
theorem Session.exec_request {s : Session} {p : FlattenState → Prop}
    (hhandle : ∀ cx st, Preserves p (Flatten.handleOf cx st))
    (hrun : ∀ cx, Preserves p (Flatten.run cx)) {op : Operation} {a : AnalysisId} {home : ModuleId}
    (hop : op.module? = some (a, home)) :
    ∃ f, op.exec s = Work.takeOver a f s ∧ (p (Work.stateFor s a) → p f) := by
  have hasked : ∀ st m layout, ∃ f,
      after (Work.handleOf a st m layout) s = Work.takeOver a f s ∧
        (p (Work.stateFor s a) → p f) := fun st m layout =>
    ⟨_, s.after_flatten .., hhandle _ st (Work.stateFor s a)⟩
  cases op with
  | event e =>
    cases e with
    | describe a' st m layout =>
      cases hop
      rw [Operation.exec, Event.exec, after_descriptorOf]
      exact hasked st home layout
    | locate a' st m layout =>
      cases hop
      exact hasked st home layout
    | run a' m layout =>
      cases hop
      exact ⟨_, s.after_flatten .., hrun _ (Work.stateFor s a)⟩
    | _ => cases hop
  | containers a' name m =>
    cases hop
    rw [Operation.exec]
    rcases s.after_containerNames a name home with he | ⟨st, m, -, -, he⟩
    · rw [he]
      exact ⟨_, (s.takeOver_stateFor a).symm, id⟩
    · rw [he]
      exact hasked st m none
  | _ => cases hop

/-- A client gets a descriptor in which nothing is noted, or nothing happens. -/
theorem Session.after_addDescriptor (s : Session) (st : StructId) (home : ModuleId)
    (layout : Option LayoutId) (settings : Option SettingsId) :
    after (Work.addDescriptor st home layout settings) s = s ∨
      ∃ name, after (Work.addDescriptor st home layout settings) s =
        { s with
          descriptors := s.descriptors.push
            { type := st, home, layout := layout.getD (s.program.module home).layout
              settings, name } } := by
  simp only [after, Work.addDescriptor]
  cases scopeName s.program.structs st (some (s.program.module home).name) with
  | error e => exact .inl rfl
  | ok name => exact .inr ⟨name, rfl⟩

/-! ## What lasts -/

namespace Session

theorem Lasts.action {s₀ s : Session} (h : s₀.Lasts s) (x : Action) : s₀.Lasts (x.exec s) := by
  cases x with
  | operation op => exact h.operation op
  | offer id st size => exact h
  | addDescriptor st home layout settings =>
    rw [Action.exec]
    rcases s.after_addDescriptor st home layout settings with he | ⟨name, he⟩
    · rwa [he]
    · rw [he]
      exact h

end Session

theorem Acts.lasts {xs later : List Action} {s s' : Session} (h : Acts xs s)
    (h' : Acts (later ++ xs) s') : s.Lasts s' := by
  have hstart : Acts (xs ++ []) s := by simpa using h
  have hs : ({} : Session).Lasts s :=
    Acts.init.of_append (fun _ x _ _ hs => hs.action x) hstart .empty
  exact h.of_append (fun _ x _ _ hs => hs.action x) h' fun a => .refl (hs a).settled

end KernelObjects
