/-!
# Working on a part of the state

Operations that can fail keep what they changed before they failed, so they run in `EStateM`. An
operation that needs a part of a larger state only is written for that part and lifted by `onPart`.

Results:
* `onPart_eq`: the lifted operation answers as the small one does, and changes that part only.
* `Preserves.bind`, `Preserves.forM`: a property that every step preserves, the whole preserves.
* `Returns.bind`: what is returned at the end has a property if it follows from those before.
-/
namespace KernelObjects

variable {ε σ τ α β : Type}

/-- Runs an action on the part `get s` of a state `s` and puts the part back, failed or not. -/
def onPart (get : σ → τ) (set : τ → σ → σ) (act : EStateM ε τ α) : EStateM ε σ α := fun s =>
  match act (get s) with
  | .ok a t => .ok a (set t s)
  | .error e t => .error e (set t s)

theorem onPart_eq (get : σ → τ) (set : τ → σ → σ) (act : EStateM ε τ α) (s : σ) :
    onPart get set act s =
      match act (get s) with
      | .ok a t => .ok a (set t s)
      | .error e t => .error e (set t s) := rfl

/-- Raises the error of a pure result. -/
def orRaise {m : Type → Type} [Monad m] [MonadExceptOf ε m] : Except ε α → m α
  | .ok a => pure a
  | .error e => throw e

theorem bind_eq_ok {x : Except ε α} {f : α → Except ε β} {b : β} :
    (x >>= f) = .ok b ↔ ∃ a, x = .ok a ∧ f a = .ok b := by
  cases x <;> simp [bind, Except.bind]

theorem orRaise_eq_ok {x : Except ε α} {a : α} : (orRaise x : Except ε α) = .ok a ↔ x = .ok a := by
  cases x <;> simp [orRaise, pure, Except.pure, throw, throwThe, MonadExceptOf.throw]

/-! ## What an action leaves behind -/

/-- The state that an action leaves behind, failed or not. -/
def after (act : EStateM ε σ α) (s : σ) : σ :=
  match act s with
  | .ok _ s' => s'
  | .error _ s' => s'

theorem after_ok {act : EStateM ε σ α} {s s' : σ} {a : α} (h : act s = .ok a s') :
    after act s = s' := by
  simp [after, h]

theorem after_error {act : EStateM ε σ α} {s s' : σ} {e : ε} (h : act s = .error e s') :
    after act s = s' := by
  simp [after, h]

/-- What an action says, whatever it leaves behind. -/
def answer (act : EStateM ε σ α) (s : σ) : Except ε α :=
  match act s with
  | .ok a _ => .ok a
  | .error e _ => .error e

theorem bind_ok {x : EStateM ε σ α} {f : α → EStateM ε σ β} {s s' : σ} {a : α}
    (h : x s = .ok a s') : (x >>= f) s = f a s' := by
  simp only [bind, EStateM.bind, h]

theorem bind_error {x : EStateM ε σ α} {f : α → EStateM ε σ β} {s s' : σ} {e : ε}
    (h : x s = .error e s') : (x >>= f) s = .error e s' := by
  simp only [bind, EStateM.bind, h]

theorem after_orRaise (x : Except ε α) (s : σ) : after (orRaise x : EStateM ε σ α) s = s := by
  cases x <;> rfl

/-- What comes next leaves the state alone. -/
theorem after_bind_of_same {x : EStateM ε σ α} {f : α → EStateM ε σ β}
    (hf : ∀ a s, after (f a) s = s) (s : σ) : after (x >>= f) s = after x s := by
  cases he : x s with
  | ok a s' => rw [after, bind_ok he, ← after, hf, after_ok he]
  | error e s' => rw [after_error (bind_error he), after_error he]

theorem get_bind (f : σ → EStateM ε σ β) (s : σ) :
    ((get : EStateM ε σ σ) >>= f) s = f s s :=
  rfl

/-- What the action returns has a property. -/
def Returns (q : α → Prop) (act : EStateM ε σ α) : Prop :=
  ∀ s a s', act s = .ok a s' → q a

namespace Returns

variable {q : α → Prop}

theorem pure {a : α} (h : q a) : Returns q (Pure.pure a : EStateM ε σ α) := by
  intro s b s' hb
  cases hb
  exact h

theorem any (act : EStateM ε σ α) : Returns (fun _ => True) act :=
  fun _ _ _ _ => trivial

theorem bind {q' : β → Prop} {x : EStateM ε σ α} {f : α → EStateM ε σ β} (hx : Returns q x)
    (hf : ∀ a, q a → Returns q' (f a)) : Returns q' (x >>= f) := by
  intro s b s' hb
  cases he : x s with
  | ok a s₁ =>
    rw [bind_ok he] at hb
    exact hf a (hx s a s₁ he) s₁ b s' hb
  | error e s₁ =>
    rw [bind_error he] at hb
    cases hb

end Returns

/-- The action leads from states with a property to states with it, failed or not. -/
def Preserves (p : σ → Prop) (act : EStateM ε σ α) : Prop :=
  ∀ s, p s → p (after act s)

namespace Preserves

variable {p : σ → Prop}

theorem pure (a : α) : Preserves p (Pure.pure a : EStateM ε σ α) :=
  fun _ hs => hs

theorem throw (e : ε) : Preserves p (throw e : EStateM ε σ α) :=
  fun _ hs => hs

theorem get : Preserves p (MonadState.get : EStateM ε σ σ) :=
  fun _ hs => hs

theorem modify {f : σ → σ} (h : ∀ s, p s → p (f s)) :
    Preserves p (modify f : EStateM ε σ PUnit) :=
  h

/-- A later step may use what is known of the value that an earlier one returned. -/
theorem bind_returns {q : α → Prop} {x : EStateM ε σ α} {f : α → EStateM ε σ β}
    (hx : Preserves p x) (hq : Returns q x) (hf : ∀ a, q a → Preserves p (f a)) :
    Preserves p (x >>= f) := by
  intro s hs
  have hs₁ := hx s hs
  cases he : x s with
  | ok a s₁ =>
    rw [after_ok he] at hs₁
    have hb : after (x >>= f) s = after (f a) s₁ := by
      simp only [after, bind_ok (f := f) he]
    rw [hb]
    exact hf a (hq s a s₁ he) s₁ hs₁
  | error e s₁ =>
    rw [after_error he] at hs₁
    rw [after_error (bind_error he)]
    exact hs₁

theorem bind {x : EStateM ε σ α} {f : α → EStateM ε σ β} (hx : Preserves p x)
    (hf : ∀ a, Preserves p (f a)) : Preserves p (x >>= f) :=
  bind_returns hx (.any x) fun a _ => hf a

theorem orRaise (x : Except ε α) : Preserves p (KernelObjects.orRaise x : EStateM ε σ α) := by
  cases x
  · exact throw _
  · exact pure _

theorem forM {xs : List β} {f : β → EStateM ε σ PUnit} (hf : ∀ b, Preserves p (f b)) :
    Preserves p (xs.forM f) := by
  induction xs with
  | nil => exact pure _
  | cons b bs ih => exact bind (hf b) fun _ => ih

theorem onPart {get : σ → τ} {set : τ → σ → σ} (h : ∀ t s, p s → p (set t s))
    (act : EStateM ε τ α) : Preserves p (KernelObjects.onPart get set act) := by
  intro s hs
  simp only [after, KernelObjects.onPart]
  cases act (get s) <;> exact h _ _ hs

end Preserves

/-- The action changes nothing that `view` shows. -/
def Keeps (view : σ → τ) (act : EStateM ε σ α) : Prop :=
  ∀ s, view (after act s) = view s

theorem Keeps.of_preserves {view : σ → τ} {act : EStateM ε σ α}
    (h : ∀ x, Preserves (fun s => view s = x) act) : Keeps view act :=
  fun s => h (view s) s rfl

end KernelObjects
