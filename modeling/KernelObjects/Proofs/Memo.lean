import KernelObjects.Proofs.PlainLayout

/-!
# Memos

A layout remembers what it has computed. A memo is sound if all that it keeps is what the layout
without a memo says; a query that is given a sound memo then says the same as that layout, faults
included, and leaves a sound memo behind, also when it fails.

Results:
* `structLayout_answers`, `allocSize_answers`: a query with a sound memo says what the layout
  without one says.
-/
namespace KernelObjects

variable {t : Target} {S S' : Structs} {a b : StructId}

/-- All that a memo keeps is true. -/
def SoundMemo (t : Target) (S : Structs) (m : Memo) : Prop :=
  ∀ st l, m.get? st.idx = some l → S.layoutOn t st = .ok l

theorem SoundMemo.empty (t : Target) (S : Structs) : SoundMemo t S ∅ := by
  intro st l h
  simp at h

theorem SoundMemo.grows {m : Memo} (h : SoundMemo t S m) (hS : S.Grows S') : SoundMemo t S' m :=
  fun st l hl => Structs.layoutOn_grows hS (h st l hl)

theorem SoundMemo.insert {m : Memo} (h : SoundMemo t S m) {l : StructLayout}
    (hl : S.layoutOn t a = .ok l) : SoundMemo t S (m.insert a.idx l) := by
  intro st l' h'
  rw [Slots.get?_insert] at h'
  split at h'
  · next he =>
    obtain rfl : st = a := by cases st; cases a; simp_all
    cases h'
    exact hl
  · exact h st l' h'

variable {α β : Type}

/-- Given a sound memo, the query says what `answer` says, and it leaves a sound memo. -/
def Answers (t : Target) (S : Structs) (query : LayoutQuery α) (answer : Except Fault α) : Prop :=
  ∀ m, SoundMemo t S m → ∃ m', SoundMemo t S m' ∧
    query m = match answer with
      | .ok a => .ok a m'
      | .error e => .error e m'

namespace Answers

theorem sound_after {query : LayoutQuery α} {answer : Except Fault α}
    (h : Answers t S query answer) {m : Memo} (hm : SoundMemo t S m) :
    SoundMemo t S (after query m) := by
  obtain ⟨m', hm', he⟩ := h m hm
  cases answer with
  | ok a => rw [after_ok he]; exact hm'
  | error e => rw [after_error he]; exact hm'

theorem pure (a : α) : Answers t S (Pure.pure a) (.ok a) :=
  fun m hm => ⟨m, hm, rfl⟩

theorem throw (e : Fault) : Answers t S (throw e : LayoutQuery α) (.error e) :=
  fun m hm => ⟨m, hm, rfl⟩

theorem orRaise (x : Except Fault α) :
    Answers t S (KernelObjects.orRaise x) (KernelObjects.orRaise x) := by
  cases x
  · exact throw _
  · exact pure _

theorem bind {q : LayoutQuery α} {x : Except Fault α} {f : α → LayoutQuery β}
    {g : α → Except Fault β} (hq : Answers t S q x) (hf : ∀ a, Answers t S (f a) (g a)) :
    Answers t S (q >>= f) (x >>= g) := by
  intro m hm
  obtain ⟨m₁, hm₁, hq⟩ := hq m hm
  cases x with
  | error e => exact ⟨m₁, hm₁, by simp only [Bind.bind, EStateM.bind, hq, Except.bind]⟩
  | ok a =>
    obtain ⟨m₂, hm₂, hf⟩ := hf a m₁ hm₁
    exact ⟨m₂, hm₂, by simp only [Bind.bind, EStateM.bind, hq, hf, Except.bind]⟩

variable {ask : StructId → LayoutQuery StructLayout} {ask' : StructId → Except Fault StructLayout}

theorem alignmentWith {e : Ty} (h : ∀ b, e.embedded? = some b → Answers t S (ask b) (ask' b)) :
    Answers t S (alignmentWith t S ask e) (alignmentWith t S ask' e) := by
  induction e using Ty.array_induction with
  | array e n ih => exact ih h
  | other e he =>
    cases e with
    | array e n => cases he
    | struct s => exact bind (h s rfl) fun _ => pure _
    | int _ => exact pure _
    | ptr _ _ => exact pure _
    | unknown => exact throw _
    | void => exact throw _
    | func _ _ _ => exact throw _

theorem allocSizeWith {e : Ty} (h : ∀ b, e.embedded? = some b → Answers t S (ask b) (ask' b)) :
    Answers t S (allocSizeWith t S ask e) (allocSizeWith t S ask' e) := by
  induction e using Ty.array_induction with
  | array e n ih => exact bind (ih h) fun _ => pure _
  | other e he =>
    cases e with
    | array e n => cases he
    | struct s => exact bind (h s rfl) fun _ => pure _
    | int _ => exact orRaise _
    | ptr _ _ => exact orRaise _
    | unknown => exact throw _
    | void => exact throw _
    | func _ _ _ => exact throw _

theorem placeWith {u p : Bool} {es : List Ty} {q : Placement}
    (h : ∀ e ∈ es, ∀ b, e.embedded? = some b → Answers t S (ask b) (ask' b)) :
    Answers t S (placeWith t S ask u p es q) (placeWith t S ask' u p es q) := by
  induction es generalizing q with
  | nil => exact pure _
  | cons e es ih =>
    have he := h e (List.mem_cons_self ..)
    refine bind ?_ fun align => bind (allocSizeWith he) fun size => bind (orRaise _) fun q' =>
      ih fun e' he' => h e' (List.mem_cons_of_mem _ he')
    unfold fieldAlignWith
    split
    · exact pure _
    · exact alignmentWith he

end Answers

theorem structLayoutTo_answers {n : Nat} (hf : S.Founded a) (hn : S.rank a < n) :
    Answers t S (structLayoutTo t S n a) (S.layoutOn t a) := by
  induction hf generalizing n with
  | intro a hacc ih =>
    have hf : S.Founded a := .intro a hacc
    obtain ⟨n, rfl⟩ : ∃ k, n = k + 1 := ⟨n - 1, by omega⟩
    intro m hm
    cases hk : m.get? a.idx with
    | some l =>
      refine ⟨m, hm, ?_⟩
      rw [hm a l hk]
      rw [structLayoutTo, get_bind, hk]
      rfl
    | none =>
      have hplace := Answers.placeWith (t := t) (u := (S.get a).isUnion) (p := (S.get a).packed)
        (q := {}) fun e he b hb => ih b ⟨e, he, hb⟩ <| Nat.lt_of_lt_of_le
          (Structs.rank_lt ⟨e, he, hb⟩ hf.not_holds_self) (Nat.le_of_lt_succ hn)
      obtain ⟨m', hm', hplace⟩ := hplace m hm
      have hl := Structs.layoutOn_eq (t := t) hf
      rw [structLayoutTo, get_bind, hk]
      dsimp only
      by_cases ho : (S.get a).isOpaque = true
      · rw [if_pos ho] at hl ⊢
        rw [hl]
        exact ⟨m, hm, rfl⟩
      · rw [if_neg ho] at hl ⊢
        simp only [Bind.bind, EStateM.bind, hplace]
        cases hp : placeWith t S (S.layoutOn t) (S.get a).isUnion (S.get a).packed
            (S.get a).elements {} with
        | error e =>
          simp only [hp, Bind.bind, Except.bind] at hl
          rw [hl]
          exact ⟨m', hm', rfl⟩
        | ok p =>
          simp only [hp, Bind.bind, Except.bind] at hl
          rw [hl]
          exact ⟨m'.insert a.idx (p.finish (S.get a).packed t.aggregateAlign), hm'.insert hl, rfl⟩

theorem structLayout_answers (hf : S.Founded a) :
    Answers t S (structLayout t S a) (S.layoutOn t a) :=
  structLayoutTo_answers hf (Nat.lt_succ_of_le (Structs.rank_le_size a))

theorem allocSize_answers {e : Ty} (hf : ∀ b, e.embedded? = some b → S.Founded b) :
    Answers t S (allocSize t S e) (S.sizeOn t e) :=
  Answers.allocSizeWith fun b hb => structLayout_answers (hf b hb)

end KernelObjects
