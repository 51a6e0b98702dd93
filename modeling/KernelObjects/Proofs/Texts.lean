import KernelObjects.Program.Text
import KernelObjects.Registry.WorkList

/-!
# The texts of types

A literal struct is written out field by field, through pointers and the parameters of functions,
until only structs with names are left. There is no end to the text of a literal that leads back to
itself in this way, and no text if a number on the way has too many digits. The name of a literal is
its text, so such a struct cannot be named either.

Results:
* `structText_eq`: the text of a struct is made of the texts of the structs in its fields, without
  any bound.
* `structText_eq_endless_iff`: the bound is reached only where every bound is.
* `nameable_iff_spelled`: which structs can be named.
* `scopeName_eq_error_iff`: where a struct cannot be named, that is the fault of its label.
* `Structs.text_writes`, `Structs.label_writes`, `Program.text_writes`: a text fails only if there
  is no end to it, or for a number of too many digits.
-/
namespace KernelObjects

/-! ## Texts and bounds -/

/-- The first result is the second one, or the bound was reached before. -/
def Cut {α : Type} (x y : Except Fault α) : Prop :=
  x = .error .endless ∨ x = y

theorem Cut.refl {α : Type} (x : Except Fault α) : Cut x x :=
  .inr rfl

theorem Cut.bind {α β : Type} {x y : Except Fault α} {f g : α → Except Fault β} (h : Cut x y)
    (hf : ∀ a, Cut (f a) (g a)) : Cut (x >>= f) (y >>= g) := by
  rcases h with rfl | rfl
  · exact .inl rfl
  · cases x with
    | ok a => exact hf a
    | error e => exact .refl _

namespace Ty

variable {inner inner' : StructId → Except Fault String}

mutual

theorem text_cut (h : ∀ b, Cut (inner b) (inner' b)) : ∀ t : Ty, Cut (t.text inner) (t.text inner')
  | .unknown | .void | .int _ | .ptr .unknown _ => .refl _
  | .ptr .void _ | .ptr (.int _) _ => .refl _
  | .ptr (.ptr t s) _ => (text_cut h (.ptr t s)).bind fun _ => .refl _
  | .ptr (.array e n) _ => (text_cut h (.array e n)).bind fun _ => .refl _
  | .ptr (.func r ps v) _ => (text_cut h (.func r ps v)).bind fun _ => .refl _
  | .ptr (.struct b) _ => (h b).bind fun _ => .refl _
  | .array e _ => (Cut.refl _).bind fun _ => (text_cut h e).bind fun _ => .refl _
  | .func r ps _ => (texts_cut h ps).bind fun _ => (text_cut h r).bind fun _ => .refl _
  | .struct b => h b

theorem texts_cut (h : ∀ b, Cut (inner b) (inner' b)) :
    ∀ ts : List Ty, Cut (texts inner ts) (texts inner' ts)
  | [] => .refl _
  | t :: ts => (text_cut h t).bind fun _ => (texts_cut h ts).bind fun _ => .refl _

end

end Ty

namespace Structs

variable {S : Structs} {st : StructId} {n : Nat} {e : Fault}

theorem textWith_cut {inner inner' : StructId → Except Fault String}
    (h : ∀ b, Cut (inner b) (inner' b)) (st : StructId) :
    Cut (S.textWith inner st) (S.textWith inner' st) := by
  unfold textWith
  dsimp only
  split
  · exact (Ty.texts_cut h _).bind fun _ => .refl _
  · exact .refl _

theorem textTo_cut (S : Structs) (n : Nat) (st : StructId) :
    Cut (S.textTo n st) (S.textTo (n + 1) st) := by
  induction n generalizing st with
  | zero => exact .inl rfl
  | succ n ih => exact textWith_cut ih st

/-- Once one more step makes no difference, no more steps do. -/
theorem textTo_add (h : S.textTo (n + 1) = S.textTo n) (k : Nat) :
    S.textTo (n + k) = S.textTo n := by
  induction k with
  | zero => rfl
  | succ k ih =>
    funext st
    have hstep : S.textTo (n + (k + 1)) st = S.textWith (S.textTo (n + k)) st := rfl
    rw [hstep, ih]
    exact congrFun h st

/-- A struct that is not there is written in one step. -/
theorem textTo_absent (h : S.size ≤ st.idx) (n : Nat) :
    S.textTo (n + 1) st = .ok "\x7b  \x7d" := by
  have hget : S.get st = {} := by
    simp only [get, Array.getD_eq_getD_getElem?, Array.getElem?_eq_none h]
    rfl
  have hstep : S.textTo (n + 1) st = S.textWith (S.textTo n) st := rfl
  rw [hstep, textWith, hget]
  rfl

/-- Whether the bound was reached. -/
def isCut : Except Fault String → Bool
  | .error .endless => true
  | _ => false

theorem isCut_iff {x : Except Fault String} : isCut x = true ↔ x = .error .endless := by
  unfold isCut
  split <;> simp_all

/-- The number of structs whose text has not come to its end within a bound. -/
def cutAt (S : Structs) (n : Nat) : Nat :=
  (List.range S.size).countP fun i => isCut (S.textTo n ⟨i⟩)

theorem cutAt_lt (h : S.textTo (n + 2) ≠ S.textTo (n + 1)) : S.cutAt (n + 2) < S.cutAt (n + 1) := by
  obtain ⟨st, hne⟩ : ∃ st, S.textTo (n + 2) st ≠ S.textTo (n + 1) st := by
    refine Classical.not_forall.1 fun hall => h (funext hall)
  have hcut := (S.textTo_cut (n + 1) st).resolve_right fun he => hne he.symm
  have hlt : st.idx < S.size := by
    refine Nat.lt_of_not_le fun hle => ?_
    rw [textTo_absent hle] at hcut
    cases hcut
  refine Flatten.countP_lt_countP (fun i hi => ?_) (List.mem_range.2 hlt) ?_ (isCut_iff.2 hcut)
  · -- what is cut off later is cut off before
    rw [isCut_iff] at hi ⊢
    exact (S.textTo_cut (n + 1) ⟨i⟩).elim id fun he => he.trans hi
  · exact Bool.eq_false_iff.2 fun hi => hne ((isCut_iff.1 hi).trans hcut.symm)

theorem cutAt_add_le (h : ∀ j ≤ n, S.textTo (j + 2) ≠ S.textTo (j + 1)) :
    S.cutAt (n + 2) + (n + 1) ≤ S.size := by
  induction n with
  | zero =>
    have hlt : S.cutAt 2 < S.cutAt 1 := cutAt_lt (h 0 (Nat.le_refl 0))
    have hle : S.cutAt 1 ≤ (List.range S.size).length := List.countP_le_length
    rw [List.length_range] at hle
    exact Nat.le_trans hlt hle
  | succ n ih =>
    have hlt : S.cutAt (n + 3) < S.cutAt (n + 2) := cutAt_lt (h (n + 1) (Nat.le_refl _))
    have hle := ih fun j hj => h j (Nat.le_succ_of_le hj)
    change S.cutAt (n + 3) + (n + 2) ≤ S.size
    omega

/-- With one step for each struct, and one more, every text is at its end that has one. -/
theorem textTo_size (S : Structs) : S.textTo (S.size + 2) = S.textTo (S.size + 1) := by
  refine Classical.byContradiction fun hne => ?_
  have hall : ∀ j ≤ S.size, S.textTo (j + 2) ≠ S.textTo (j + 1) := by
    intro j hj he
    obtain ⟨k, hk⟩ := Nat.exists_eq_add_of_le hj
    have hbelow := textTo_add he k
    have habove := textTo_add he (k + 1)
    have hindex : j + 1 + k = S.size + 1 := by omega
    have hindex' : j + 1 + (k + 1) = S.size + 2 := by omega
    rw [hindex] at hbelow
    rw [hindex'] at habove
    exact hne (habove.trans hbelow.symm)
  have hle := cutAt_add_le hall
  omega

/-- The text of a struct is its name, or made of the texts of the structs in its fields. -/
theorem structText_eq (S : Structs) (st : StructId) :
    S.structText st = S.textWith S.structText st :=
  (congrFun S.textTo_size st).symm

/-- A text that does not come to its end within the bound does not come to an end. -/
theorem structText_eq_endless_iff :
    S.structText st = .error .endless ↔ ∀ n, S.textTo n st = .error .endless := by
  refine ⟨fun h n => ?_, fun h => h _⟩
  have hlater : S.textTo (S.size + 1 + n) st = .error .endless := by
    rw [textTo_add S.textTo_size]
    exact h
  have hearlier : ∀ k, Cut (S.textTo n st) (S.textTo (n + k) st) := by
    intro k
    induction k with
    | zero => exact .refl _
    | succ k ih =>
      rcases ih with hcut | he
      · exact .inl hcut
      · rw [he]
        exact S.textTo_cut (n + k) st
  rcases hearlier (S.size + 1) with hcut | he
  · exact hcut
  · rw [he, Nat.add_comm, hlater]

end Structs

/-! ## What can be written -/

theorem exists_numberText_iff {n : Int} :
    (∃ s, numberText n = .ok s) ↔ n.natAbs < Nat.pow 10 Text.Numeral.maxDigits := by
  unfold numberText
  constructor
  · rintro ⟨s, hs⟩
    split at hs
    · next hw => exact (Text.Numeral.write?_eq_some_iff.1 hw).1
    · cases hs
  · intro h
    rw [Text.Numeral.write?_eq_some_iff.2 ⟨h, rfl⟩]
    exact ⟨_, rfl⟩

theorem exists_bind_iff {α β : Type} {x : Except Fault α} {f : α → Except Fault β} :
    (∃ b, (x >>= f) = .ok b) ↔ ∃ a, x = .ok a ∧ ∃ b, f a = .ok b := by
  simp only [bind_eq_ok]
  exact ⟨fun ⟨b, a, ha, hb⟩ => ⟨a, ha, b, hb⟩, fun ⟨a, ha, b, hb⟩ => ⟨b, a, ha, hb⟩⟩

/-- If what comes next cannot fail, the whole fails with the first step. -/
theorem exists_bind_pure_iff {α β : Type} {x : Except Fault α} {f : α → β} :
    (∃ b, (x >>= fun a => pure (f a)) = .ok b) ↔ ∃ a, x = .ok a := by
  rw [exists_bind_iff]
  exact exists_congr fun a => and_iff_left ⟨f a, rfl⟩

/-- If the second step does not depend on the first one, both have to succeed. -/
theorem exists_both_iff {α β γ : Type} {x : Except Fault α} {y : Except Fault β} {f : α → β → γ} :
    (∃ c, (x >>= fun a => y >>= fun b => pure (f a b)) = .ok c) ↔
      (∃ a, x = .ok a) ∧ ∃ b, y = .ok b := by
  rw [exists_bind_iff]
  simp only [exists_bind_pure_iff, exists_and_right]

namespace Ty

mutual

/-- The numbers that the text of a type shows, and the structs that it speaks of. -/
def parts : Ty → List (Int ⊕ StructId)
  | .unknown | .void => []
  | .int bits => [.inl bits]
  | .ptr t _ => t.parts
  | .array e n => .inl n :: e.parts
  | .func r ps _ => allParts ps ++ r.parts
  | .struct b => [.inr b]

/-- The numbers that the texts of types show, and the structs that they speak of. -/
def allParts : List Ty → List (Int ⊕ StructId)
  | [] => []
  | t :: ts => t.parts ++ allParts ts

end

/-- The text of a part of a type. -/
def partText (inner : StructId → Except Fault String) : Int ⊕ StructId → Except Fault String
  | .inl n => numberText n
  | .inr b => inner b

variable {inner : StructId → Except Fault String}

theorem exists_text_ptr (t : Ty) (space : Int) :
    (∃ s, (Ty.ptr t space).text inner = .ok s) ↔ ∃ s, t.text inner = .ok s := by
  cases t with
  | unknown => exact ⟨fun _ => ⟨_, rfl⟩, fun _ => ⟨_, rfl⟩⟩
  | _ => exact exists_bind_pure_iff

mutual

/-- A type can be written exactly if all its parts can. -/
theorem exists_text_iff : ∀ t : Ty,
    (∃ s, t.text inner = .ok s) ↔ ∀ p ∈ t.parts, ∃ s, partText inner p = .ok s
  | .unknown | .void => ⟨fun _ => nofun, fun _ => ⟨_, rfl⟩⟩
  | .int bits => by
    rw [text, exists_bind_pure_iff, parts, List.forall_mem_singleton, partText]
  | .ptr t space => by rw [exists_text_ptr, exists_text_iff t, parts]
  | .array e n => by
    rw [text, exists_both_iff, exists_text_iff e, parts, List.forall_mem_cons, partText]
  | .func r ps v => by
    rw [text, exists_both_iff, exists_texts_iff ps, exists_text_iff r, parts,
      List.forall_mem_append]
  | .struct b => by
    rw [text, parts, List.forall_mem_singleton, partText]

theorem exists_texts_iff : ∀ ts : List Ty,
    (∃ ss, texts inner ts = .ok ss) ↔ ∀ p ∈ allParts ts, ∃ s, partText inner p = .ok s
  | [] => ⟨fun _ => nofun, fun _ => ⟨_, rfl⟩⟩
  | t :: ts => by
    rw [texts, exists_both_iff, exists_text_iff t, exists_texts_iff ts, allParts,
      List.forall_mem_append]

end

end Ty

namespace Structs

variable {S : Structs} {st : StructId} {m : Option String} {e : Fault}

variable (S) in
/-- The struct can be named. -/
def Nameable (st : StructId) : Prop :=
  ∃ name, S.label st = .ok name

variable (S) in
/-- The text of the struct can be spelled out: it has a name, or all numbers in its fields can be
written, and all structs that they speak of can be spelled out before. -/
inductive Spelled : StructId → Prop where
  | named {a : StructId} (name : (S.get a).isLiteral = false) : Spelled a
  | literal {a : StructId}
      (numbers : ∀ n, .inl n ∈ Ty.allParts (S.get a).elements → ∃ s, numberText n = .ok s)
      (inner : ∀ b, .inr b ∈ Ty.allParts (S.get a).elements → Spelled b) : Spelled a

theorem exists_textWith_iff {inner : StructId → Except Fault String} :
    (∃ s, S.textWith inner st = .ok s) ↔ ((S.get st).isLiteral = true →
      ∀ p ∈ Ty.allParts (S.get st).elements, ∃ s, Ty.partText inner p = .ok s) := by
  unfold textWith
  dsimp only
  by_cases hl : (S.get st).isLiteral = true
  · rw [if_pos hl, exists_bind_pure_iff, Ty.exists_texts_iff]
    exact ⟨fun h _ => h, fun h => h hl⟩
  · rw [if_neg hl]
    exact ⟨fun _ h => absurd h hl, fun _ => ⟨_, rfl⟩⟩

theorem nameable_iff_structText : S.Nameable st ↔ ∃ s, S.structText st = .ok s := by
  unfold Nameable label
  by_cases hl : (S.get st).isLiteral = true
  · rw [if_pos hl]
  · rw [if_neg hl, structText_eq, exists_textWith_iff]
    exact ⟨fun _ h => absurd h hl, fun _ => ⟨_, rfl⟩⟩

theorem spelled_of_textTo {n : Nat} {s : String} (h : S.textTo n st = .ok s) : S.Spelled st := by
  induction n generalizing st s with
  | zero => cases h
  | succ n ih =>
    cases hl : (S.get st).isLiteral with
    | false => exact .named hl
    | true =>
      have hwith : ∃ s, S.textWith (S.textTo n) st = .ok s := ⟨s, h⟩
      have hparts := exists_textWith_iff.1 hwith hl
      refine .literal (fun k hk => ?_) fun b hb => ?_
      · have hk' := hparts (.inl k) hk
        rwa [Ty.partText] at hk'
      · obtain ⟨s', hs'⟩ := hparts (.inr b) hb
        exact ih hs'

/-- A struct can be named exactly if its text can be spelled out. -/
theorem nameable_iff_spelled : S.Nameable st ↔ S.Spelled st := by
  rw [nameable_iff_structText]
  constructor
  · rintro ⟨s, hs⟩
    exact spelled_of_textTo hs
  · intro h
    induction h with
    | named hl =>
      rw [structText_eq, exists_textWith_iff]
      exact fun h => absurd (hl.symm.trans h) Bool.false_ne_true
    | literal numbers inner ih =>
      rw [structText_eq, exists_textWith_iff]
      rintro - (n | b) hp
      · exact numbers n hp
      · exact ih b hp

theorem Nameable.of_named (h : (S.get st).isLiteral = false) : S.Nameable st :=
  nameable_iff_spelled.2 (.named h)

/-- Where all structs have names, all can be named. -/
theorem nameable_of_forall_named (h : ∀ i < S.size, (S.get ⟨i⟩).isLiteral = false)
    (st : StructId) : S.Nameable st := by
  by_cases hlt : st.idx < S.size
  · exact .of_named (h st.idx hlt)
  · have hsteps := textTo_absent (Nat.le_of_not_lt hlt) S.size
    exact nameable_iff_structText.2 ⟨_, hsteps⟩

/-- What a struct is called is not written exactly if its text is not. -/
theorem label_eq_error_iff : S.label st = .error e ↔ S.structText st = .error e := by
  unfold label
  cases hl : (S.get st).isLiteral with
  | true => rfl
  | false =>
    rw [structText_eq, textWith]
    simp [hl, pure, Except.pure]

theorem scopeName_eq (S : Structs) (st : StructId) (m : Option String) :
    scopeName S st m = (S.label st).map fun text =>
      if (S.get st).isLiteral then m.getD "?" ++ ":" ++ text else (S.get st).baseName := by
  unfold scopeName label
  dsimp only
  split
  · cases S.structText st <;> rfl
  · rfl

/-- The scope of a name does not matter to whether it can be written. -/
theorem scopeName_eq_error_iff : scopeName S st m = .error e ↔ S.label st = .error e := by
  rw [scopeName_eq]
  cases S.label st <;> simp [Except.map]

theorem nameable_iff_scopeName (m : Option String) :
    S.Nameable st ↔ ∃ name, scopeName S st m = .ok name := by
  rw [scopeName_eq, Nameable]
  cases S.label st <;> simp [Except.map]

end Structs

/-! ## Faults of writing -/

/-- The faults of writing: a text without end, and a number of too many digits. -/
def Fault.isWriting : Fault → Bool
  | .endless | .unwritable => true
  | _ => false

/-- If there is no result, then something could not be written. -/
def Writes {α : Type} (x : Except Fault α) : Prop :=
  ∀ e, x = .error e → e.isWriting = true

theorem Writes.ok {α : Type} (a : α) : Writes (.ok a) := by
  intro e he
  cases he

theorem Writes.bind {α β : Type} {x : Except Fault α} {f : α → Except Fault β} (hx : Writes x)
    (hf : ∀ a, Writes (f a)) : Writes (x >>= f) := by
  cases x with
  | ok a => exact hf a
  | error e =>
    intro e' he
    cases he
    exact hx e rfl

theorem Writes.mapM {α β : Type} {f : α → Except Fault β} (hf : ∀ a, Writes (f a)) (as : List α) :
    Writes (as.mapM f) := by
  induction as with
  | nil => exact .ok _
  | cons a as ih =>
    rw [List.mapM_cons]
    exact (hf a).bind fun _ => ih.bind fun _ => .ok _

theorem numberText_writes (n : Int) : Writes (numberText n) := by
  intro e he
  unfold numberText at he
  split at he
  · cases he
  · cases he
    rfl

namespace Ty

variable {inner : StructId → Except Fault String}

mutual

theorem text_writes (h : ∀ b, Writes (inner b)) : ∀ t : Ty, Writes (t.text inner)
  | .unknown | .void => .ok _
  | .int bits => (numberText_writes bits).bind fun _ => .ok _
  | .ptr .unknown _ => .ok _
  | .ptr .void _ => .ok _
  | .ptr (.int bits) _ => (text_writes h (.int bits)).bind fun _ => .ok _
  | .ptr (.ptr t s) _ => (text_writes h (.ptr t s)).bind fun _ => .ok _
  | .ptr (.array e n) _ => (text_writes h (.array e n)).bind fun _ => .ok _
  | .ptr (.func r ps v) _ => (text_writes h (.func r ps v)).bind fun _ => .ok _
  | .ptr (.struct b) _ => (h b).bind fun _ => .ok _
  | .array e n => (numberText_writes n).bind fun _ => (text_writes h e).bind fun _ => .ok _
  | .func r ps _ => (texts_writes h ps).bind fun _ => (text_writes h r).bind fun _ => .ok _
  | .struct b => h b

theorem texts_writes (h : ∀ b, Writes (inner b)) : ∀ ts : List Ty, Writes (texts inner ts)
  | [] => .ok _
  | t :: ts => (text_writes h t).bind fun _ => (texts_writes h ts).bind fun _ => .ok _

end

end Ty

namespace Structs

theorem textTo_writes (S : Structs) (n : Nat) (st : StructId) : Writes (S.textTo n st) := by
  induction n generalizing st with
  | zero =>
    intro e he
    cases he
    rfl
  | succ n ih =>
    change Writes (S.textWith (S.textTo n) st)
    unfold textWith
    dsimp only
    split
    · exact (Ty.texts_writes ih _).bind fun _ => .ok _
    · exact .ok _

theorem text_writes (S : Structs) (t : Ty) : Writes (S.text t) :=
  Ty.text_writes (S.textTo_writes _) t

theorem label_writes (S : Structs) (st : StructId) : Writes (S.label st) := by
  unfold label
  split
  · exact S.textTo_writes _ st
  · exact .ok _

end Structs

namespace Program

variable (P : Program)

theorem refTo_writes (n : Nat) (v : ValueId) : Writes (P.refTo n v) := by
  induction n generalizing v with
  | zero =>
    intro e he
    cases he
    rfl
  | succ n ih =>
    unfold refTo
    dsimp only
    cases (P.value v).kind with
    | int k => exact numberText_writes k
    | expr opcode operands noOver => exact (Writes.mapM ih operands).bind fun _ => .ok _
    | _ => exact .ok _

theorem ref_writes (v : ValueId) : Writes (P.ref v) :=
  P.refTo_writes _ v

theorem refs_writes (vs : List ValueId) : Writes (P.refs vs) :=
  (Writes.mapM P.ref_writes vs).bind fun _ => .ok _

theorem body_writes (type : Ty) (i : Instr) : Writes (P.body type i) := by
  cases i with
  | call callee args =>
    exact (P.refs_writes args).bind fun _ => (P.structs.text_writes type).bind fun _ =>
      (P.ref_writes callee).bind fun _ => .ok _
  | load source =>
    exact (P.structs.text_writes type).bind fun _ => (P.ref_writes source).bind fun _ => .ok _
  | icmp p lhs rhs =>
    exact (P.ref_writes lhs).bind fun _ => (P.ref_writes rhs).bind fun _ => .ok _
  | bitcast v =>
    exact (P.ref_writes v).bind fun _ => (P.structs.text_writes type).bind fun _ => .ok _
  | alloca t => exact (P.structs.text_writes t).bind fun _ => .ok _
  | store | gep | other => exact (P.refs_writes _).bind fun _ => .ok _

theorem text_writes (v : ValueId) : Writes (P.text v) := by
  unfold text
  dsimp only
  cases (P.value v).kind with
  | int k => exact (P.structs.text_writes _).bind fun _ => (numberText_writes k).bind fun _ => .ok _
  | null | data | function | arg => exact (P.structs.text_writes _).bind fun _ => .ok _
  | global g =>
    dsimp only
    cases g.init with
    | some i =>
      exact (P.ref_writes i).bind fun _ => (P.structs.text_writes g.type).bind fun _ => .ok _
    | none => exact (P.structs.text_writes g.type).bind fun _ => .ok _
  | instr i loc block =>
    refine (P.body_writes _ i).bind fun _ => ?_
    split <;> exact .ok _
  | plain | expr | block => exact P.ref_writes v

end Program

end KernelObjects
