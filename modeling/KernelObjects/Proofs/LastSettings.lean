import KernelObjects.Proofs.ReadTargets
import Mathlib.Logic.Basic

/-!
# The last word on every setting

A specification is read from left to right, and a token may take back what an earlier one said. What
remains of it is the last token for each part of a target. All other tokens could as well not be
there, if they are no recognised tokens with numbers that cannot be read: one of those is enough for
the whole specification to be refused.

Recognition is stated on the parts of a token between its colons (`Says`), apart from the numbers in
them.

Results:
* `readToken_eq_sets_iff`, `readToken_eq_malformed_iff`: what is made of a token, by what it says.
* `exists_lastSet`: a part of a target is as the last token for it says.
* `apply_comm`: settings of different slots may be made in either order.
* `Agrees.intAlign_eq`: integers are aligned by what their table binds, in whatever order.
* `parse_last_wins`: which specifications are refused, what the others describe, and which changes
  to a specification do not matter.
-/
namespace KernelObjects

/-! ## Targets that agree -/

namespace Target

/-- Two targets that differ in nothing but the text that they were read from. Their tables bind the
same, whichever width was bound first. -/
structure Agrees (t t' : Target) : Prop where
  pointerSize : t.pointerSize = t'.pointerSize
  pointerAlign : t.pointerAlign = t'.pointerAlign
  littleEndian : t.littleEndian = t'.littleEndian
  intAligns : ∀ bits, t.intAligns.get? bits = t'.intAligns.get? bits
  aggregateAlign : t.aggregateAlign = t'.aggregateAlign

theorem Agrees.trans {t t' t'' : Target} (h : t.Agrees t') (h' : t'.Agrees t'') : t.Agrees t'' where
  pointerSize := h.pointerSize.trans h'.pointerSize
  pointerAlign := h.pointerAlign.trans h'.pointerAlign
  littleEndian := h.littleEndian.trans h'.littleEndian
  intAligns bits := (h.intAligns bits).trans (h'.intAligns bits)
  aggregateAlign := h.aggregateAlign.trans h'.aggregateAlign

theorem min?_congr {xs ys : List Int} (h : ∀ a, a ∈ xs ↔ a ∈ ys) : xs.min? = ys.min? := by
  cases hy : ys.min? with
  | none =>
    rw [List.min?_eq_none_iff] at hy ⊢
    exact List.eq_nil_iff_forall_not_mem.2 fun a ha => by simpa [hy] using (h a).1 ha
  | some b =>
    rw [List.min?_eq_some_iff] at hy ⊢
    exact ⟨(h b).2 hy.1, fun a ha => hy.2 a ((h a).1 ha)⟩

theorem max?_congr {xs ys : List Int} (h : ∀ a, a ∈ xs ↔ a ∈ ys) : xs.max? = ys.max? := by
  cases hy : ys.max? with
  | none =>
    rw [List.max?_eq_none_iff] at hy ⊢
    exact List.eq_nil_iff_forall_not_mem.2 fun a ha => by simpa [hy] using (h a).1 ha
  | some b =>
    rw [List.max?_eq_some_iff] at hy ⊢
    exact ⟨(h b).2 hy.1, fun a ha => hy.2 a ((h a).1 ha)⟩

/-- The order in which widths were bound is of no consequence. -/
theorem Agrees.intAlign_eq {t t' : Target} (h : t.Agrees t') (bits : Int) :
    t.intAlign bits = t'.intAlign bits := by
  have hkeys : ∀ w, w ∈ t.intAligns.keys ↔ w ∈ t'.intAligns.keys := fun w => by
    rw [← Table.contains_iff, ← Table.contains_iff, Table.contains, Table.contains, h.intAligns]
  have hget : t.intAligns.get? = t'.intAligns.get? := funext h.intAligns
  have hwider : ∀ w, w ∈ t.intAligns.keys.filter (fun w => bits ≤ w) ↔
      w ∈ t'.intAligns.keys.filter fun w => bits ≤ w := fun w => by
    rw [List.mem_filter, List.mem_filter, hkeys]
  rw [intAlign, intAlign, governingWidth, governingWidth, hget, min?_congr hwider,
    max?_congr hkeys]

end Target

namespace Target.Spec

open KernelObjects.Text

/-! ## What a token says -/

/-- What a recognised token says, its numbers as they are written. -/
inductive Entry where
  | endian (little : Bool)
  | pointer (size align : List Char)
  | integer (width align : List Char)
  | aggregate (align : List Char)

/-- The tokens that are recognised, by their parts between colons. A single empty part after the
colon of an integer counts as none. -/
inductive Says : List Char → Entry → Prop
  | little : Says ['e'] (.endian true)
  | big : Says ['E'] (.endian false)
  | pointer {token space size align : List Char} {more : List (List Char)}
      (hspace : space = [] ∨ space = ['0'])
      (hparts : splitOn ':' token = ('p' :: space) :: size :: align :: more) :
      Says token (.pointer size align)
  | integer {token width align : List Char} {more : List (List Char)}
      (hwidth : width ≠ [] ∧ ∀ c ∈ width, DecimalDigit.isForm c = true)
      (hparts : splitOn ':' token = ('i' :: width) :: align :: more)
      (hfield : align :: more ≠ [[]]) :
      Says token (.integer width align)
  | aggregate {token align : List Char} {more : List (List Char)}
      (hne : align ≠ []) (hparts : splitOn ':' token = ['a'] :: align :: more) :
      Says token (.aggregate align)

namespace Entry

/-- The numbers of an entry. -/
def numerals : Entry → List (List Char)
  | .endian _ => []
  | .pointer size align => [size, align]
  | .integer width align => [width, align]
  | .aggregate align => [align]

/-- The setting that an entry makes if its numbers can be read: bits become whole bytes, rounded
down, and integers and aggregates are aligned to a byte or more. -/
def setting? : Entry → Option Setting
  | .endian little => some (.endian little)
  | .pointer size align => do
    return .pointer ((← Numeral.read? size).fdiv 8) ((← Numeral.read? align).fdiv 8)
  | .integer width align => do
    return .integer (← Numeral.read? width) (max 1 ((← Numeral.read? align).fdiv 8))
  | .aggregate align => do
    return .aggregate (max 1 ((← Numeral.read? align).fdiv 8))

theorem setting?_eq_none_iff (e : Entry) :
    e.setting? = none ↔ ∃ n ∈ e.numerals, Numeral.read? n = none := by
  cases e with
  | endian little => simp [setting?, numerals]
  | aggregate align => cases h : Numeral.read? align <;> simp [setting?, numerals, h]
  | pointer first second | integer first second =>
    cases h : Numeral.read? first <;> cases h' : Numeral.read? second <;>
      simp [setting?, numerals, h, h']

end Entry

/-- The token makes the setting. -/
def Sets (token : List Char) (s : Setting) : Prop :=
  ∃ e, Says token e ∧ e.setting? = some s

/-- The token is recognised, but has a number that cannot be read. -/
def Malformed (token : List Char) : Prop :=
  ∃ e, Says token e ∧ ∃ n ∈ e.numerals, Numeral.read? n = none

/-! ## Reading one token -/

theorem Says.ne_endian {token : List Char} {e : Entry} (h : Says token e) :
    token = ['e'] ∧ e = .endian true ∨ token = ['E'] ∧ e = .endian false ∨
      token ≠ ['e'] ∧ token ≠ ['E'] := by
  cases h with
  | little => exact .inl ⟨rfl, rfl⟩
  | big => exact .inr (.inl ⟨rfl, rfl⟩)
  | pointer _ hparts | integer _ hparts _ | aggregate _ hparts =>
    refine .inr (.inr ⟨?_, ?_⟩) <;> rintro rfl <;> cases hparts

/-- The head and the fields of a token are its parts, but for an empty part after a last colon. -/
theorem fields_cut (token : List Char) :
    ∃ parts, splitOn ':' token = (cut ':' token).1 :: parts ∧
      fields (cut ':' token).2 = if parts = [[]] then [] else parts := by
  rcases splitOn_eq_cut ':' token with ⟨h, hrest⟩ | h
  · exact ⟨[], h, by rw [hrest]; rfl⟩
  · refine ⟨_, h, ?_⟩
    cases hrest : (cut ':' token).2 with
    | nil => rfl
    | cons c cs =>
      -- a single empty part would be all of the rest
      have hjoin := join_splitOn ':' (c :: cs)
      rw [if_neg (fun hnil => by rw [hnil] at hjoin; cases hjoin)]
      rfl

theorem isForm_iff {width : List Char} :
    (!width.isEmpty && width.all DecimalDigit.isForm) = true ↔
      width ≠ [] ∧ ∀ c ∈ width, DecimalDigit.isForm c = true := by
  rw [Bool.and_eq_true, Bool.not_eq_true', List.isEmpty_eq_false_iff, List.all_eq_true]

theorem readToken_of_entry {token : List Char} {e : Entry} (h : Says token e) :
    readToken token = reading e.setting? := by
  rcases h.ne_endian with ⟨rfl, rfl⟩ | ⟨rfl, rfl⟩ | ⟨hlittle, hbig⟩
  · rfl
  · rfl
  · obtain ⟨parts, hsplit, hfields⟩ := fields_cut token
    rw [readToken, if_neg hlittle, if_neg hbig, hfields]
    cases h with
    | little => exact absurd rfl hlittle
    | big => exact absurd rfl hbig
    | pointer hspace hparts =>
      obtain ⟨hhead, rfl⟩ := List.cons.inj (hparts.symm.trans hsplit)
      rw [← hhead, if_neg (by simp), readFields, if_pos hspace]
      rfl
    | integer hwidth hparts hfield =>
      obtain ⟨hhead, rfl⟩ := List.cons.inj (hparts.symm.trans hsplit)
      rw [← hhead, if_neg hfield, readFields, if_pos (isForm_iff.2 hwidth)]
      rfl
    | aggregate hne hparts =>
      obtain ⟨hhead, rfl⟩ := List.cons.inj (hparts.symm.trans hsplit)
      rw [← hhead, if_neg (by simp [hne]), readFields, if_neg (by simp [hne])]
      rfl

/-- What is not recognised is passed over. -/
theorem readToken_of_unrecognised {token : List Char} (h : ∀ e, ¬ Says token e) :
    readToken token = .silent ∨ readToken token = .ignored := by
  obtain ⟨parts, hsplit, hfields⟩ := fields_cut token
  have hlittle : token ≠ ['e'] := fun he => h _ (he ▸ Says.little)
  have hbig : token ≠ ['E'] := fun he => h _ (he ▸ Says.big)
  rw [readToken, if_neg hlittle, if_neg hbig, hfields]
  by_cases hnil : parts = [[]]
  · rw [if_pos hnil]
    exact .inr (by simp [readFields])
  · rw [if_neg hnil]
    generalize (cut ':' token).1 = head at hsplit
    unfold readFields
    split
    · split
      · next hspace => exact absurd (.pointer hspace hsplit) (h _)
      · exact .inl rfl
    · split
      · next hform => exact absurd (.integer (isForm_iff.1 hform) hsplit hnil) (h _)
      · exact .inr rfl
    · split
      · exact .inr rfl
      · next hne =>
        exact absurd (.aggregate (by simpa using hne) hsplit) (h _)
    · exact .inr rfl

theorem readToken_eq_sets_iff {token : List Char} {s : Setting} :
    readToken token = .sets s ↔ Sets token s := by
  constructor
  · intro h
    by_cases hentry : ∃ e, Says token e
    · obtain ⟨e, he⟩ := hentry
      rw [readToken_of_entry he] at h
      exact ⟨e, he, reading_eq_sets h⟩
    · rcases readToken_of_unrecognised (not_exists.1 hentry) with h' | h' <;> cases h'.symm.trans h
  · rintro ⟨e, he, hs⟩
    rw [readToken_of_entry he, hs]
    rfl

theorem readToken_eq_malformed_iff {token : List Char} :
    readToken token = .malformed ↔ Malformed token := by
  constructor
  · intro h
    by_cases hentry : ∃ e, Says token e
    · obtain ⟨e, he⟩ := hentry
      refine ⟨e, he, e.setting?_eq_none_iff.1 ?_⟩
      rw [readToken_of_entry he] at h
      cases hs : e.setting? with
      | none => rfl
      | some s => rw [hs] at h; cases h
    · rcases readToken_of_unrecognised (not_exists.1 hentry) with h' | h' <;> cases h'.symm.trans h
  · rintro ⟨e, he, hn⟩
    rw [readToken_of_entry he, e.setting?_eq_none_iff.2 hn]
    rfl

theorem Sets.unique {token : List Char} {s s' : Setting} (h : Sets token s) (h' : Sets token s') :
    s = s' := by
  cases (readToken_eq_sets_iff.2 h).symm.trans (readToken_eq_sets_iff.2 h')
  rfl

/-! ## The last setting of a kind -/

/-- What the last token sets that makes a setting of a kind, if there is one. -/
def LastSet {α : Type} (tokens : List (List Char)) (kind : α → Setting) : Option α → Prop
  | some a => ∃ before token after, tokens = before ++ token :: after ∧ Sets token (kind a) ∧
      ∀ x ∈ after, ∀ b, ¬ Sets x (kind b)
  | none => ∀ x ∈ tokens, ∀ b, ¬ Sets x (kind b)

section

variable {α β : Type} {kind : α → Setting} {token : List Char} {ts : List (List Char)}
  {o : Option α}

theorem LastSet.cons_of_not_sets (hno : ∀ b, ¬ Sets token (kind b)) (h : LastSet ts kind o) :
    LastSet (token :: ts) kind o := by
  cases o with
  | none => exact List.forall_mem_cons.2 ⟨hno, h⟩
  | some a =>
    obtain ⟨before, x, after, rfl, hx⟩ := h
    exact ⟨token :: before, x, after, rfl, hx⟩

theorem LastSet.cons_of_sets {a : α} (hsets : Sets token (kind a)) (h : LastSet ts kind o) :
    LastSet (token :: ts) kind (o.or (some a)) := by
  cases o with
  | none => exact ⟨[], token, ts, rfl, hsets, h⟩
  | some b =>
    obtain ⟨before, x, after, rfl, hx⟩ := h
    exact ⟨token :: before, x, after, rfl, hx⟩

/-- A part of a target that settings of one kind replace, and that all others leave alone, is in the
end what the last of them says. -/
theorem exists_lastSet (view : Target → β) (keep : α → β) {t t' : Target}
    (hkind : ∀ t a, view (apply t (kind a)) = keep a)
    (hother : ∀ t s, (∀ a, s ≠ kind a) → view (apply t s) = view t)
    (h : (readTokens t ts).result = .ok t') :
    ∃ o, LastSet ts kind o ∧ view t' = (o.map keep).getD (view t) := by
  fun_induction readTokens t ts with
  | case1 t =>
    cases h
    exact ⟨none, fun _ hx => absurd hx List.not_mem_nil, rfl⟩
  | case2 t token rest s hs ih =>
    obtain ⟨o, hlast, hview⟩ := ih h
    by_cases hmem : ∃ a, s = kind a
    · obtain ⟨a, rfl⟩ := hmem
      refine ⟨_, hlast.cons_of_sets (readToken_eq_sets_iff.1 hs), ?_⟩
      rw [hview, hkind]
      cases o <;> rfl
    · -- the token makes a setting of another kind, and no second one
      refine ⟨o, hlast.cons_of_not_sets fun b hb => hmem ⟨b, ?_⟩, ?_⟩
      · exact (readToken_eq_sets_iff.1 hs).unique hb
      · rw [hview, hother t s (not_exists.1 hmem)]
  | case3 => cases h
  | case4 t token rest hs ih | case5 t token rest hs _ ih =>
    obtain ⟨o, hlast, hview⟩ := ih h
    refine ⟨o, hlast.cons_of_not_sets fun b hb => ?_, hview⟩
    cases hs.symm.trans (readToken_eq_sets_iff.2 hb)

end

/-- The target that tokens describe: each part of it is as the last token for it says, and else as
it is by default. -/
structure Describes (tokens : List (List Char)) (t : Target) : Prop where
  endian : ∃ o, LastSet tokens .endian o ∧ t.littleEndian = o.getD true
  pointer : ∃ o : Option (Int × Int), LastSet tokens (fun p => .pointer p.1 p.2) o ∧
    (t.pointerSize, t.pointerAlign) = o.getD (8, 8)
  integer : ∀ bits, ∃ o, LastSet tokens (.integer bits) o ∧
    t.intAligns.get? bits = o.or (defaultIntAligns.get? bits)
  aggregate : ∃ o, LastSet tokens .aggregate o ∧ t.aggregateAlign = o.getD 1

theorem describes_of_ok {spec : String} {ts : List (List Char)} {t : Target}
    (h : (readTokens { spec } ts).result = .ok t) : Describes ts t where
  endian := by
    have hother : ∀ t s, (∀ a, s ≠ .endian a) → (apply t s).littleEndian = t.littleEndian := by
      intro t s hs
      cases s with
      | endian little => exact absurd rfl (hs little)
      | _ => rfl
    obtain ⟨o, hlast, hview⟩ := exists_lastSet Target.littleEndian id (fun _ _ => rfl) hother h
    exact ⟨o, hlast, by rw [hview, Option.map_id]; rfl⟩
  pointer := by
    have hother : ∀ t s, (∀ p : Int × Int, s ≠ .pointer p.1 p.2) →
        ((apply t s).pointerSize, (apply t s).pointerAlign) = (t.pointerSize, t.pointerAlign) := by
      intro t s hs
      cases s with
      | pointer size align => exact absurd rfl (hs (size, align))
      | _ => rfl
    obtain ⟨o, hlast, hview⟩ := exists_lastSet (fun t => (t.pointerSize, t.pointerAlign)) id
      (fun _ _ => rfl) hother h
    exact ⟨o, hlast, by rw [hview, Option.map_id]; rfl⟩
  integer bits := by
    have hother : ∀ t s, (∀ a, s ≠ .integer bits a) →
        (apply t s).intAligns.get? bits = t.intAligns.get? bits := by
      intro t s hs
      cases s with
      | integer bits' align =>
        have hne : bits ≠ bits' := fun he => hs align (he ▸ rfl)
        rw [apply, Table.get?_insert, if_neg hne]
      | _ => rfl
    obtain ⟨o, hlast, hview⟩ := exists_lastSet (fun t => t.intAligns.get? bits) some
      (fun t a => by rw [apply, Table.get?_insert, if_pos rfl]) hother h
    exact ⟨o, hlast, by rw [hview]; cases o <;> rfl⟩
  aggregate := by
    have hother : ∀ t s, (∀ a, s ≠ .aggregate a) →
        (apply t s).aggregateAlign = t.aggregateAlign := by
      intro t s hs
      cases s with
      | aggregate align => exact absurd rfl (hs align)
      | _ => rfl
    obtain ⟨o, hlast, hview⟩ := exists_lastSet Target.aggregateAlign id (fun _ _ => rfl) hother h
    exact ⟨o, hlast, by rw [hview, Option.map_id]; rfl⟩

theorem result_eq_error_iff {t : Target} {ts : List (List Char)} {f : Fault} :
    (readTokens t ts).result = .error f ↔ f = .unreadable ∧ ∃ token ∈ ts, Malformed token := by
  fun_induction readTokens t ts with
  | case1 t => simp
  | case3 t token rest hs =>
    have hm := readToken_eq_malformed_iff.1 hs
    simp [hm, eq_comm]
  | case2 t token rest _ hs ih | case4 t token rest hs ih | case5 t token rest hs _ ih =>
    have hno : ¬ Malformed token := by
      intro hm
      cases hs.symm.trans (readToken_eq_malformed_iff.2 hm)
    rw [ih, List.exists_mem_cons_iff, or_iff_right hno]

theorem spec_of_ok {t t' : Target} {ts : List (List Char)} (h : (readTokens t ts).result = .ok t') :
    t'.spec = t.spec := by
  fun_induction readTokens t ts with
  | case1 t => cases h; rfl
  | case2 t token rest s hs ih => exact (ih h).trans (by cases s <;> rfl)
  | case3 => cases h
  | case4 t token rest hs ih | case5 t token rest hs _ ih => exact ih h

/-! ## Specifications with one outcome -/

/-- The same fault, or targets that agree. -/
inductive SameOutcome : Except Fault Target → Except Fault Target → Prop
  | ok {t t' : Target} (h : t.Agrees t') : SameOutcome (.ok t) (.ok t')
  | error (f : Fault) : SameOutcome (.error f) (.error f)

/-- What a setting is about. -/
inductive Slot where
  | endian
  | pointer
  | integer (bits : Int)
  | aggregate
  deriving DecidableEq

def Setting.slot : Setting → Slot
  | .endian _ => .endian
  | .pointer .. => .pointer
  | .integer bits _ => .integer bits
  | .aggregate _ => .aggregate

theorem apply_agrees {t t' : Target} (h : t.Agrees t') (s : Setting) :
    (apply t s).Agrees (apply t' s) := by
  cases s with
  | endian little => exact { h with littleEndian := rfl }
  | pointer size align => exact { h with pointerSize := rfl, pointerAlign := rfl }
  | integer bits align =>
    refine { h with intAligns := fun b => ?_ }
    rw [Spec.apply, Spec.apply, Table.get?_insert, Table.get?_insert, h.intAligns]
  | aggregate align => exact { h with aggregateAlign := rfl }

/-- Settings of different slots may be made in either order. -/
theorem apply_comm (t : Target) {s s' : Setting} (hne : s.slot ≠ s'.slot) :
    (apply (apply t s) s').Agrees (apply (apply t s') s) := by
  cases s with
  | integer bits align =>
    cases s' with
    | integer bits' align' =>
      have hbits : bits ≠ bits' := fun he => hne (congrArg Slot.integer he)
      refine ⟨rfl, rfl, rfl, fun b => ?_, rfl⟩
      simp only [apply, Table.get?_insert]
      by_cases hb : b = bits
      · rw [if_neg (hb ▸ hbits), if_pos hb, if_pos hb]
      · rw [if_neg hb, if_neg hb]
    | _ => exact ⟨rfl, rfl, rfl, fun _ => rfl, rfl⟩
  | _ =>
    -- any other two settings replace different parts, so both orders give one target
    cases s' <;> first | exact absurd rfl hne | exact ⟨rfl, rfl, rfl, fun _ => rfl, rfl⟩

theorem readTokens_cons (t : Target) (token : List Char) (ts : List (List Char)) :
    (readTokens t (token :: ts)).result =
      match readToken token with
      | .sets s => (readTokens (apply t s) ts).result
      | .malformed => .error .unreadable
      | .silent | .ignored => (readTokens t ts).result := by
  rw [readTokens]
  cases readToken token <;> rfl

/-- What is read first is read alike, and leaves targets that agree for what comes after it. -/
theorem SameOutcome.prepend {xs ys : List (List Char)} (before : List (List Char))
    (h : ∀ t t' : Target, t.Agrees t' →
      SameOutcome (readTokens t xs).result (readTokens t' ys).result)
    {t t' : Target} (ht : t.Agrees t') :
    SameOutcome (readTokens t (before ++ xs)).result (readTokens t' (before ++ ys)).result := by
  induction before generalizing t t' with
  | nil => exact h t t' ht
  | cons token before ih =>
    rw [List.cons_append, List.cons_append, readTokens_cons, readTokens_cons]
    cases readToken token with
    | sets s => exact ih (apply_agrees ht s)
    | malformed => exact .error _
    | silent => exact ih ht
    | ignored => exact ih ht

theorem readTokens_agrees {t t' : Target} (ht : t.Agrees t') (ts : List (List Char)) :
    SameOutcome (readTokens t ts).result (readTokens t' ts).result := by
  have h := @SameOutcome.prepend [] [] ts (fun _ _ h => .ok h) _ _ ht
  rwa [List.append_nil] at h

theorem readTokens_delete {u : List Char} (hu : ∀ e, ¬ Says u e) (after : List (List Char))
    {t t' : Target} (ht : t.Agrees t') :
    SameOutcome (readTokens t (u :: after)).result (readTokens t' after).result := by
  rw [readTokens_cons]
  rcases readToken_of_unrecognised hu with h | h <;> rw [h] <;> exact readTokens_agrees ht after

theorem readTokens_swap {u v : List Char} (huv : ∀ s s', Sets u s → Sets v s' → s.slot ≠ s'.slot)
    (after : List (List Char)) {t t' : Target} (ht : t.Agrees t') :
    SameOutcome (readTokens t (u :: v :: after)).result
      (readTokens t' (v :: u :: after)).result := by
  simp only [readTokens_cons]
  cases hu : readToken u with
  | sets s =>
    cases hv : readToken v with
    | sets s' =>
      have hslot := huv s s' (readToken_eq_sets_iff.1 hu) (readToken_eq_sets_iff.1 hv)
      exact readTokens_agrees
        ((apply_comm t hslot).trans (apply_agrees (apply_agrees ht s') s)) after
    | malformed => exact .error _
    | silent | ignored => exact readTokens_agrees (apply_agrees ht s) after
  | malformed => cases readToken v <;> exact .error _
  | silent | ignored =>
    cases readToken v with
    | sets s' => exact readTokens_agrees (apply_agrees ht s') after
    | malformed => exact .error _
    | silent | ignored => exact readTokens_agrees ht after

/-! ## Whole specifications -/

/-- The specification with these pieces between its hyphens. -/
def ofPieces (pieces : List (List Char)) : String :=
  String.ofList (join '-' pieces)

theorem not_says_nil (e : Entry) : ¬ Says [] e := by
  intro h
  cases h with
  | pointer _ hparts | integer _ hparts _ | aggregate _ hparts => cases hparts

/-- An empty piece is no token, and would be passed over as one. -/
theorem readTokens_filter (t : Target) (pieces : List (List Char)) :
    (readTokens t (pieces.filter fun p => !p.isEmpty)).result = (readTokens t pieces).result := by
  induction pieces generalizing t with
  | nil => rfl
  | cons p ps ih =>
    cases p with
    | nil => exact ih t
    | cons c cs =>
      rw [List.filter_cons_of_pos rfl, readTokens_cons, readTokens_cons]
      cases readToken (c :: cs) with
      | sets s => exact ih (apply t s)
      | malformed => rfl
      | silent | ignored => exact ih t

theorem tokens_join {pieces : List (List Char)} (h : ∀ p ∈ pieces, '-' ∉ p) :
    tokens (join '-' pieces) = pieces.filter fun p => !p.isEmpty := by
  cases pieces with
  | nil => rfl
  | cons p ps => rw [tokens, splitOn_join h (List.cons_ne_nil p ps)]

theorem parse_ofPieces {pieces : List (List Char)} (h : ∀ p ∈ pieces, '-' ∉ p) :
    (parse (ofPieces pieces)).result = (readTokens { spec := ofPieces pieces } pieces).result := by
  rw [parse, ofPieces, String.toList_ofList, tokens_join h, readTokens_filter]

/-- The laws of reading a specification, the text that the target keeps apart. -/
structure LastWord : Prop where
  /-- A specification is refused exactly if a recognised token has a number that cannot be read. -/
  refused_iff : ∀ spec f, (parse spec).result = .error f ↔
    f = .unreadable ∧ ∃ token ∈ tokens spec.toList, Malformed token
  text : ∀ spec t, (parse spec).result = .ok t → t.spec = spec
  /-- The last token for each part of the target is the one that counts. -/
  describes : ∀ spec t, (parse spec).result = .ok t → Describes (tokens spec.toList) t
  /-- A piece that is empty or no recognised token may be put in or left out. -/
  skip : ∀ before u after, (∀ p ∈ before ++ u :: after, '-' ∉ p) → (u = [] ∨ ∀ e, ¬ Says u e) →
    SameOutcome (parse (ofPieces (before ++ u :: after))).result
      (parse (ofPieces (before ++ after))).result
  /-- Two pieces may change places that do not set the same part. -/
  swap : ∀ before u v after, (∀ p ∈ before ++ u :: v :: after, '-' ∉ p) →
    (∀ s s', Sets u s → Sets v s' → s.slot ≠ s'.slot) →
    SameOutcome (parse (ofPieces (before ++ u :: v :: after))).result
      (parse (ofPieces (before ++ v :: u :: after))).result

theorem parse_last_wins : LastWord where
  refused_iff _ _ := result_eq_error_iff
  text _ _ := spec_of_ok
  describes _ _ := describes_of_ok
  skip before u after hpieces hu := by
    have hrest : ∀ p ∈ before ++ after, '-' ∉ p := fun p hp => hpieces p (by grind)
    have hnone : ∀ e, ¬ Says u e := by
      rcases hu with rfl | hu
      · exact not_says_nil
      · exact hu
    rw [parse_ofPieces hpieces, parse_ofPieces hrest]
    exact SameOutcome.prepend before (fun _ _ => readTokens_delete hnone after)
      ⟨rfl, rfl, rfl, fun _ => rfl, rfl⟩
  swap before u v after hpieces huv := by
    have hswapped : ∀ p ∈ before ++ v :: u :: after, '-' ∉ p := fun p hp => hpieces p (by grind)
    rw [parse_ofPieces hpieces, parse_ofPieces hswapped]
    exact SameOutcome.prepend before (fun _ _ => readTokens_swap huv after)
      ⟨rfl, rfl, rfl, fun _ => rfl, rfl⟩

/-- A width that is given twice, a number that is none, the pointers of another address space, and
two widths in either order. -/
theorem parse_last_wins_widths :
    (∃ t, (parse "e-i64:64-E-i064:32").result = .ok t ∧
      (t.littleEndian, t.intAligns.get? 64) = (false, some 4) ∧
      Describes (tokens "e-i64:64-E-i064:32".toList) t) ∧
    (parse "e-i64:x").result = .error .unreadable ∧
    SameOutcome (parse (ofPieces ["e".toList, "p270:32:32".toList, [], "a:64".toList])).result
      (parse (ofPieces ["e".toList, [], "a:64".toList])).result ∧
    SameOutcome (parse (ofPieces ["i24:8".toList, "i40:8".toList])).result
      (parse (ofPieces ["i40:8".toList, "i24:8".toList])).result := by
  have hread : (parse "e-i64:64-E-i064:32").result = .ok _ := rfl
  refine ⟨⟨_, hread, rfl, parse_last_wins.describes _ _ hread⟩, ?_, ?_, ?_⟩
  · have hentry : Says "i64:x".toList (.integer "64".toList "x".toList) :=
      .integer (isForm_iff.1 (by decide)) rfl (by decide)
    exact (parse_last_wins.refused_iff _ .unreadable).2
      ⟨rfl, "i64:x".toList, by decide, _, hentry, "x".toList, by decide, by decide⟩
  · refine parse_last_wins.skip ["e".toList] "p270:32:32".toList [[], "a:64".toList]
      (by decide) (.inr fun e he => ?_)
    cases he with
    | pointer hspace hparts => cases hparts; simp at hspace
    | integer _ hparts _ | aggregate _ hparts => cases hparts
  · refine parse_last_wins.swap [] "i24:8".toList "i40:8".toList [] (by decide)
      fun s s' hs hs' => ?_
    have hfirst : Reading.sets (.integer 24 1) = .sets s := readToken_eq_sets_iff.2 hs
    have hsecond : Reading.sets (.integer 40 1) = .sets s' := readToken_eq_sets_iff.2 hs'
    cases hfirst
    cases hsecond
    decide

end Target.Spec

end KernelObjects
