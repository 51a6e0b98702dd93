import KernelObjects.Proofs.History

/-!
# What a request gets

Which descriptors there are after a request, as a function of the structs, the target and what had
descriptors at some time before. A request works on the structs that it embeds in order, and stops
at the first one that cannot be built, because it has no layout or cannot be named; that one has
come as far as it could.

Results:
* `handleOf_gets`, `run_gets`: a request adds what it gets to what there is, failed or not.
* `handleOf_builds`: a request is met exactly if the struct can be built.
-/
namespace KernelObjects

namespace Structs

section

variable (S : Structs) (t : Target) (K : StructId → Prop)

/-- The struct has a layout on the target. -/
def Lays (x : StructId) : Prop :=
  ∃ l, S.layoutOn t x = .ok l

/-- The struct can be built where the structs of `K` have been built before: it has a layout, and
what it holds can be named or has been built. -/
structure Builds (x : StructId) : Prop where
  lays : S.Lays t x
  named : ∀ y, S.Reaches x y → K y ∨ S.Nameable y

/-- What is got from a list of structs in order until one cannot be built, given what is got from
each of them. -/
def gotBy (gets : StructId → StructId → Prop) : List StructId → StructId → Prop
  | [], _ => False
  | c :: cs, y => gets c y ∨ (S.Builds t K c ∧ gotBy gets cs y)

/-- What is got from a struct, to a depth. -/
def getsTo : Nat → StructId → StructId → Prop
  | 0, _, _ => False
  | n + 1, x, y => (S.Builds t K x ∧ y = x) ∨ S.gotBy t K (getsTo n) (S.embedded x) y

/-- What is got from a struct. -/
def Gets (x y : StructId) : Prop :=
  ∃ n, S.getsTo t K n x y

end

variable {S : Structs} {t : Target} {K : StructId → Prop} {x y c : StructId}
  {gets gets' : StructId → StructId → Prop}

theorem Lays.wellFormed (h : S.Lays t x) : S.WellFormed x := by
  obtain ⟨l, hl⟩ := h
  exact wellFormed_of_layoutOn hl

theorem Lays.embeds (h : S.Lays t x) (hc : S.Embeds x c) : S.Lays t c := by
  obtain ⟨l, hl⟩ := h
  obtain ⟨e, he, hb⟩ := hc
  obtain ⟨v, hv⟩ := sizeOn_of_layoutOn hl he
  rcases allocSizeWith_eq_ok hv with ⟨b, l', hb', hl'⟩ | ⟨hn, -⟩
  · rw [hb] at hb'
    cases hb'
    exact ⟨l', hl'⟩
  · rw [hb] at hn
    cases hn

theorem Lays.reaches (h : S.Lays t x) (hc : S.Reaches x c) : S.Lays t c := by
  induction hc with
  | refl => exact h
  | tail _ hbc ih => exact ih.embeds hbc

theorem Builds.reaches (h : S.Builds t K x) (hc : S.Reaches x c) : S.Builds t K c where
  lays := h.lays.reaches hc
  named y hy := h.named y (hc.trans hy)

theorem Builds.embeds (h : S.Builds t K x) (hc : S.Embeds x c) : S.Builds t K c :=
  h.reaches (.single hc)

theorem gotBy_mono {cs : List StructId} (h : ∀ c y, gets c y → gets' c y)
    (hy : S.gotBy t K gets cs y) : S.gotBy t K gets' cs y := by
  induction cs with
  | nil => exact hy
  | cons c cs ih => exact hy.imp (h c y) (And.imp_right ih)

theorem gotBy_append {cs ds : List StructId} :
    S.gotBy t K gets (cs ++ ds) y ↔
      S.gotBy t K gets cs y ∨ ((∀ c ∈ cs, S.Builds t K c) ∧ S.gotBy t K gets ds y) := by
  induction cs with
  | nil => simp [gotBy]
  | cons c cs ih =>
    rw [List.cons_append, gotBy, gotBy, ih, List.forall_mem_cons]
    tauto

theorem exists_of_gotBy {cs : List StructId} (hy : S.gotBy t K gets cs y) :
    ∃ c ∈ cs, gets c y := by
  induction cs with
  | nil => cases hy
  | cons c cs ih =>
    rcases hy with hy | ⟨-, hy⟩
    · exact ⟨c, List.mem_cons_self .., hy⟩
    · obtain ⟨d, hd, hy⟩ := ih hy
      exact ⟨d, List.mem_cons_of_mem _ hd, hy⟩

theorem getsTo_succ {n : Nat} (h : S.getsTo t K n x y) : S.getsTo t K (n + 1) x y := by
  induction n generalizing x y with
  | zero => cases h
  | succ n ih => exact h.imp_right (gotBy_mono fun _ _ => ih)

theorem reaches_of_getsTo {n : Nat} (h : S.getsTo t K n x y) : S.Reaches x y := by
  induction n generalizing x with
  | zero => cases h
  | succ n ih =>
    rcases h with ⟨-, rfl⟩ | h
    · exact .refl
    · obtain ⟨c, hc, h⟩ := exists_of_gotBy h
      exact .head ((mem_embedded S).1 hc) (ih h)

/-- What is got from a struct is got from the structs that it embeds, or it is the struct. -/
theorem gotBy_embedded {n : Nat} {xs : List StructId}
    (h : S.gotBy t K (S.getsTo t K n) (x :: xs) y) :
    S.gotBy t K (S.getsTo t K n) (S.embedded x ++ x :: xs) y := by
  rw [gotBy_append]
  by_cases hl : ∀ c ∈ S.embedded x, S.Builds t K c
  · exact .inr ⟨hl, h⟩
  · have hx : ¬ S.Builds t K x := fun hx => hl fun c hc => hx.embeds ((mem_embedded S).1 hc)
    have hget := h.resolve_right fun hx' => hx hx'.1
    cases n with
    | zero => cases hget
    | succ n =>
      exact .inl (gotBy_mono (fun _ _ => getsTo_succ) (hget.resolve_left fun hx' => hx hx'.1))

theorem not_getsTo_of_noBody (hx : (S.get x).isOpaque = true) {n : Nat} :
    ¬ S.getsTo t K n x y := by
  intro h
  cases n with
  | zero => cases h
  | succ n =>
    rcases h with ⟨hl, -⟩ | h
    · have := hl.lays.wellFormed.has_body
      rw [hx] at this
      cases this
    · obtain ⟨c, hc, -⟩ := exists_of_gotBy h
      have := ((mem_embedded S).1 hc).has_body
      rw [hx] at this
      cases this

theorem not_gets_of_noBody (hx : (S.get x).isOpaque = true) : ¬ S.Gets t K x y := by
  rintro ⟨n, hn⟩
  exact not_getsTo_of_noBody hx hn

end Structs

namespace Flatten

variable {cx : FlattenContext} {s s' : FlattenState} {root : StructId} {t : Target}
  {K : StructId → Prop}

/-- A state in order in which all descriptors under the name of the module, and those to come, are
on one target. -/
structure OnTarget (cx : FlattenContext) (t : Target) (s : FlattenState) : Prop where
  orderly : Orderly cx s
  target : s.layouts.targetOf cx.layout = t
  all : ∀ {b h}, s.registry.handle? b cx.module.name = some h → s.registry.targetAt s.layouts h = t

theorem Advances.onTarget (ha : Advances cx s s') (ho : Orderly cx s') (ht : OnTarget cx t s) :
    OnTarget cx t s' where
  orderly := ho
  target := (ha.layouts.targets _ ht.orderly.layout).trans ht.target
  all {b h} hb := by
    rcases ha.new hb with hold | ⟨-, hl⟩
    · rw [ha.targetAt_old ht.orderly hold]
      exact ht.all hold
    · rw [Registry.targetAt, hl, ha.layouts.targets _ ht.orderly.layout]
      exact ht.target

theorem Safe.onTarget {α : Type} {act : Flatten α} (hact : Safe cx act) (ht : OnTarget cx t s) :
    OnTarget cx t (after act s) :=
  (hact s ht.orderly).2.onTarget (hact s ht.orderly).1 ht

theorem Known.lays {b : StructId} (hb : Known cx s b) (ht : OnTarget cx t s) :
    cx.structs.Lays t b := by
  obtain ⟨n, hn⟩ := hb
  have hl := ht.orderly.consistent.lays hn
  rw [ht.all hn] at hl
  exact hl

/-- Since the structs of `K` had descriptors under the name of the module, no others got any but
those that can be named. -/
structure Since (K : StructId → Prop) (cx : FlattenContext) (s : FlattenState) : Prop where
  old : ∀ y, K y → Known cx s y
  named : ∀ y, Known cx s y → K y ∨ cx.structs.Nameable y

theorem Since.start (cx : FlattenContext) (s : FlattenState) : Since (Known cx s) cx s :=
  ⟨fun _ => id, fun _ => .inl⟩

theorem Advances.since (ha : Advances cx s s') (hk : Since K cx s) : Since K cx s' where
  old y hy := ha.known (hk.old y hy)
  named y hy := (ha.named hy).elim (hk.named y) .inr

theorem Safe.since {α : Type} {act : Flatten α} (hact : Safe cx act) (ho : Orderly cx s)
    (hk : Since K cx s) : Since K cx (after act s) :=
  (hact s ho).2.since hk

/-- What has been built can be built. -/
theorem Known.builds {b : StructId} (hb : Known cx s b) (ht : OnTarget cx t s) (hk : Since K cx s) :
    cx.structs.Builds t K b where
  lays := hb.lays ht
  named y hy := by
    obtain ⟨n, hn⟩ := hb
    exact hk.named y (ht.orderly.consistent.reaches hn hy)

theorem Known.getsTo {b y : StructId} (hb : Known cx s b) (ht : OnTarget cx t s) {n : Nat}
    (h : cx.structs.getsTo t K n b y) : Known cx s y := by
  obtain ⟨n, hn⟩ := hb
  exact ht.orderly.consistent.reaches hn (Structs.reaches_of_getsTo h)

/-! ## The account of a work list -/

/-- What has been got and what is still on the stack add up to what there was before and what the
request gets. -/
structure Accounted (K before : StructId → Prop) (cx : FlattenContext) (t : Target)
    (root : StructId) (w : WorkList) (s : FlattenState) : Prop where
  sane : Sane cx t root w s
  onTarget : OnTarget cx t s
  since : Since K cx s
  old : ∀ y, before y → Known cx s y
  sound : ∀ y, Known cx s y ∨
    (∃ n, cx.structs.gotBy t K (cx.structs.getsTo t K n) (w.stack.map Task.struct) y) →
      before y ∨ cx.structs.Gets t K root y
  complete : ∀ n y, cx.structs.getsTo t K n root y → Known cx s y ∨
    cx.structs.gotBy t K (cx.structs.getsTo t K n) (w.stack.map Task.struct) y
  -- what a struct in progress gets is got from what is above its ready task
  marks : ∀ {above x below}, w.stack = above ++ ⟨x, true⟩ :: below → ∀ n y,
    cx.structs.getsTo t K (n + 1) x y → Known cx s y ∨ (cx.structs.Builds t K x ∧ y = x) ∨
      cx.structs.gotBy t K (cx.structs.getsTo t K n) (above.map Task.struct) y

namespace Accounted

variable {before : StructId → Prop} {st : StructId} {ready : Bool} {rest : List Task}
  {waiting waiting' : List StructId}

theorem start (ht : OnTarget cx t s) (hk : Since K cx s) (root : StructId) :
    Accounted K (Known cx s) cx t root (.start root) s where
  sane := ht.target ▸ .start ht.orderly root
  onTarget := ht
  since := hk
  old _ hy := hy
  sound y := by
    rintro (hy | ⟨n, hy | ⟨-, hy⟩⟩)
    · exact .inl hy
    · exact .inr ⟨n, hy⟩
    · cases hy
  complete n y hy := .inr (.inl hy)
  marks {above x below} he := by
    cases above with
    | nil => cases he
    | cons z above =>
      have := congrArg List.length he
      simp [WorkList.start] at this

/-- The task on top is done: what is got from it is there. -/
theorem pop (h : Accounted K before cx t root ⟨⟨st, ready⟩ :: rest, waiting⟩ s)
    (hs : Sane cx t root ⟨rest, waiting'⟩ s') (ht : OnTarget cx t s') (ha : Advances cx s s')
    (hst : Known cx s' st) (hnew : ∀ y, Known cx s' y → Known cx s y ∨ y = st) :
    Accounted K before cx t root ⟨rest, waiting'⟩ s' := by
  have hk : Since K cx s' := ha.since h.since
  have hbuilds : cx.structs.Builds t K st := hst.builds ht hk
  have hgets : ∀ n y,
      cx.structs.gotBy t K (cx.structs.getsTo t K n) (st :: rest.map Task.struct) y →
      Known cx s' y ∨ cx.structs.gotBy t K (cx.structs.getsTo t K n) (rest.map Task.struct) y := by
    rintro n y (hy | ⟨-, hy⟩)
    · exact .inl (hst.getsTo ht hy)
    · exact .inr hy
  exact {
    sane := hs
    onTarget := ht
    since := hk
    old := fun y hy => ha.known (h.old y hy)
    sound := fun y => by
      rintro (hy | ⟨n, hy⟩)
      · rcases hnew y hy with hy | rfl
        · exact h.sound y (.inl hy)
        · exact h.sound y (.inr ⟨1, .inl (.inl ⟨hbuilds, rfl⟩)⟩)
      · exact h.sound y (.inr ⟨n, .inr ⟨hbuilds, hy⟩⟩)
    complete := fun n y hy => by
      rcases h.complete n y hy with hy | hy
      · exact .inl (ha.known hy)
      · exact hgets n y hy
    marks := fun {above x below} he n y hy => by
      have he' : ⟨st, ready⟩ :: rest = (⟨st, ready⟩ :: above) ++ ⟨x, true⟩ :: below := by
        rw [List.cons_append, ← he]
      rcases h.marks he' n y hy with hy | hy | hy
      · exact .inl (ha.known hy)
      · exact .inr (.inl hy)
      · rcases hy with hy | ⟨-, hy⟩
        · exact .inl (hst.getsTo ht hy)
        · exact .inr (.inr hy) }

/-- Nothing that is just met is ready: a ready task is the one below, or it was there before. -/
theorem ready_of_met {inner : List StructId} {above below : List Task} {x : StructId}
    (he : inner.map (Task.mk · false) ++ ⟨st, true⟩ :: rest = above ++ ⟨x, true⟩ :: below) :
    (x = st ∧ above = inner.map (Task.mk · false)) ∨
      ∃ as, above = inner.map (Task.mk · false) ++ ⟨st, true⟩ :: as ∧
        rest = as ++ ⟨x, true⟩ :: below := by
  induction inner generalizing above with
  | nil =>
    cases above with
    | nil => cases he; exact .inl ⟨rfl, rfl⟩
    | cons z above =>
      obtain ⟨rfl, hrest⟩ := List.cons.inj he
      exact .inr ⟨above, rfl, hrest⟩
  | cons c inner ih =>
    cases above with
    | nil => cases he
    | cons z above =>
      obtain ⟨rfl, hrest⟩ := List.cons.inj he
      rcases ih hrest with ⟨rfl, rfl⟩ | ⟨as, rfl, hsplit⟩
      · exact .inl ⟨rfl, rfl⟩
      · exact .inr ⟨as, rfl, hsplit⟩

/-- A struct is met for the first time: what it embeds comes on top of it. -/
theorem push (h : Accounted K before cx t root ⟨⟨st, false⟩ :: rest, waiting⟩ s)
    (hs : Sane cx t root
      ⟨(cx.structs.embedded st).map (Task.mk · false) ++ ⟨st, true⟩ :: rest, waiting'⟩ s) :
    Accounted K before cx t root
      ⟨(cx.structs.embedded st).map (Task.mk · false) ++ ⟨st, true⟩ :: rest, waiting'⟩ s := by
  have hmap : ∀ xs : List Task,
      ((cx.structs.embedded st).map (Task.mk · false) ++ xs).map Task.struct =
        cx.structs.embedded st ++ xs.map Task.struct := fun xs => by
    simp [Function.comp_def]
  refine ⟨hs, h.onTarget, h.since, h.old, fun y hy => h.sound y ?_, fun n y hy => ?_, ?_⟩
  · refine hy.imp_right fun ⟨n, hn⟩ => ?_
    rw [hmap, Structs.gotBy_append] at hn
    rcases hn with hn | ⟨-, hn⟩
    · exact ⟨n + 1, .inl (.inr hn)⟩
    · exact ⟨n, hn⟩
  · rw [hmap]
    exact (h.complete n y hy).imp_right Structs.gotBy_embedded
  · intro above x below he n y hy
    rcases ready_of_met he with ⟨rfl, rfl⟩ | ⟨as, rfl, hrest⟩
    · refine .inr (hy.imp_right fun hy => ?_)
      rwa [← List.append_nil ((cx.structs.embedded x).map _), hmap, List.map_nil, List.append_nil]
    · have hold : ⟨st, false⟩ :: rest = (⟨st, false⟩ :: as) ++ ⟨x, true⟩ :: below := by
        rw [List.cons_append, ← hrest]
      rw [hmap]
      exact (h.marks hold n y hy).imp_right (Or.imp_right Structs.gotBy_embedded)

/-- The task on top fails: all that is got from it is there. -/
theorem fail (h : Accounted K before cx t root ⟨⟨st, ready⟩ :: rest, waiting⟩ s)
    (hbad : ¬ cx.structs.Builds t K st)
    (hst : ∀ n y, cx.structs.getsTo t K n st y → Known cx s y) (y : StructId) :
    Known cx s y ↔ before y ∨ cx.structs.Gets t K root y := by
  refine ⟨fun hy => h.sound y (.inl hy), ?_⟩
  rintro (hy | ⟨n, hy⟩)
  · exact h.old y hy
  · rcases h.complete n y hy with hy | hy | ⟨hbuilds, -⟩
    · exact hy
    · exact hst n y hy
    · exact absurd hbuilds hbad

/-- What a struct gets that is met while it is in progress is there, to every depth. -/
theorem getsTo_of_waiting (h : Accounted K before cx t root ⟨⟨st, false⟩ :: rest, waiting⟩ s)
    (hw : st ∈ waiting) (n : Nat) (y : StructId) (hy : cx.structs.getsTo t K n st y) :
    Known cx s y := by
  have hbad : ¬ cx.structs.Builds t K st := fun hl =>
    hl.lays.wellFormed.founded.not_holds_self (h.sane.holds_self hw)
  have hmem : (⟨st, true⟩ : Task) ∈ rest := by
    have hwait : waiting = (rest.filter Task.ready).map Task.struct := h.sane.waiting
    rw [hwait] at hw
    obtain ⟨⟨x, r⟩, hx, rfl⟩ := List.mem_map.1 hw
    obtain ⟨hmem, rfl⟩ := List.mem_filter.1 hx
    exact hmem
  obtain ⟨above, below, rfl⟩ := List.append_of_mem hmem
  have hsplit : ⟨st, false⟩ :: (above ++ ⟨st, true⟩ :: below) =
      (⟨st, false⟩ :: above) ++ ⟨st, true⟩ :: below := rfl
  induction n with
  | zero => cases hy
  | succ n ih =>
    rcases h.marks hsplit n y hy with hy | ⟨hl, -⟩ | hy | ⟨hl, -⟩
    · exact hy
    · exact absurd hl hbad
    · exact ih hy
    · exact absurd hl hbad

/-- What a struct gets that is ready but cannot be built is there: it comes from what the struct
embeds. -/
theorem getsTo_of_ready (h : Accounted K before cx t root ⟨⟨st, true⟩ :: rest, waiting⟩ s)
    (hbad : ¬ cx.structs.Builds t K st) (n : Nat) (y : StructId)
    (hy : cx.structs.getsTo t K n st y) : Known cx s y := by
  cases n with
  | zero => cases hy
  | succ n =>
    obtain ⟨c, hc, hy⟩ := Structs.exists_of_gotBy (hy.resolve_left fun hb => hbad hb.1)
    have hknown : Known cx s c := h.sane.supported.1 rfl c ((Structs.mem_embedded _).1 hc)
    exact hknown.getsTo h.onTarget hy

end Accounted

/-- A turn keeps the account, or it fails and the account is settled. -/
theorem turn_accounted {before : StructId → Prop} {w : WorkList}
    (h : Accounted K before cx t root w s) (hne : w.stack ≠ []) :
    match turn cx w s with
    | .ok w' s' => Accounted K before cx t root w' s'
    | .error _ s' => ∀ y, Known cx s' y ↔ before y ∨ cx.structs.Gets t K root y := by
  obtain ⟨_ | ⟨⟨st, ready⟩, rest⟩, waiting⟩ := w
  · exact absurd rfl hne
  have hturn := turn_turned h.sane
  generalize turn cx ⟨⟨st, ready⟩ :: rest, waiting⟩ s = result at hturn
  cases hturn with
  | drop known =>
    exact h.pop (h.sane.drop known) h.onTarget (.refl cx s) ⟨_, known⟩ fun y hy => .inl hy
  | push fresh free body => exact h.push (h.sane.push fresh free body)
  | cycle waits =>
    refine h.fail (fun hl => ?_) (h.getsTo_of_waiting waits)
    exact hl.lays.wellFormed.founded.not_holds_self (h.sane.holds_self waits)
  | noBody noBody =>
    refine h.fail (fun hl => ?_) fun n y hy => absurd hy (Structs.not_getsTo_of_noBody noBody)
    have := hl.lays.wellFormed.has_body
    rw [noBody] at this
    cases this
  | built named lays orderly advances known others =>
    refine h.pop (h.sane.built orderly advances known others)
      (advances.onTarget orderly h.onTarget) advances ⟨_, known⟩ ?_
    rintro y ⟨n, hn⟩
    by_cases hy : y = st
    · exact .inr hy
    · rw [others y hy] at hn
      exact .inl ⟨n, hn⟩
  | unnamed fresh unnamed =>
    have hbad : ¬ cx.structs.Builds t K st := by
      intro hb
      rcases hb.named st .refl with hst | ⟨name, hname⟩
      · exact fresh (h.since.old st hst)
      · rw [unnamed] at hname
        cases hname
    exact h.fail hbad (h.getsTo_of_ready hbad)
  | noLayout noLayout orderly advances same =>
    have hbad : ¬ cx.structs.Builds t K st := by
      intro hb
      obtain ⟨l, hl⟩ := hb.lays
      rw [noLayout] at hl
      cases hl
    intro y
    simp only [Known, same]
    exact h.fail hbad (h.getsTo_of_ready hbad) y

theorem drain_gets {before : StructId → Prop} {w : WorkList}
    (h : Accounted K before cx t root w s) (y : StructId) :
    Known cx (after (drain cx w) s) y ↔ before y ∨ cx.structs.Gets t K root y := by
  induction w, s using drainFrom.induct cx with
  | case1 w s hempty =>
    obtain ⟨stack, waiting⟩ := w
    subst hempty
    have he : after (drain cx ⟨[], waiting⟩) s = s := after_ok (drainFrom_nil cx waiting s)
    rw [he]
    refine ⟨fun hy => h.sound y (.inl hy), ?_⟩
    rintro (hy | ⟨n, hy⟩)
    · exact h.old y hy
    · exact (h.complete n y hy).resolve_right id
  | case2 w s hne w' s' ht ih =>
    have hturn := turn_accounted h hne
    rw [ht] at hturn
    have he : after (drain cx w) s = after (drain cx w') s' := by
      simp only [after, drain, drainFrom_of_ok cx hne ht]
    rw [he]
    exact ih hturn
  | case3 w s hne e s' ht =>
    have hturn := turn_accounted h hne
    rw [ht] at hturn
    have he : after (drain cx w) s = s' := after_error (drainFrom_of_error cx hne ht)
    rw [he]
    exact hturn y

/-! ## Requests -/

theorem after_built (s : FlattenState) (st : StructId) : after (built cx st) s = s := by
  cases hk : s.registry.handle? st cx.module.name with
  | some n => exact after_ok (built_eq hk)
  | none =>
    refine after_error (e := .missingDescriptor) ?_
    rw [built, get_bind, hk]
    rfl

/-- A request for a struct without a descriptor leaves what its work list leaves. -/
theorem after_handleOf (hb : (cx.structs.get root).isOpaque = false)
    (hk : s.registry.handle? root cx.module.name = none) :
    after (handleOf cx root) s = after (drain cx (.start root)) s := by
  unfold handleOf
  rw [hb]
  simp only [Bool.false_eq_true, if_false]
  rw [after, get_bind, hk]
  dsimp only
  cases hd : drain cx (.start root) s with
  | ok u s' => rw [bind_ok hd, ← after, after_built, after_ok hd]
  | error e s' => rw [bind_error hd, after_error hd]

/-- A request adds what it gets to what there is, failed or not. -/
theorem handleOf_gets (ht : OnTarget cx t s) (hk : Since K cx s) (root y : StructId) :
    Known cx (after (handleOf cx root) s) y ↔ Known cx s y ∨ cx.structs.Gets t K root y := by
  cases hb : (cx.structs.get root).isOpaque with
  | true =>
    unfold handleOf
    rw [hb]
    exact ⟨.inl, fun hy => hy.resolve_right (Structs.not_gets_of_noBody hb)⟩
  | false =>
    cases hroot : s.registry.handle? root cx.module.name with
    | some n =>
      unfold handleOf
      simp only [hb, Bool.false_eq_true, if_false]
      rw [after, get_bind, ← after, hroot]
      refine ⟨.inl, ?_⟩
      rintro (hy | ⟨n, hn⟩)
      · exact hy
      · exact Known.getsTo ⟨_, hroot⟩ ht hn
    | none =>
      rw [after_handleOf hb hroot]
      exact drain_gets (.start ht hk root) y

theorem Excuse.not_builds {e : Fault} (hk : Since K cx s) (h : Excuse cx s t root e) :
    ¬ cx.structs.Builds t K root := by
  intro hb
  cases h with
  | cycle reach cycle => exact (hb.reaches reach).lays.wellFormed.founded.not_holds_self cycle
  | noBody reach noBody =>
    have hbody := (hb.reaches reach).lays.wellFormed.has_body
    rw [noBody] at hbody
    cases hbody
  | @unnamed x e reach fresh unnamed =>
    rcases hb.named x reach with hx | ⟨name, hname⟩
    · exact fresh (hk.old x hx)
    · rw [unnamed] at hname
      cases hname
  | noLayout reach body inner noLayout =>
    obtain ⟨l, hl⟩ := (hb.reaches reach).lays
    rw [noLayout] at hl
    cases hl

/-- A request is met exactly if the struct can be built. -/
theorem handleOf_builds (ht : OnTarget cx t s) (hk : Since K cx s) (root : StructId) :
    match handleOf cx root s with
    | .ok _ _ => cx.structs.Builds t K root
    | .error _ _ => ¬ cx.structs.Builds t K root := by
  rcases handleOf_spec ht.orderly root with ⟨n, s', he, ho', ha, hn⟩ | ⟨e, s', he, -, -, hx⟩
  · rw [he]
    exact Known.builds ⟨n, hn⟩ (ha.onTarget ho' ht) (ha.since hk)
  · rw [he]
    exact (ht.target ▸ hx).not_builds hk

/-- The structs of a list that a run asks for. -/
def wanted (S : Structs) (xs : List StructId) : List StructId :=
  xs.filter fun x => !(S.get x).isOpaque

/-- Meeting a struct is asking for it, unless it is opaque. -/
theorem meet_gets (ht : OnTarget cx t s) (hk : Since K cx s) (x : StructId) :
    (∃ s', meet cx x s = .ok () s' ∧
      ((cx.structs.get x).isOpaque = true ∨ cx.structs.Builds t K x) ∧ OnTarget cx t s' ∧
      Since K cx s' ∧ ∀ y, Known cx s' y ↔ Known cx s y ∨ cx.structs.Gets t K x y) ∨
    (∃ e s', meet cx x s = .error e s' ∧ (cx.structs.get x).isOpaque = false ∧
      ¬ cx.structs.Builds t K x ∧ ∀ y, Known cx s' y ↔ Known cx s y ∨ cx.structs.Gets t K x y) := by
  obtain ⟨s₁, hs₁, ht₁, hk₁, hknown⟩ : ∃ s₁,
      onRegistry (fun r => r.registerName cx.structs x cx.home cx.module) s = .ok () s₁ ∧
      OnTarget cx t s₁ ∧ Since K cx s₁ ∧ ∀ y, Known cx s₁ y ↔ Known cx s y :=
    ⟨_, rfl, (Safe.registerName x).onTarget ht, (Safe.registerName x).since ht.orderly hk,
      fun y => by simp only [Known, Registry.handle?_registerName]⟩
  simp only [← hknown]
  unfold meet
  rw [bind_ok hs₁]
  cases hb : (cx.structs.get x).isOpaque with
  | true =>
    refine .inl ⟨_, rfl, .inl rfl, (Safe.emit _ _).onTarget ht₁,
      (Safe.emit _ _).since ht₁.orderly hk₁, fun y => ⟨.inl, fun hy => ?_⟩⟩
    exact hy.resolve_right (Structs.not_gets_of_noBody hb)
  | false =>
    have hgets := handleOf_gets ht₁ hk₁ x
    have hbuilds := handleOf_builds ht₁ hk₁ x
    have ht₂ := (Safe.handleOf x).onTarget ht₁
    have hk₂ := (Safe.handleOf x).since ht₁.orderly hk₁
    cases he : handleOf cx x s₁ with
    | ok n s₂ =>
      rw [he] at hbuilds
      rw [after_ok he] at hgets ht₂ hk₂
      refine .inl ⟨s₂, ?_, .inr hbuilds, ht₂, hk₂, hgets⟩
      exact bind_ok he
    | error e s₂ =>
      rw [he] at hbuilds
      rw [after_error he] at hgets
      refine .inr ⟨e, s₂, ?_, rfl, hbuilds, hgets⟩
      exact bind_error he

/-- What a list of structs gets one by one, each as deep as it needs to. -/
theorem forM_meet_gets (ht : OnTarget cx t s) (hk : Since K cx s) (xs : List StructId)
    (y : StructId) :
    Known cx (after (xs.forM (meet cx)) s) y ↔
      Known cx s y ∨ cx.structs.gotBy t K (cx.structs.Gets t K) (wanted cx.structs xs) y := by
  induction xs generalizing s with
  | nil => exact ⟨.inl, fun hy => hy.resolve_right id⟩
  | cons x xs ih =>
    have hcons : (x :: xs).forM (meet cx) = (do meet cx x; xs.forM (meet cx)) := rfl
    rw [hcons]
    rcases meet_gets ht hk x with ⟨s', he, hx, ht', hk', hgets⟩ | ⟨e, s', he, hx, hbad, hgets⟩
    · rw [after, bind_ok he, ← after, ih ht' hk', hgets]
      by_cases hb : (cx.structs.get x).isOpaque = true
      · have hw : wanted cx.structs (x :: xs) = wanted cx.structs xs := by simp [wanted, hb]
        have hno : ¬ cx.structs.Gets t K x y := Structs.not_gets_of_noBody hb
        rw [hw]
        simp only [hno, or_false]
      · have hw : wanted cx.structs (x :: xs) = x :: wanted cx.structs xs := by simp [wanted, hb]
        rw [hw, Structs.gotBy, or_assoc]
        simp only [hx.resolve_left hb, true_and]
    · have hw : wanted cx.structs (x :: xs) = x :: wanted cx.structs xs := by simp [wanted, hx]
      rw [after_error (bind_error he), hgets, hw, Structs.gotBy]
      simp only [hbad, false_and, or_false]

/-- A run gets what the structs of the module get, up to the first that cannot be built. -/
theorem run_gets (ht : OnTarget cx t s) (hk : Since K cx s) (y : StructId) :
    Known cx (after (run cx) s) y ↔ Known cx s y ∨
      cx.structs.gotBy t K (cx.structs.Gets t K)
        (wanted cx.structs cx.module.structs.values) y := by
  rw [← forM_meet_gets ht hk, run, after, get_bind, ← after]
  cases he : cx.module.structs.values.forM (meet cx) s with
  | ok u s' =>
    rw [after, bind_ok he, get_bind, ← after, after_ok he]
    rfl
  | error e s' => rw [after_error (bind_error he), after_error he]

end Flatten

end KernelObjects
