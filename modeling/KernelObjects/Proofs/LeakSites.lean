import KernelObjects.Proofs.Journals
import Mathlib.Data.List.Nodup
import Mathlib.Data.List.Perm.Basic

/-!
# Leak sites are written once

A descriptor files leak sites by length field and by copying value. The first site under a key stays
there; whoever comes later with the same key is turned down, and nothing changes. Since the length
fields are listed in a second place, by the same calls, the two lists agree.

Results:
* `accepted_append_singleton`: only an entry with a new key is accepted.
* `Ledger.sites_eq`: the sites, by length field.
* `Journal.Filed.addLeakSource`: what a call to enter a site does to all views of the ledger.
* `Work.duplicateSite_eq_iff`: the fault says that there is a site already if it can be written.
* `leaks_written_once`: the ledger of a descriptor after any actions.
* `leaks_unwritten`: a second site whose key cannot be written.
-/
namespace KernelObjects

/-- What is entered: a length field, a copying value and a site. -/
abbrev LeakEntry := Int × ValueId × SiteId

/-- What a leak site is filed under. -/
def LeakEntry.key (e : LeakEntry) : Int × ValueId :=
  (e.1, e.2.1)

/-! ## The entries that are accepted -/

/-- The first entry under each key, in order. -/
def accepted : List LeakEntry → List LeakEntry
  | [] => []
  | e :: es => e :: (accepted es).filter fun e' => e'.key ≠ e.key

theorem mem_keys_accepted {es : List LeakEntry} {k : Int × ValueId} :
    k ∈ (accepted es).map LeakEntry.key ↔ k ∈ es.map LeakEntry.key := by
  induction es with
  | nil => rfl
  | cons e es ih =>
    rw [accepted, List.map_cons, List.map_cons, List.mem_cons, List.mem_cons, ← ih]
    by_cases hk : k = e.key
    · simp [hk]
    · simp only [hk, false_or, List.mem_map, List.mem_filter, decide_eq_true_eq]
      refine ⟨?_, ?_⟩
      · rintro ⟨e', ⟨he', -⟩, rfl⟩
        exact ⟨e', he', rfl⟩
      · rintro ⟨e', he', rfl⟩
        exact ⟨e', ⟨he', hk⟩, rfl⟩

theorem nodup_keys_accepted (es : List LeakEntry) : ((accepted es).map LeakEntry.key).Nodup := by
  induction es with
  | nil => exact List.nodup_nil
  | cons e es ih =>
    refine List.nodup_cons.2 ⟨fun h => ?_, ih.sublist (List.filter_sublist.map _)⟩
    obtain ⟨e', he', hkey⟩ := List.mem_map.1 h
    exact of_decide_eq_true (List.mem_filter.1 he').2 hkey

theorem accepted_append_singleton (es : List LeakEntry) (e : LeakEntry) :
    accepted (es ++ [e]) =
      if e.key ∈ es.map LeakEntry.key then accepted es else accepted es ++ [e] := by
  induction es with
  | nil => rfl
  | cons x es ih =>
    rw [List.cons_append, accepted, ih, accepted, List.map_cons]
    by_cases hx : e.key = x.key
    · -- both branches of `ih` lose the entry
      rw [if_pos (List.mem_cons.2 (.inl hx))]
      split <;> simp [hx]
    · by_cases hes : e.key ∈ es.map LeakEntry.key
      · rw [if_pos hes, if_pos (List.mem_cons_of_mem _ hes)]
      · rw [if_neg hes, if_neg (by simp_all)]
        simp [hx]

theorem fst_mem_of_key {es : List LeakEntry} {k : Int × ValueId}
    (h : k ∈ es.map LeakEntry.key) : k.1 ∈ es.map Prod.fst := by
  obtain ⟨e, he, rfl⟩ := List.mem_map.1 h
  exact List.mem_map_of_mem he

theorem find?_append_singleton (es : List LeakEntry) (e : LeakEntry) (k : Int × ValueId) :
    (es ++ [e]).find? (fun e => e.key = k) =
      (es.find? fun e => e.key = k).or (if e.key = k then some e else none) := by
  rw [List.find?_append, List.find?_singleton]
  simp

/-! ## The ledger -/

namespace Ledger

theorem sites_eq (l : Ledger) :
    l.sites = l.offsets.flatMap fun o => (l.sources o).entries.map fun p => (o, p) := by
  unfold sites offsets Table.keys
  rw [List.flatMap_map]
  refine List.flatMap_congr fun p hp => ?_
  rw [sources, Table.get?_of_mem hp]
  rfl

theorem contains_sources (l : Ledger) (o : Int) (v : ValueId) :
    (l.sources o).contains v = (l.get? o v).isSome :=
  rfl

theorem add_some {l l' : Ledger} {o : Int} {v : ValueId} {site : SiteId}
    (h : l.add o v site = some l') :
    l.get? o v = none ∧ l' = ⟨l.byOffset.insert o ((l.sources o).insert v site)⟩ := by
  unfold add at h
  split at h
  · cases h
  · next hnew =>
    rw [contains_sources, Bool.not_eq_true, Option.isSome_eq_false_iff, Option.isNone_iff_eq_none]
      at hnew
    exact ⟨hnew, (Option.some.inj h).symm⟩

theorem sources_insert (l : Ledger) (o o' : Int) (t : Table ValueId SiteId) :
    sources ⟨l.byOffset.insert o t⟩ o' = if o' = o then t else l.sources o' := by
  rw [sources, Table.get?_insert]
  split <;> rfl

end Ledger

/-! ## The journal -/

namespace Journal

/-- A journal in which these calls entered leak sites. -/
structure Filed (j : Journal) (es : List LeakEntry) : Prop where
  lens : j.lenByLeakable = OrderedSet.ofList (es.map Prod.fst)
  offsets : j.ledger.offsets = j.lenByLeakable.items
  get? : ∀ o v, j.ledger.get? o v = (es.find? fun e => e.key = (o, v)).map fun e => e.2.2
  sources : ∀ o, (j.ledger.sources o).entries =
    ((accepted es).filter fun e => e.1 = o).map Prod.snd

namespace Filed

variable {j : Journal} {es : List LeakEntry}

theorem empty : Filed {} [] :=
  ⟨rfl, rfl, fun _ _ => rfl, fun _ => rfl⟩

theorem isSome_get? (h : j.Filed es) (o : Int) (v : ValueId) :
    (j.ledger.get? o v).isSome ↔ (o, v) ∈ es.map LeakEntry.key := by
  rw [h.get?, Option.isSome_map, List.find?_isSome, List.mem_map]
  simp

theorem refused_iff (h : j.Filed es) (o : Int) (v : ValueId) (site : SiteId) :
    j.ledger.add o v site = none ↔ (o, v) ∈ es.map LeakEntry.key := by
  rw [Ledger.add_eq_none_iff, h.isSome_get?]

theorem offsets_append (h : j.Filed es) (e : LeakEntry) :
    OrderedSet.ofList ((es ++ [e]).map Prod.fst) = j.lenByLeakable.insert e.1 := by
  rw [List.map_append, List.map_singleton, OrderedSet.ofList_append_singleton, h.lens]

/-- A call with a key that was used before leaves the journal as it is. -/
theorem refuse (h : j.Filed es) {e : LeakEntry} (hkey : e.key ∈ es.map LeakEntry.key) :
    j.Filed (es ++ [e]) := by
  refine ⟨?_, h.offsets, fun o v => ?_, fun o => ?_⟩
  · have hold : e.1 ∈ j.lenByLeakable := by
      rw [h.lens, OrderedSet.mem_ofList]
      exact fst_mem_of_key hkey
    rw [h.offsets_append]
    exact OrderedSet.ext (by rw [OrderedSet.items_insert, if_pos hold])
  · rw [h.get?, find?_append_singleton]
    split
    · next he =>
      obtain ⟨e₀, he₀, hk⟩ := List.mem_map.1 hkey
      have hfound : (es.find? fun e => e.key = (o, v)).isSome :=
        List.find?_isSome.2 ⟨e₀, he₀, by simp [hk, he]⟩
      rw [Option.or_of_isSome hfound]
    · rw [Option.or_none]
  · rw [h.sources, accepted_append_singleton, if_pos hkey]

/-- A call with a new key enters its site at the end of the group of its length field. -/
theorem accept (h : j.Filed es) {e : LeakEntry} (hkey : e.key ∉ es.map LeakEntry.key)
    {ledger : Ledger} (hadd : j.ledger.add e.1 e.2.1 e.2.2 = some ledger) :
    Filed { j with ledger, lenByLeakable := j.lenByLeakable.insert e.1 } (es ++ [e]) := by
  obtain ⟨hnew, rfl⟩ := Ledger.add_some hadd
  refine ⟨(h.offsets_append e).symm, ?_, fun o v => ?_, fun o => ?_⟩
  · have hkeys : j.ledger.byOffset.keys = j.lenByLeakable.items := h.offsets
    rw [Ledger.offsets, Table.keys_insert, OrderedSet.items_insert, hkeys]
    rfl
  · rw [Ledger.get?_add hadd, h.get?, find?_append_singleton]
    by_cases he : e.key = (o, v)
    · obtain ⟨rfl, rfl⟩ := Prod.mk.inj he
      rw [h.get?, Option.map_eq_none_iff] at hnew
      rw [if_pos ⟨rfl, rfl⟩, hnew, if_pos he]
      rfl
    · rw [if_neg he, Option.or_none, if_neg fun hk => he (by rw [hk.1, hk.2]; rfl)]
  · have hold : ((j.ledger.sources e.1).insert e.2.1 e.2.2).entries =
        (j.ledger.sources e.1).entries ++ [e.2] := Table.entries_insert_new hnew e.2.2
    rw [Ledger.sources_insert, accepted_append_singleton, if_neg hkey, List.filter_append,
      List.map_append, ← h.sources]
    split
    · next ho => simp [ho, hold]
    · next ho => simp [Ne.symm ho]

/-- The step: a call enters its site if the key is new, and changes nothing otherwise. -/
theorem addLeakSource (h : j.Filed es) (e : LeakEntry) :
    (j.addLeakSource e.1 e.2.1 e.2.2).Filed (es ++ [e]) := by
  have hrefused : j.ledger.add e.1 e.2.1 e.2.2 = none ↔ e.key ∈ es.map LeakEntry.key :=
    h.refused_iff _ _ _
  unfold Journal.addLeakSource
  cases hadd : j.ledger.add e.1 e.2.1 e.2.2 with
  | none => exact h.refuse (hrefused.1 hadd)
  | some ledger =>
    refine h.accept (fun hkey => ?_) hadd
    rw [hrefused.2 hkey] at hadd
    cases hadd

theorem sites (h : j.Filed es) :
    j.ledger.sites = j.ledger.offsets.flatMap fun o => (accepted es).filter fun e => e.1 = o := by
  rw [Ledger.sites_eq]
  refine List.flatMap_congr fun o _ => ?_
  rw [h.sources, List.map_map]
  refine (List.map_congr_left fun e he => ?_).trans (List.map_id _)
  exact Prod.ext (of_decide_eq_true (List.mem_filter.1 he).2).symm rfl

theorem mem_offsets (h : j.Filed es) (o : Int) :
    o ∈ j.ledger.offsets ↔ o ∈ es.map Prod.fst := by
  rw [h.offsets, ← OrderedSet.mem_def, h.lens, OrderedSet.mem_ofList]

theorem sites_perm (h : j.Filed es) : j.ledger.sites.Perm (accepted es) := by
  have hnodup : j.ledger.offsets.Nodup := j.ledger.byOffset.nodup
  have haccepted : (accepted es).Nodup := (nodup_keys_accepted es).of_map
  rw [h.sites]
  refine (List.perm_ext_iff_of_nodup (List.nodup_flatMap.2 ⟨fun o _ => haccepted.filter _, ?_⟩)
    haccepted).2 fun e => ?_
  · refine hnodup.imp fun {o o'} hne e he he' => hne ?_
    rw [← of_decide_eq_true (List.mem_filter.1 he).2, of_decide_eq_true (List.mem_filter.1 he').2]
  · simp only [List.mem_flatMap, List.mem_filter, decide_eq_true_eq]
    refine ⟨fun ⟨_, _, he, _⟩ => he, fun he => ⟨e.1, (h.mem_offsets e.1).2 ?_, he, rfl⟩⟩
    exact fst_mem_of_key (mem_keys_accepted.1 (List.mem_map_of_mem he))

end Filed

end Journal

/-! ## Actions -/

/-- What an action asks to enter into a descriptor. -/
def Action.leakEntry? (d : DescriptorRef) : Action → Option LeakEntry
  | .operation (.leakSource e offset v site) => if e = d then some (offset, v, site) else none
  | _ => none

/-- What actions, the latest of them first, ask to enter into a descriptor. -/
def leakEntries (d : DescriptorRef) (xs : List Action) : List LeakEntry :=
  collected (Action.leakEntry? d) xs

/-- The action goes to the ledger past the descriptor. -/
def Action.Bypasses (d : DescriptorRef) (x : Action) : Prop :=
  ∃ offset v site, x = .operation (.leak (.ofDescriptor d) offset v site)

namespace Journal.Filed

variable {j : Journal} {es : List LeakEntry} {d : DescriptorRef}

theorem enter (h : j.Filed es) {x : Action} (hx : ¬ x.Bypasses d) :
    (x.enter d j).Filed (es ++ (x.leakEntry? d).toList) := by
  have hidle : j.Filed (es ++ []) := by rwa [List.append_nil]
  cases x with
  | operation op =>
    cases op with
    | leakSource e offset v site =>
      simp only [Action.enter, Operation.descriptor?, Action.leakEntry?, Option.some.injEq]
      split
      · exact h.addLeakSource (offset, v, site)
      · exact hidle
    | note e n =>
      simp only [Action.enter]
      split
      · cases n <;> exact { hidle with }
      · exact hidle
    | leak l offset v site =>
      have hother : (Operation.leak l offset v site).descriptor? ≠ some d := by
        intro hd
        cases l with
        | ofDescriptor e =>
          cases hd
          exact hx ⟨offset, v, site, rfl⟩
        | loose i => cases hd
      rw [Action.enter, if_neg hother]
      exact hidle
    | _ =>
      simp only [Action.enter, Operation.entered, ite_self]
      exact hidle
  | offer | addDescriptor => exact hidle

theorem foldr (xs : List Action) (hxs : ∀ x ∈ xs, ¬ x.Bypasses d) :
    (xs.foldr (Action.enter d) {}).Filed (leakEntries d xs) := by
  induction xs with
  | nil => exact empty
  | cons x xs ih =>
    rw [List.foldr_cons, leakEntries, collected_cons]
    exact (ih fun y hy => hxs y (List.mem_cons_of_mem _ hy)).enter (hxs x (List.mem_cons_self ..))

end Journal.Filed

theorem Work.addLeakSource_eq (d : DescriptorRef) (offset : Int) (v : ValueId) (site : SiteId)
    (s : Session) :
    Work.addLeakSource d offset v site s =
      match (s.descriptor d).addLeakSource offset v site with
      | some x => .ok () (s.modifyDescriptor d fun _ => x)
      | none => .error (Work.duplicateSite s offset v) s := by
  rw [Work.addLeakSource, get_bind]
  cases (s.descriptor d).addLeakSource offset v site <;> rfl

/-! ## The fault of a second site -/

namespace Work

variable {s : Session} {P : Program} {offset : Int} {v : ValueId} {text : String}

theorem siteKey_writes (P : Program) (offset : Int) (v : ValueId) : Writes (siteKey P offset v) :=
  (numberText_writes offset).bind fun _ => P.text_writes v

theorem siteKey_eq_ok_iff :
    siteKey P offset v = .ok text ↔
      offset.natAbs < Nat.pow 10 Text.Numeral.maxDigits ∧ P.text v = .ok text := by
  rw [siteKey, bind_eq_ok, ← exists_numberText_iff, exists_and_right]

/-- The fault says that there is a site already if the key can be written. -/
theorem duplicateSite_eq_iff :
    duplicateSite s offset v = .duplicateSite offset text ↔
      offset.natAbs < Nat.pow 10 Text.Numeral.maxDigits ∧ s.program.text v = .ok text := by
  rw [← siteKey_eq_ok_iff, duplicateSite]
  cases hkey : siteKey s.program offset v with
  | ok key => simp
  | error e =>
    have hwriting := siteKey_writes s.program offset v e hkey
    refine ⟨fun he => ?_, fun hk => by cases hk⟩
    rw [Fault.worded_error] at he
    rw [he] at hwriting
    cases hwriting

theorem duplicateSite_cases (s : Session) (offset : Int) (v : ValueId) :
    (∃ text, duplicateSite s offset v = .duplicateSite offset text) ∨
      (duplicateSite s offset v).isWriting = true := by
  rw [duplicateSite]
  cases hkey : siteKey s.program offset v with
  | ok key => exact .inl ⟨key, rfl⟩
  | error e => exact .inr (siteKey_writes s.program offset v e hkey)

end Work

/-! ## The ledger of a descriptor -/

/-- What a descriptor has to show after these calls to enter leak sites. -/
structure Session.LeakRecord (s : Session) (d : DescriptorRef) (es : List LeakEntry) : Prop where
  /-- The next call is refused if its key was used before, and then nothing changes. -/
  refused : ∀ o v site, (o, v) ∈ es.map LeakEntry.key →
    Work.addLeakSource d o v site s = .error (Work.duplicateSite s o v) s
  entered : ∀ o v site, (o, v) ∉ es.map LeakEntry.key →
    ∃ s', Work.addLeakSource d o v site s = .ok () s'
  /-- The fault says that there is a site already if the key can be written. -/
  fault_eq : ∀ o v text, Work.duplicateSite s o v = .duplicateSite o text ↔
    o.natAbs < Nat.pow 10 Text.Numeral.maxDigits ∧ s.program.text v = .ok text
  /-- If the key cannot be written, the fault is that. -/
  fault_cases : ∀ o v, (∃ text, Work.duplicateSite s o v = .duplicateSite o text) ∨
    (Work.duplicateSite s o v).isWriting = true
  /-- What is found under a key is the site of the first call. -/
  found : ∀ o v, (s.descriptor d).ledger.get? o v =
    (es.find? fun e => e.key = (o, v)).map fun e => e.2.2
  /-- The sites are those that were accepted, each of them once. -/
  perm : (s.descriptor d).ledger.sites.Perm (accepted es)
  /-- They come by length field, and then in the order of their calls. -/
  grouped : (s.descriptor d).ledger.sites =
    (s.descriptor d).ledger.offsets.flatMap fun o => (accepted es).filter fun e => e.1 = o
  /-- The length fields come in the order of their first use. -/
  offsets : (s.descriptor d).ledger.offsets = (OrderedSet.ofList (es.map Prod.fst)).items
  /-- The descriptor lists the same length fields beside. -/
  listed : (s.descriptor d).lenByLeakable.items = (s.descriptor d).ledger.offsets
  size : (s.descriptor d).ledger.size = (s.descriptor d).ledger.offsets.length
  has_iff : ∀ o v, (s.descriptor d).ledger.has o v = true ↔ (o, v) ∈ es.map LeakEntry.key
  isSome_iff : ∀ o v,
    ((s.descriptor d).ledger.get? o v).isSome ↔ (o, v) ∈ es.map LeakEntry.key
  mem_sources_iff : ∀ o v,
    v ∈ ((s.descriptor d).ledger.sources o).keys ↔ (o, v) ∈ es.map LeakEntry.key
  hasOffset_iff : ∀ o, (s.descriptor d).ledger.hasOffset o = true ↔ o ∈ es.map Prod.fst
  mem_offsets_iff : ∀ o,
    (s.descriptor d).ledger.hasOffset o = true ↔ o ∈ (s.descriptor d).ledger.offsets

/-- A descriptor keeps this record after any actions that enter leak sites into it in the one way
that it offers. -/
theorem leaks_written_once {xs : List Action} {s : Session} (h : Acts xs s) (d : DescriptorRef)
    (hxs : ∀ x ∈ xs, ¬ x.Bypasses d) : s.LeakRecord d (leakEntries d xs) := by
  let l := (s.descriptor d).ledger
  have hfiled : (s.descriptor d).journal.Filed (leakEntries d xs) := h.journal d ▸ .foldr xs hxs
  have hrefused : ∀ o v site, l.add o v site = none ↔ (o, v) ∈ (leakEntries d xs).map _ :=
    hfiled.refused_iff
  have hoffset : ∀ o, l.hasOffset o = true ↔ o ∈ l.offsets := l.byOffset.contains_iff
  refine
    { refused := fun o v site hk => ?_
      entered := fun o v site hk => ?_
      fault_eq := fun o v text => Work.duplicateSite_eq_iff
      fault_cases := Work.duplicateSite_cases s
      found := hfiled.get?
      perm := hfiled.sites_perm
      grouped := hfiled.sites
      offsets := hfiled.offsets.trans (congrArg OrderedSet.items hfiled.lens)
      listed := hfiled.offsets.symm
      size := (List.length_map _).symm
      has_iff := hfiled.isSome_get?
      isSome_iff := hfiled.isSome_get?
      mem_sources_iff := fun o v => ?_
      hasOffset_iff := fun o => (hoffset o).trans (hfiled.mem_offsets o)
      mem_offsets_iff := hoffset }
  · have hadd : l.add o v site = none := (hrefused o v site).2 hk
    rw [Work.addLeakSource_eq, Descriptor.addLeakSource, hadd]
    rfl
  · obtain ⟨ledger, hadd⟩ := Option.ne_none_iff_exists'.1 fun he => hk ((hrefused o v site).1 he)
    rw [Work.addLeakSource_eq, Descriptor.addLeakSource, hadd]
    exact ⟨_, rfl⟩
  · rw [← Table.contains_iff]
    exact hfiled.isSome_get? o v

theorem natAbs_lt_of_lt_maxDigits {n : Int} (h : n.natAbs < Text.Numeral.maxDigits) :
    n.natAbs < Nat.pow 10 Text.Numeral.maxDigits := by
  have hpow : ∀ k, k < Nat.pow 10 k := fun k => Nat.lt_pow_self (by decide)
  have hdigits := hpow Text.Numeral.maxDigits
  exact Nat.lt_trans h hdigits

/-- Calls for a descriptor outside all registries, the latest first. The third one repeats a key. -/
def leakActions : List Action :=
  [(8, ⟨1⟩, ⟨3⟩), (8, ⟨0⟩, ⟨2⟩), (4, ⟨0⟩, ⟨1⟩), (8, ⟨0⟩, ⟨0⟩)].map (fun e =>
    .operation (.leakSource (.loose 0) e.1 e.2.1 e.2.2)) ++ [.addDescriptor ⟨0⟩ ⟨0⟩ none none]

theorem acts_leakActions : ∃ s, Acts leakActions s ∧ s.program = {} := by
  have hproper : ∀ (s : Session) offset v site, 0 < s.descriptors.size →
      (Action.operation (.leakSource (.loose 0) offset v site)).Proper s :=
    fun _ _ _ _ hs => .of_descriptor rfl rfl rfl hs
  exact ⟨_, ((((Acts.init.step (.addDescriptor ⟨0⟩ ⟨0⟩ none none) trivial).step _
    (hproper _ _ _ _ (by decide))).step _ (hproper _ _ _ _ (by decide))).step _
    (hproper _ _ _ _ (by decide))).step _ (hproper _ _ _ _ (by decide)), rfl⟩

/-- The first site stays, and the group of the length field that came first is the first one. -/
theorem leaks_written_once_loose :
    ∃ s, Acts leakActions s ∧
      (s.descriptor (.loose 0)).ledger.sites =
        [(8, ⟨0⟩, ⟨0⟩), (8, ⟨1⟩, ⟨3⟩), (4, ⟨0⟩, ⟨1⟩)] ∧
      (s.descriptor (.loose 0)).ledger.get? 8 ⟨0⟩ = some ⟨0⟩ ∧
      ∀ site, Work.addLeakSource (.loose 0) 8 ⟨0⟩ site s =
        .error (.duplicateSite 8 "%<unnamed>") s := by
  obtain ⟨s, h, hprogram⟩ := acts_leakActions
  have hrecord := leaks_written_once h (.loose 0) <| by
    rintro x hx ⟨offset, v, site, rfl⟩
    simp [leakActions] at hx
  have hfault : Work.duplicateSite s 8 ⟨0⟩ = .duplicateSite 8 "%<unnamed>" := by
    refine (hrecord.fault_eq 8 ⟨0⟩ _).2 ⟨natAbs_lt_of_lt_maxDigits (by decide), ?_⟩
    rw [hprogram]
    rfl
  refine ⟨s, h, ?_, (hrecord.found 8 ⟨0⟩).trans (by decide), fun site => ?_⟩
  · rw [hrecord.grouped, hrecord.offsets]
    decide
  · rw [hrecord.refused 8 ⟨0⟩ site (by decide), hfault]

/-! ## A key that cannot be written -/

/-- A null pointer to a struct without a name that has a pointer to itself. -/
def knottedProgram : Program :=
  { structs := ⟨#[{ body := some [.pointerTo (.struct ⟨0⟩)] }, { name := "struct.object" }]⟩
    values := #[{ type := .pointerTo (.struct ⟨0⟩), kind := .null }] }

/-- A site is entered under the null pointer. -/
def knottedActions : List Action :=
  [.operation (.leakSource (.loose 0) 8 ⟨0⟩ ⟨0⟩), .addDescriptor ⟨1⟩ ⟨0⟩ none none,
    .operation (.event (.edit knottedProgram))]

theorem acts_knottedActions :
    ∃ s, Acts knottedActions s ∧ s.program.text ⟨0⟩ = .error .endless ∧
      (s.descriptor (.loose 0)).ledger.get? 8 ⟨0⟩ = some ⟨0⟩ :=
  ⟨_, ((Acts.init.step (.operation (.event (.edit knottedProgram))) ⟨nofun, nofun, nofun⟩).step
    (.addDescriptor ⟨1⟩ ⟨0⟩ none none) trivial).step _
    (.of_descriptor rfl rfl rfl (by decide : 0 < 1)), rfl, rfl⟩

/-- A second site under the null pointer is refused, but the fault does not say so. -/
theorem leaks_unwritten :
    ∃ s, Acts knottedActions s ∧
      (8, ⟨0⟩) ∈ (leakEntries (.loose 0) knottedActions).map LeakEntry.key ∧
      ∀ site, Work.addLeakSource (.loose 0) 8 ⟨0⟩ site s = .error .endless s := by
  obtain ⟨s, h, htext, hsite⟩ := acts_knottedActions
  have hkey : Work.siteKey s.program 8 ⟨0⟩ = .error .endless := by
    obtain ⟨digits, hdigits⟩ :=
      exists_numberText_iff.2 (natAbs_lt_of_lt_maxDigits (n := 8) (by decide))
    rw [Work.siteKey, hdigits]
    exact htext
  have hadd : ∀ site, (s.descriptor (.loose 0)).ledger.add 8 ⟨0⟩ site = none := fun site => by
    rw [Ledger.add_eq_none_iff, hsite]
    rfl
  refine ⟨s, h, by decide, fun site => ?_⟩
  rw [Work.addLeakSource_eq, Descriptor.addLeakSource, hadd, Work.duplicateSite, hkey]
  rfl

end KernelObjects
