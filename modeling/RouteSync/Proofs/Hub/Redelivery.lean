import RouteSync.Proofs.Hub.Delivering
import RouteSync.Proofs.Hub.Reconciling

/-!
# Changes that come twice or in another order

A listener writes what a change names and looks at nothing else, so a change that comes again finds its writes
in place (`Shows`) and leaves every record as it is but for its date, as often as it comes.  Two changes that
name different addresses write at different places, so they can be told in either order: the records agree but
for the ids and dates that were given to new ones (`alike_of_swapped`).
-/

namespace RouteSync

/-- A record without the date of its last update. -/
def StoredEndpoint.undated (r : StoredEndpoint) : StoredEndpoint := { r with updated := 0 }

theorem StoredEndpoint.id_eq_of_undated {r r' : StoredEndpoint} (h : r'.undated = r.undated) : r'.id = r.id := by
  show r'.undated.id = r.undated.id
  rw [h]

theorem StoredEndpoint.Continues.undated {q r : StoredEndpoint} (hqr : q.Continues r)
    (hcolumns : r.columns = q.columns) : r.undated = q.undated := by
  unfold StoredEndpoint.undated
  rw [hqr.id, hqr.owner, hqr.url, hqr.created, hcolumns]

/-- Two records of one place with the same columns, which are the same record or have both been made since the
store was `old`. -/
structure StoredEndpoint.Alike (old : Store) (r r' : StoredEndpoint) : Prop where
  owner : r'.owner = r.owner
  url : r'.url = r.url
  columns : r'.columns = r.columns
  origin : (r'.id = r.id ∧ r'.created = r.created) ∨ old.find? r.id = none ∧ old.find? r'.id = none

theorem StoredEndpoint.Alike.refl (old : Store) (r : StoredEndpoint) : r.Alike old r :=
  ⟨rfl, rfl, rfl, .inl ⟨rfl, rfl⟩⟩

theorem StoredEndpoint.Alike.symm {old : Store} {r r' : StoredEndpoint} (ha : r.Alike old r') : r'.Alike old r :=
  ⟨ha.owner.symm, ha.url.symm, ha.columns.symm,
    ha.origin.imp (fun hid => ⟨hid.1.symm, hid.2.symm⟩) fun hnew => ⟨hnew.2, hnew.1⟩⟩

/-- The payloads of two changes, as far as they can be read, name different addresses. -/
def SyncListener.Disjoint (l : SyncListener) (change change' : RegistryChange) : Prop :=
  ∀ es es', Payload.read l.mapping change.value = .ok es → Payload.read l.mapping change'.value = .ok es' →
    ∀ e ∈ es, ∀ e' ∈ es', e.url ≠ e'.url

theorem SyncListener.Disjoint.symm {l : SyncListener} {change change' : RegistryChange}
    (hd : l.Disjoint change change') : l.Disjoint change' change :=
  fun es' es hread' hread e' he' e he hu => hd es es' hread hread' e he e' he' hu.symm

/-- What is written for a change stands at an address that the change names. -/
theorem SyncListener.named_of_mem_writesOf {l : SyncListener} {change : RegistryChange} {w : String × Endpoint}
    (hw : w ∈ l.writesOf change) :
    ∃ es, Payload.read l.mapping change.value = .ok es ∧ ∃ e ∈ es, e.url = w.2.url := by
  unfold writesOf at hw
  split_ifs at hw
  · cases hw
  · cases hread : Payload.read l.mapping change.value with
    | error err =>
      rw [hread] at hw
      cases hw
    | ok es =>
      rw [hread] at hw
      obtain ⟨route, -, hw⟩ := List.mem_flatMap.mp hw
      have howner : route.owner = some w.1 := owner_of_mem_writes hw
      unfold writes at hw
      rw [howner] at hw
      obtain ⟨e, he, hwrite⟩ := List.mem_map.mp hw
      exact ⟨es, rfl, e, he, congrArg (fun w : String × Endpoint => w.2.url) hwrite⟩

/-- Changes that name different addresses write at different places. -/
theorem SyncListener.Disjoint.latest {l : SyncListener} {change change' : RegistryChange}
    (hd : l.Disjoint change change') (owner url : String) :
    latest (l.writesOf change) owner url = none ∨ latest (l.writesOf change') owner url = none := by
  have hnamed : ∀ c : RegistryChange, RouteSync.latest (l.writesOf c) owner url ≠ none →
      ∃ es, Payload.read l.mapping c.value = .ok es ∧ ∃ e ∈ es, e.url = url := by
    intro c hsome
    rw [Ne, latest_eq_none_iff] at hsome
    push Not at hsome
    obtain ⟨w, hw, -, hurl⟩ := hsome
    obtain ⟨es, hread, e, he, hu⟩ := named_of_mem_writesOf hw
    exact ⟨es, hread, e, he, hu.trans hurl⟩
  by_contra hboth
  push Not at hboth
  obtain ⟨es, hread, e, he, hu⟩ := hnamed change hboth.1
  obtain ⟨es', hread', e', he', hu'⟩ := hnamed change' hboth.2
  exact hd es es' hread hread' e he e' he' (hu.trans hu'.symm)

namespace Hub

/-- The same records, but for the dates of their last updates. -/
def SameRecords (h h' : Hub) : Prop :=
  ∀ id, (h'.store.find? id).map StoredEndpoint.undated = (h.store.find? id).map StoredEndpoint.undated

/-- The records of one hub have their like in the other. -/
def SameUpToNew (old : Store) (h h' : Hub) : Prop :=
  (∀ r ∈ h.store, ∃ r' ∈ h'.store, r.Alike old r') ∧ ∀ r' ∈ h'.store, ∃ r ∈ h.store, r.Alike old r'

/-- The store holds at every place that is written what a change of this kind leaves there. -/
def Shows (kind : ChangeKind) (ws : List (String × Endpoint)) (h : Hub) : Prop :=
  ∀ owner url e, latest ws owner url = some e →
    if kind = .deleted then ¬ h.Occupied owner url
    else ∃ r ∈ h.store, r.owner = owner ∧ r.url = url ∧ r.columns = e.columns

variable {h h' h'' : Hub} {kind kind' : ChangeKind} {ws ws' : List (String × Endpoint)} {owner url : String}
  {e : Endpoint} {l : SyncListener} {change : RegistryChange} {now now' : UInt64}

theorem SameRecords.refl (h : Hub) : SameRecords h h := fun _ => rfl

theorem SameRecords.trans (h₁ : SameRecords h h') (h₂ : SameRecords h' h'') : SameRecords h h'' :=
  fun id => (h₂ id).trans (h₁ id)

theorem sameRecords_of_mem (hs : h.store.Sound) (hs' : h'.store.Sound)
    (hthere : ∀ r ∈ h.store, ∃ r' ∈ h'.store, r'.undated = r.undated)
    (hback : ∀ r' ∈ h'.store, ∃ r ∈ h.store, r'.undated = r.undated) : SameRecords h h' := by
  intro id
  cases hf : h.store.find? id with
  | none =>
    cases hf' : h'.store.find? id with
    | none => rfl
    | some r' =>
      obtain ⟨r, hr, hsame⟩ := hback r' (hs'.mem_of_find? hf')
      have hid : r.id = id := (StoredEndpoint.id_eq_of_undated hsame).symm.trans (hs'.keyed hf')
      rw [Store.mem_iff, hid, hf] at hr
      cases hr
  | some r =>
    obtain ⟨r', hr', hsame⟩ := hthere r (hs.mem_of_find? hf)
    have hid : r'.id = id := (StoredEndpoint.id_eq_of_undated hsame).trans (hs.keyed hf)
    rw [Store.mem_iff, hid] at hr'
    rw [hr', Option.map_some, Option.map_some, hsame]

/-! ### The same change again -/

theorem Replaced.shows (hr : Replaced kind ws now h h') : h'.Shows kind ws := by
  intro owner url e he
  split_ifs with hkind
  · exact hr.deleted hkind owner url e he
  · obtain ⟨r, hr', ho, hu, hcolumns, -⟩ := hr.upserted hkind owner url e he
    exact ⟨r, hr', ho, hu, hcolumns⟩

/-- **Writes that are in place already** change no more than dates. -/
theorem Replaced.sameRecords (hr : Replaced kind ws now h h') (hm : h.InMemory) (hs : h.Shows kind ws) :
    SameRecords h h' := by
  -- a record that stands where a change of another kind than a deletion writes goes on as it is
  have hwritten : kind ≠ .deleted → ∀ r ∈ h.store, ∀ e, latest ws r.owner r.url = some e →
      ∃ r' ∈ h'.store, r.Continues r' ∧ r'.undated = r.undated := by
    intro hkind r hrh e he
    have hshown := hs r.owner r.url e he
    rw [if_neg hkind] at hshown
    obtain ⟨x, hx, hxo, hxu, hxcolumns⟩ := hshown
    obtain rfl : x = r := hm.sound.eq_of_place hx hrh hxo hxu
    obtain ⟨r', hr', ho, hu, hcolumns, -, hold⟩ := hr.upserted hkind x.owner x.url e he
    have hcontinues : x.Continues r' := by
      rcases hold with ⟨q, hq, hqr⟩ | ⟨hfree, -⟩
      · have hsame : q = x := hm.sound.eq_of_place hq hrh (hqr.owner.symm.trans ho) (hqr.url.symm.trans hu)
        exact hsame ▸ hqr
      · exact absurd ⟨x, hrh, rfl, rfl⟩ hfree
    exact ⟨r', hr', hcontinues, hcontinues.undated (hcolumns.trans hxcolumns.symm)⟩
  refine sameRecords_of_mem hm.sound hr.inMemory.sound (fun r hrh => ?_) fun r' hr' => ?_
  · cases he : latest ws r.owner r.url with
    | none => exact ⟨r, (hr.others _ _ he r rfl rfl).mpr hrh, rfl⟩
    | some e =>
      by_cases hkind : kind = .deleted
      · have hgone := hs r.owner r.url e he
        rw [if_pos hkind] at hgone
        exact absurd ⟨r, hrh, rfl, rfl⟩ hgone
      · obtain ⟨r', hr', -, hsame⟩ := hwritten hkind r hrh e he
        exact ⟨r', hr', hsame⟩
  · cases he : latest ws r'.owner r'.url with
    | none => exact ⟨r', (hr.others _ _ he r' rfl rfl).mp hr', rfl⟩
    | some e =>
      by_cases hkind : kind = .deleted
      · exact absurd ⟨r', hr', rfl, rfl⟩ (hr.deleted hkind _ _ e he)
      · have hshown := hs r'.owner r'.url e he
        rw [if_neg hkind] at hshown
        obtain ⟨r, hrh, ho, hu, -⟩ := hshown
        obtain ⟨x, hx, hcontinues, hsame⟩ := hwritten hkind r hrh e (by rw [ho, hu]; exact he)
        obtain rfl : x = r' := hr.inMemory.sound.eq_of_place hx hr'
          (hcontinues.owner.trans ho) (hcontinues.url.trans hu)
        exact ⟨r, hrh, hsame⟩

/-- A change whose writes are in place may come as often as it likes. -/
theorem sameRecords_foldl_delivered (hm : h.InMemory) (hf : h.faults = [])
    (hs : h.Shows change.kind (l.writesOf change)) (later : List UInt64) :
    SameRecords h (later.foldl (fun g now => delivered l change now g) h) := by
  induction later generalizing h with
  | nil => exact .refl h
  | cons now later ih =>
    have hr := replaced_of_delivered hm hf l change now
    have hstep : SameRecords h (delivered l change now h) := hr.sameRecords hm hs
    exact hstep.trans (ih hr.inMemory (faultless_delivered hf l change now) hr.shows)

/-! ### Two changes in either order -/

/-- The same writes, from two hubs that agree with a third at a place, leave the like there. -/
theorem alike_of_replaced {a a' b b' : Hub} {r : StoredEndpoint} (hm : h.InMemory)
    (ha : Replaced kind ws now a a') (hb : Replaced kind ws now' b b') (hda : h.drawn ≤ a.drawn)
    (hdb : h.drawn ≤ b.drawn) (hpa : AsBefore owner url h a) (hpb : AsBefore owner url h b)
    (he : latest ws owner url = some e) (hr : r ∈ a'.store) (ho : r.owner = owner) (hu : r.url = url) :
    ∃ r' ∈ b'.store, r.Alike h.store r' := by
  have hkind : kind ≠ .deleted := fun hkind => ha.deleted hkind owner url e he ⟨r, hr, ho, hu⟩
  obtain ⟨x, hx, hxo, hxu, hxcolumns, -, hxorigin⟩ := ha.upserted hkind owner url e he
  obtain rfl : x = r := ha.inMemory.sound.eq_of_place hx hr (hxo.trans ho.symm) (hxu.trans hu.symm)
  obtain ⟨y, hy, hyo, hyu, hycolumns, -, hyorigin⟩ := hb.upserted hkind owner url e he
  refine ⟨y, hy, hyo.trans ho.symm, hyu.trans hu.symm, hycolumns.trans hxcolumns.symm, ?_⟩
  -- what stood at the place stood there in all three hubs
  have hfromA : ∀ q ∈ a.store, q.Continues x → q ∈ h.store ∧ q.owner = owner ∧ q.url = url := by
    intro q hq hqx
    have hqo : q.owner = owner := hqx.owner.symm.trans ho
    have hqu : q.url = url := hqx.url.symm.trans hu
    exact ⟨(hpa q hqo hqu).mp hq, hqo, hqu⟩
  have hfromB : ∀ q ∈ b.store, q.Continues y → q ∈ h.store ∧ q.owner = owner ∧ q.url = url := by
    intro q hq hqy
    have hqo : q.owner = owner := hqy.owner.symm.trans hyo
    have hqu : q.url = url := hqy.url.symm.trans hyu
    exact ⟨(hpb q hqo hqu).mp hq, hqo, hqu⟩
  rcases hxorigin with ⟨q, hq, hqx⟩ | ⟨hfree, -, n, hn, hid⟩
  · obtain ⟨hqh, hqo, hqu⟩ := hfromA q hq hqx
    rcases hyorigin with ⟨p, hp, hpy⟩ | ⟨hfree, -⟩
    · obtain ⟨hph, hpo, hpu⟩ := hfromB p hp hpy
      obtain rfl : p = q := hm.sound.eq_of_place hph hqh (hpo.trans hqo.symm) (hpu.trans hqu.symm)
      exact .inl ⟨hpy.id.trans hqx.id.symm, hpy.created.trans hqx.created.symm⟩
    · exact absurd ⟨q, (hpb q hqo hqu).mpr hqh, hqo, hqu⟩ hfree
  · rcases hyorigin with ⟨p, hp, hpy⟩ | ⟨-, -, m, hm', hid'⟩
    · obtain ⟨hph, hpo, hpu⟩ := hfromB p hp hpy
      exact absurd ⟨p, (hpa p hpo hpu).mpr hph, hpo, hpu⟩ hfree
    · refine .inr ⟨?_, ?_⟩
      · rw [hid]
        exact hm.fresh n (by omega)
      · rw [hid']
        exact hm.fresh m (by omega)

/-- **Writes at different places** may come in either order. -/
theorem alike_of_swapped {a ab b ba : Hub} {t₁ t₂ t₃ t₄ : UInt64} (hm : h.InMemory)
    (hd : ∀ owner url, latest ws owner url = none ∨ latest ws' owner url = none)
    (h₁ : Replaced kind ws t₁ h a) (h₂ : Replaced kind' ws' t₂ a ab) (h₃ : Replaced kind' ws' t₃ h b)
    (h₄ : Replaced kind ws t₄ b ba) : ∀ r ∈ ab.store, ∃ r' ∈ ba.store, r.Alike h.store r' := by
  intro r hr
  cases he : latest ws r.owner r.url with
  | some e =>
    have hother : latest ws' r.owner r.url = none := by
      rcases hd r.owner r.url with hnone | hnone
      · rw [he] at hnone
        cases hnone
      · exact hnone
    have hra : r ∈ a.store := (h₂.others _ _ hother r rfl rfl).mp hr
    exact alike_of_replaced hm h₁ h₄ (Nat.le_refl _) h₃.drawn (fun _ _ _ => Iff.rfl)
      (h₃.others _ _ hother) he hra rfl rfl
  | none =>
    cases he' : latest ws' r.owner r.url with
    | some e' =>
      obtain ⟨r', hr', halike⟩ := alike_of_replaced hm h₂ h₃ h₁.drawn (Nat.le_refl _) (h₁.others _ _ he)
        (fun _ _ _ => Iff.rfl) he' hr rfl rfl
      exact ⟨r', (h₄.others _ _ he r' halike.owner halike.url).mpr hr', halike⟩
    | none =>
      have hra : r ∈ a.store := (h₂.others _ _ he' r rfl rfl).mp hr
      have hrh : r ∈ h.store := (h₁.others _ _ he r rfl rfl).mp hra
      have hrb : r ∈ b.store := (h₃.others _ _ he' r rfl rfl).mpr hrh
      exact ⟨r, (h₄.others _ _ he r rfl rfl).mpr hrb, .refl _ r⟩

/-- **Changes that come again or in another order do no harm.**  A listener that is told a change again, as often
as it likes and whenever, leaves the records as the first time but for their dates of update.  Two changes that
name different addresses leave, whatever their kinds and times, the like in either order: the same places with
the same columns, and the same record wherever there was one before. -/
theorem redelivery_and_reordering (hm : h.InMemory) (hf : h.faults = []) (l : SyncListener)
    (change : RegistryChange) :
    (∀ (now : UInt64) (later : List UInt64), SameRecords (delivered l change now h)
      (later.foldl (fun g now => delivered l change now g) (delivered l change now h))) ∧
      ∀ change', l.Disjoint change change' → ∀ t₁ t₂ t₃ t₄,
        SameUpToNew h.store (delivered l change' t₂ (delivered l change t₁ h))
          (delivered l change t₄ (delivered l change' t₃ h)) := by
  constructor
  · intro now later
    have hr := replaced_of_delivered hm hf l change now
    exact sameRecords_foldl_delivered hr.inMemory (faultless_delivered hf l change now) hr.shows later
  · intro change' hd t₁ t₂ t₃ t₄
    have h₁ := replaced_of_delivered hm hf l change t₁
    have h₃ := replaced_of_delivered hm hf l change' t₃
    have h₂ := replaced_of_delivered h₁.inMemory (faultless_delivered hf l change t₁) l change' t₂
    have h₄ := replaced_of_delivered h₃.inMemory (faultless_delivered hf l change' t₃) l change t₄
    refine ⟨alike_of_swapped hm hd.latest h₁ h₂ h₃ h₄, fun r' hr' => ?_⟩
    obtain ⟨r, hr, halike⟩ := alike_of_swapped hm hd.symm.latest h₃ h₄ h₁ h₂ r' hr'
    exact ⟨r, hr, halike.symm⟩

/-- A listener with two routes over a store with one record, which the first change overwrites for one route while
it stores a new one for the other. -/
theorem redelivery_and_reordering_twoRoutes :
    let l : SyncListener := ⟨.plain, [⟨"p", "s1", "one", "ns", some "h", none⟩,
      ⟨"p", "s2", "two", "ns", some "g", none⟩], "d", "http://"⟩
    let h := withLive (holding (.memory .empty) staleRecord) []
    let change : RegistryChange := ⟨"/k", "\x7b\"url\":\"a:1\",\"weight\":7\x7d", .updated⟩
    let change' : RegistryChange := ⟨"/k", "\x7b\"url\":\"b:2\"\x7d", .added⟩
    h.InMemory ∧ SameRecords (delivered l change 7 h) (delivered l change 8 (delivered l change 7 h)) ∧
      SameUpToNew h.store (delivered l change' 6 (delivered l change 5 h))
        (delivered l change 5 (delivered l change' 6 h)) ∧
      (delivered l change' 6 (delivered l change 5 h)).store.size = 4 := by
  intro l h change change'
  have hi : (Store.memory .empty).insert staleRecord = .ok (holding (.memory .empty) staleRecord) := rfl
  have hstore : h.store.Reached := .insert .memory (fun he => by cases he) rfl hi
  have hm : h.InMemory := ⟨rfl, hstore.sound,
    drawsFresh_holding Store.Reached.memory.sound (fun he => by cases he) (fun _ => rfl) hi (by decide) []⟩
  have hnamed : ∀ (c : RegistryChange) (u : String),
      (Payload.read l.mapping c.value).toOption.map (List.map Endpoint.url) = some [u] →
      ∀ es, Payload.read l.mapping c.value = .ok es → ∀ e ∈ es, e.url = u := by
    intro c u hread es hes e he
    rw [hes] at hread
    have hurls : es.map Endpoint.url = [u] := Option.some.inj hread
    have hmem : e.url ∈ es.map Endpoint.url := List.mem_map_of_mem he
    rw [hurls] at hmem
    exact List.mem_singleton.mp hmem
  have hd : l.Disjoint change change' := by
    intro es es' hread hread' e he e' he' hu
    have hurl : e.url = "a:1" := hnamed change "a:1" (by decide +kernel) es hread e he
    have hurl' : e'.url = "b:2" := hnamed change' "b:2" (by decide +kernel) es' hread' e' he'
    rw [hurl, hurl'] at hu
    exact absurd hu (by decide)
  obtain ⟨hagain, hswap⟩ := redelivery_and_reordering hm rfl l change
  exact ⟨hm, hagain 7 [8], hswap change' hd 5 6 6 5, by decide +kernel⟩

end Hub

end RouteSync
