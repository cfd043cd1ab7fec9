import RouteSync.Proofs.Hub.Stock
import RouteSync.Proofs.Hub.Syncing

/-!
# What a delivered change does to the records

A change that is told to a listener is delivered: every endpoint that it names is written for the owner of every
route.  `Wrote` says what stands at the places that are written.  `Derived` says where the records come from: a
record keeps its id and its age as long as it is there, and any other carries an id drawn since.  Together they
give the effect of a delivery on a store in memory, place by place (`replaced_of_delivered`).
-/

namespace RouteSync

/-- One record, perhaps overwritten in between. -/
structure StoredEndpoint.Continues (q r : StoredEndpoint) : Prop where
  id : r.id = q.id
  owner : r.owner = q.owner
  url : r.url = q.url
  created : r.created = q.created

theorem StoredEndpoint.Continues.refl (r : StoredEndpoint) : r.Continues r := ⟨rfl, rfl, rfl, rfl⟩

theorem StoredEndpoint.Continues.trans {p q r : StoredEndpoint} (h₁ : p.Continues q) (h₂ : q.Continues r) :
    p.Continues r :=
  ⟨h₂.id.trans h₁.id, h₂.owner.trans h₁.owner, h₂.url.trans h₁.url, h₂.created.trans h₁.created⟩

/-- What a listener writes for a change, each write with its owner; a change that is ignored or cannot be read
writes nothing. -/
def SyncListener.writesOf (l : SyncListener) (change : RegistryChange) : List (String × Endpoint) :=
  if change.kind = .ignored then []
  else match Payload.read l.mapping change.value with
    | .ok es => l.contexts.flatMap (l.writes es)
    | .error _ => []

theorem SyncListener.writesOf_of_read {l : SyncListener} {change : RegistryChange} {es : List Endpoint}
    (hkind : change.kind ≠ .ignored) (hread : Payload.read l.mapping change.value = .ok es) :
    l.writesOf change = l.contexts.flatMap (l.writes es) := by
  unfold writesOf
  rw [if_neg hkind, hread]

namespace Hub

/-- The hub after a change that was told to a listener at some time. -/
def delivered (l : SyncListener) (change : RegistryChange) (now : UInt64) (h : Hub) : Hub :=
  (Act.syncChange l change).left { h with clock := now }

/-- The records of `h'` come from those of `h`, through writes of a change of one kind. -/
structure Derived (kind : ChangeKind) (h h' : Hub) : Prop where
  inMemory : h'.InMemory
  drawn : h.drawn ≤ h'.drawn
  clock : h'.clock = h.clock
  descends : ∀ r ∈ h'.store, (∃ q ∈ h.store, q.Continues r) ∨
    ∃ n, h.drawn < n ∧ r.id = drawnId n ∧ r.created = h.clock
  /-- Only a deletion takes records away. -/
  outlives : kind ≠ .deleted → ∀ q ∈ h.store, ∃ r ∈ h'.store, q.Continues r

/-- There is a record of an owner at an address. -/
def Occupied (h : Hub) (owner url : String) : Prop := ∃ q ∈ h.store, q.owner = owner ∧ q.url = url

/-- What some writes of a change have made of the records, place by place. -/
structure Replaced (kind : ChangeKind) (ws : List (String × Endpoint)) (now : UInt64) (h h' : Hub) : Prop where
  inMemory : h'.InMemory
  drawn : h.drawn ≤ h'.drawn
  others : ∀ owner url, latest ws owner url = none → AsBefore owner url h h'
  /-- The last write shows, in the record of before if there was one and else in a new one. -/
  upserted : kind ≠ .deleted → ∀ owner url e, latest ws owner url = some e →
    ∃ r ∈ h'.store, r.owner = owner ∧ r.url = url ∧ r.columns = e.columns ∧ r.updated = now ∧
      ((∃ q ∈ h.store, q.Continues r) ∨
        ¬ h.Occupied owner url ∧ r.created = now ∧ ∃ n, h.drawn < n ∧ r.id = drawnId n)
  deleted : kind = .deleted → ∀ owner url e, latest ws owner url = some e → ¬ h'.Occupied owner url

variable {h h' h'' : Hub} {kind : ChangeKind} {ws : List (String × Endpoint)} {owner url : String}
  {e : Endpoint} {l : SyncListener} {change : RegistryChange} {now : UInt64}

theorem Derived.of_store (hm : h.InMemory) (hstore : h'.store = h.store) (hdrawn : h.drawn ≤ h'.drawn)
    (hclock : h'.clock = h.clock) : Derived kind h h' where
  inMemory := by
    refine ⟨?_, ?_, hm.fresh.of_find? hdrawn fun id hid => ?_⟩
    · rw [hstore]
      exact hm.memory
    · rw [hstore]
      exact hm.sound
    · rw [hstore]
      exact hid
  drawn := hdrawn
  clock := hclock
  descends r hr := .inl ⟨r, hstore ▸ hr, .refl r⟩
  outlives _ q hq := ⟨q, hstore ▸ hq, .refl q⟩

theorem Derived.of_contents (hm : h.InMemory) (hc : h'.contents = h.contents) : Derived kind h h' := by
  obtain ⟨hstore, hdrawn, hclock, -⟩ := contents_eq_iff.mp hc
  exact .of_store hm hstore (Nat.le_of_eq hdrawn.symm) hclock

theorem Derived.refl (hm : h.InMemory) : Derived kind h h := .of_contents hm rfl

theorem Derived.trans (h₁ : Derived kind h h') (h₂ : Derived kind h' h'') : Derived kind h h'' where
  inMemory := h₂.inMemory
  drawn := Nat.le_trans h₁.drawn h₂.drawn
  clock := h₂.clock.trans h₁.clock
  descends r hr := by
    have hdrawn := h₁.drawn
    rcases h₂.descends r hr with ⟨q, hq, hqr⟩ | ⟨n, hn, hid, hcreated⟩
    · rcases h₁.descends q hq with ⟨p, hp, hpq⟩ | ⟨n, hn, hid, hcreated⟩
      · exact .inl ⟨p, hp, hpq.trans hqr⟩
      · exact .inr ⟨n, hn, hqr.id.trans hid, hqr.created.trans hcreated⟩
    · exact .inr ⟨n, by omega, hid, hcreated.trans h₁.clock⟩
  outlives hkind q hq := by
    obtain ⟨r, hr, hqr⟩ := h₁.outlives hkind q hq
    obtain ⟨s, hs, hrs⟩ := h₂.outlives hkind r hr
    exact ⟨s, hs, hqr.trans hrs⟩

end Hub

namespace Act

open Hub

variable {α : Type} {h : Hub} {kind : ChangeKind} {l : SyncListener} {change : RegistryChange} {now : UInt64}

/-! ### Where records come from -/

/-- What a call to the store does to the records, and that it does nothing if it fails. -/
theorem derived_of_call {a : Act α} (hm : h.InMemory)
    (hok : ∀ x h', a h = .ok x h' → Derived kind h h')
    (hfail : ∀ e h', a h = .error e h' → h'.store = h.store ∧ h.drawn ≤ h'.drawn ∧ h'.clock = h.clock) :
    Derived kind h (a.left h) := by
  cases hrun : a h with
  | ok x h' =>
    rw [left_of_ok hrun]
    exact hok x h' hrun
  | error e h' =>
    rw [left_of_error hrun]
    obtain ⟨hstore, hdrawn, hclock⟩ := hfail e h' hrun
    exact .of_store hm hstore hdrawn hclock

theorem derived_insert (hm : h.InMemory) (owner : String) (e : Endpoint) :
    Derived kind h ((insert owner e).left h) := by
  refine derived_of_call hm (fun u h' hok => ?_) fun err h' hfail => ?_
  · have hm' : h'.InMemory := (preserves_inMemory_insert owner e).of_ok hm hok
    obtain ⟨s, hs, hc⟩ := insert_eq_ok hok
    obtain ⟨rfl, hdrawn, hclock, -⟩ := contents_insert_iff.mp hc
    have hfree : h.store.find? (drawnId (h.drawn + 1)) = none := hm.fresh _ (Nat.lt_succ_self _)
    obtain ⟨-, -, hfind⟩ := Store.find?_insert hm.sound (hm.takes _) hfree hs
    have hmem : ∀ r, r ∈ h'.store ↔ r = e.stored (drawnId (h.drawn + 1)) owner h.clock ∨ r ∈ h.store :=
      fun r => Store.mem_add_iff hfree hfind
    refine ⟨hm', by omega, hclock, fun r hr => ?_, fun _ q hq => ⟨q, (hmem q).mpr (.inr hq), .refl q⟩⟩
    rcases (hmem r).mp hr with rfl | hr
    · exact .inr ⟨h.drawn + 1, Nat.lt_succ_self _, rfl, rfl⟩
    · exact .inl ⟨r, hr, .refl r⟩
  · obtain ⟨hstore, hdrawn, hclock, -⟩ := insert_eq_error hfail
    exact ⟨hstore, hdrawn, hclock⟩

theorem derived_update (hm : h.InMemory) (owner : String) (e : Endpoint) :
    Derived kind h ((update owner e).left h) := by
  refine derived_of_call hm (fun b h' hok => ?_) fun err h' hfail => ?_
  · have hm' : h'.InMemory := (preserves_inMemory_update owner e).of_ok hm hok
    obtain ⟨s, hs, hc⟩ := update_eq_ok hok
    obtain ⟨rfl, hdrawn, hclock, -⟩ := contents_store_iff.mp hc
    have hcol : h.store.TakesColumns e.columns := by
      intro he
      rw [hm.memory] at he
      cases he
    obtain ⟨t, b', ht, -, -, -, hfind⟩ := Store.exists_update hm.sound owner e.url hcol h.clock
    rw [hs] at ht
    cases ht
    have hcontinues : ∀ q : StoredEndpoint, q.Continues (h.store.overwrite owner e.url e.columns h.clock q) :=
      fun q => ⟨Store.overwrite_id, Store.overwrite_owner, Store.overwrite_url, Store.overwrite_created⟩
    refine ⟨hm', Nat.le_of_eq hdrawn.symm, hclock, fun r hr => ?_, fun _ q hq => ?_⟩
    · obtain ⟨q, hq, rfl⟩ := (Store.mem_overwrite_iff hm.sound hfind).mp hr
      exact .inl ⟨q, hq, hcontinues q⟩
    · exact ⟨_, (Store.mem_overwrite_iff hm.sound hfind).mpr ⟨q, hq, rfl⟩, hcontinues q⟩
  · obtain ⟨hstore, hdrawn, hclock, -⟩ := contents_eq_iff.mp (update_eq_error hfail)
    exact ⟨hstore, Nat.le_of_eq hdrawn.symm, hclock⟩

theorem derived_deleteByUrl (hm : h.InMemory) (owner url : String) :
    Derived .deleted h ((deleteByUrl owner url).left h) := by
  refine derived_of_call hm (fun n h' hok => ?_) fun err h' hfail => ?_
  · have hm' : h'.InMemory := (preserves_inMemory_deleteByUrl owner url).of_ok hm hok
    obtain ⟨s, hs, hc⟩ := deleteByUrl_eq_ok hok
    obtain ⟨rfl, hdrawn, hclock, -⟩ := contents_store_iff.mp hc
    obtain ⟨t, m, ht, -, -, hfind⟩ := Store.exists_deleteByUrl hm.sound owner url
    rw [hs] at ht
    cases ht
    refine ⟨hm', Nat.le_of_eq hdrawn.symm, hclock, fun r hr => ?_, fun hkind => absurd rfl hkind⟩
    exact .inl ⟨r, ((Store.mem_filter_iff hfind).mp hr).1, .refl r⟩
  · obtain ⟨hstore, hdrawn, hclock, -⟩ := contents_eq_iff.mp (deleteByUrl_eq_error hfail)
    exact ⟨hstore, Nat.le_of_eq hdrawn.symm, hclock⟩

theorem preserves_derived {a : Act α} (hstep : ∀ g : Hub, g.InMemory → Derived kind g (a.left g)) :
    Preserves (Derived kind h) a :=
  fun g hg => hg.trans (hstep g hg.inMemory)

theorem lastingAt_derived (kind : ChangeKind) (h : Hub) :
    LastingAt kind (fun _ => True) (fun _ _ => True) (Derived kind h) where
  select owner _ := preserves_derived fun g hg => .of_contents hg (keeps_contents_select owner g)
  applyChange owner e _ _ := by
    refine preserves_applyChange (fun _ => preserves_derived fun g hg => derived_insert hg owner e)
      (fun _ => preserves_derived fun g hg => derived_update hg owner e) ?_
    rintro rfl
    exact preserves_derived fun g hg => derived_deleteByUrl hg owner e.url
  publish ev _ := by
    refine preserves_derived fun g hg => .of_store hg ?_ (Nat.le_of_eq ?_) ?_
    · exact congrArg Contents.store (contents_publish g ev)
    · exact (congrArg Contents.drawn (contents_publish g ev)).symm
    · exact congrArg Contents.clock (contents_publish g ev)

/-- **A listener** that is told a change makes its records of those that were there, however this ends. -/
theorem derived_of_syncChange (hm : h.InMemory) (l : SyncListener) (change : RegistryChange) :
    Derived change.kind h ((syncChange l change).left h) :=
  (lastingAt_derived change.kind h).syncChange rfl (fun _ _ _ _ => ⟨trivial, fun _ _ _ _ => trivial⟩) h (.refl hm)

/-- **What a listener writes** for a change, in memory. -/
theorem wrote_of_syncChange (hm : h.InMemory) (hf : h.faults = []) (l : SyncListener) (change : RegistryChange) :
    Wrote change.kind (l.writesOf change) h ((syncChange l change).left h) := by
  unfold SyncListener.writesOf
  by_cases hkind : change.kind = .ignored
  · have hnone : (syncChange l change).left h = h := by
      unfold syncChange
      rw [if_pos hkind]
      rfl
    rw [if_pos hkind, hnone]
    exact .refl hm.stocked
  rw [if_neg hkind]
  cases hread : Payload.read l.mapping change.value with
  | error err =>
    have hrefused : (syncChange l change).left h = h := by
      unfold syncChange
      rw [if_neg hkind, hread]
      rfl
    rw [hrefused]
    exact .refl hm.stocked
  | ok es =>
    by_cases hes : es = []
    · have hnothing : (syncChange l change).left h = h := by
        unfold syncChange
        rw [if_neg hkind, hread, hes]
        rfl
      have hwrites : l.contexts.flatMap (l.writes es) = [] := by
        refine List.flatMap_eq_nil_iff.mpr fun route _ => ?_
        unfold SyncListener.writes
        rw [hes]
        cases route.owner <;> rfl
      dsimp only
      rw [hnothing, hwrites]
      exact .refl hm.stocked
    · have haccepts : ∀ w ∈ l.contexts.flatMap (l.writes es),
          h.Accepts (h.drawn + (l.contexts.flatMap (l.writes es)).length) w.1 w.2 :=
        fun w _ => hm.accepts _ _ _
      obtain ⟨h', hserve⟩ := exists_serve hkind (.of_faultless hf) hm.stocked haccepts (Nat.le_refl _)
      rw [left_of_ok (syncChange_of_ok hkind hread hes hserve)]
      exact wrote_of_serve hkind hm.stocked haccepts (Nat.le_refl _) hserve

end Act

namespace Hub

variable {h h' h'' : Hub} {kind : ChangeKind} {ws : List (String × Endpoint)} {owner url : String}
  {e : Endpoint} {l : SyncListener} {change : RegistryChange} {now : UInt64}

/-! ### Place by place -/

/-- A write that shows is seen in the record that continues the one of before, or in a new one. -/
theorem Derived.of_place (hd : Derived kind h h') (hkind : kind ≠ .deleted) {r : StoredEndpoint}
    (hr : r ∈ h'.store) (ho : r.owner = owner) (hu : r.url = url) :
    (∃ q ∈ h.store, q.Continues r) ∨
      ¬ h.Occupied owner url ∧ r.created = h.clock ∧ ∃ n, h.drawn < n ∧ r.id = drawnId n := by
  by_cases hocc : h.Occupied owner url
  · left
    obtain ⟨q, hq, hqo, hqu⟩ := hocc
    obtain ⟨x, hx, hqx⟩ := hd.outlives hkind q hq
    have hsame : x = r := hd.inMemory.sound.eq_of_place hx hr
      (hqx.owner.trans (hqo.trans ho.symm)) (hqx.url.trans (hqu.trans hu.symm))
    exact ⟨q, hq, hsame ▸ hqx⟩
  · rcases hd.descends r hr with ⟨q, hq, hqr⟩ | ⟨n, hn, hid, hcreated⟩
    · exact .inl ⟨q, hq, hqr⟩
    · exact .inr ⟨hocc, hcreated, n, hn, hid⟩

/-- **The effect of a delivered change** on the records of a store in memory. -/
theorem replaced_of_delivered (hm : h.InMemory) (hf : h.faults = []) (l : SyncListener) (change : RegistryChange)
    (now : UInt64) : Replaced change.kind (l.writesOf change) now h (delivered l change now h) := by
  -- the time alone is set before the change is told
  let g : Hub := { h with clock := now }
  have hg : g.InMemory := ⟨hm.memory, hm.sound, hm.fresh⟩
  have hw : Wrote change.kind (l.writesOf change) g (delivered l change now h) :=
    Act.wrote_of_syncChange hg hf l change
  have hd : Derived change.kind g (delivered l change now h) := Act.derived_of_syncChange hg l change
  refine ⟨hd.inMemory, hd.drawn, hw.others, fun hkind owner url e he => ?_, fun hkind owner url e he => ?_⟩
  · have hshows : ∃ r ∈ (delivered l change now h).store, r.owner = owner ∧ r.url = url ∧
        r.columns = e.columns ∧ r.updated = now := by
      have hreflects := hw.reflected owner url e he
      have hclock : (delivered l change now h).clock = now := hw.clock
      cases hk : change.kind with
      | added =>
        rw [hk] at hreflects
        obtain ⟨r, hr, ho, hu, hcolumns, hupdated⟩ := hreflects
        exact ⟨r, hr, ho, hu, hcolumns, hupdated.trans hclock⟩
      | updated =>
        rw [hk] at hreflects
        obtain ⟨r, hr, ho, hu, hcolumns, hupdated⟩ := hreflects
        exact ⟨r, hr, ho, hu, hcolumns, hupdated.trans hclock⟩
      | deleted => exact absurd hk hkind
      | ignored =>
        unfold SyncListener.writesOf at he
        rw [if_pos hk] at he
        cases he
    obtain ⟨r, hr, ho, hu, hcolumns, hupdated⟩ := hshows
    exact ⟨r, hr, ho, hu, hcolumns, hupdated, hd.of_place hkind hr ho hu⟩
  · have hreflects := hw.reflected owner url e he
    rw [hkind] at hreflects
    exact hreflects

theorem faultless_delivered (hf : h.faults = []) (l : SyncListener) (change : RegistryChange) (now : UInt64) :
    (delivered l change now h).faults = [] :=
  Act.lasting_faultless.syncChange l change _ hf

end Hub

end RouteSync
