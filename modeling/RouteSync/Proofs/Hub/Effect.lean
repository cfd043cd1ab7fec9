import RouteSync.Proofs.Hub.Redelivery

/-!
# The effect of a change, record by record

A payload may name an address more than once, and several routes of a listener may belong to one owner, so a
place may be written often for one change.  The last route of the owner and the last entry at the address
decide (`latest_writesOf`).  With what a delivery does place by place this gives every record after a change in
terms of the routes and the entries (`effect_of_change`).
-/

namespace RouteSync

/-- The last item that a test accepts. -/
def lastWhere {α : Type} (p : α → Bool) (xs : List α) : Option α := (xs.filter p).getLast?

/-- A listener whose change names `es` writes at a place: a route has the owner, and an entry the address. -/
def SyncListener.WritesAt (l : SyncListener) (es : List Endpoint) (owner url : String) : Prop :=
  (∃ c ∈ l.contexts, c.owner = some owner) ∧ ∃ e ∈ es, e.url = url

/-- A record as an addition or an update at time `now` leaves it, if `h` held the records before: it has the
columns of an entry that was written for a route, and it is the record of before or a new one. -/
structure StoredEndpoint.Upserted (l : SyncListener) (route : RouteRecord) (e : Endpoint) (now : UInt64)
    (h : Hub) (r : StoredEndpoint) : Prop where
  weight : r.columns.weight = e.weight
  status : r.columns.status = e.status
  protocol : r.columns.protocol = if Text.isBlank e.protocol then l.defaultProtocol else e.protocol
  props : r.columns.props = e.props.getD ""
  namespaceId : r.columns.namespaceId = (e.namespaceId.filter fun n => !Text.isBlank n).getD route.namespaceId
  updated : r.updated = now
  /-- A record that was there keeps its id and its age. -/
  kept : ∀ q ∈ h.store, q.owner = r.owner → q.url = r.url → r.id = q.id ∧ r.created = q.created
  /-- Any other has an id that was free. -/
  fresh : ¬ h.Occupied r.owner r.url → h.store.find? r.id = none ∧ r.created = now

variable {l : SyncListener} {change : RegistryChange} {es : List Endpoint} {owner url : String}

/-! ### Which write is the last -/

theorem lastWhere_cons {α : Type} (p : α → Bool) (x : α) (xs : List α) :
    lastWhere p (x :: xs) = (lastWhere p xs).or (if p x then some x else none) := by
  unfold lastWhere
  cases hp : p x with
  | true =>
    rw [List.filter_cons_of_pos hp, List.getLast?_cons, if_pos rfl]
    cases (xs.filter p).getLast? <;> rfl
  | false => rw [List.filter_cons_of_neg (by simp [hp]), if_neg (by simp), Option.or_none]

theorem exists_lastWhere {α : Type} {p : α → Bool} {xs : List α} (hx : ∃ x ∈ xs, p x = true) :
    ∃ y, lastWhere p xs = some y := by
  obtain ⟨x, hx, hp⟩ := hx
  have hne : xs.filter p ≠ [] := List.ne_nil_of_mem (List.mem_filter.mpr ⟨hx, hp⟩)
  exact ⟨_, List.getLast?_eq_some_getLast hne⟩

namespace SyncListener

theorem namespaceId_stamp (l : SyncListener) (route : RouteRecord) (owner : String) (e : Endpoint) :
    (l.stamp route owner e).columns.namespaceId =
      (e.namespaceId.filter fun n => !Text.isBlank n).getD route.namespaceId := by
  unfold stamp Endpoint.columns
  cases e.namespaceId with
  | none => rfl
  | some n => cases hn : Text.isBlank n <;> simp [Option.filter, hn]

/-- Among the writes for one route the last entry at the address shows. -/
theorem latest_writes (l : SyncListener) (es : List Endpoint) (route : RouteRecord) (owner url : String) :
    latest (l.writes es route) owner url = if route.owner = some owner then
      (lastWhere (fun e => e.url = url) es).map (l.stamp route owner) else none := by
  unfold writes
  cases hroute : route.owner with
  | none => rfl
  | some o =>
    dsimp only
    by_cases ho : o = owner
    · subst ho
      rw [if_pos rfl]
      induction es with
      | nil => rfl
      | cons e es ih =>
        rw [List.map_cons, latest, ih, lastWhere_cons, Option.map_or]
        by_cases hu : e.url = url <;> simp [stamp, hu]
    · rw [if_neg (fun hsome => ho (Option.some.inj hsome)), latest_eq_none_iff]
      intro w hw hplace
      obtain ⟨e, -, rfl⟩ := List.mem_map.mp hw
      exact ho hplace.1

/-- **The last write at a place** is that of the last entry at the address for the last route of the owner. -/
theorem latest_writesOf (hkind : change.kind ≠ .ignored)
    (hread : Payload.read l.mapping change.value = .ok es) (owner url : String) :
    latest (l.writesOf change) owner url =
      (lastWhere (fun c : RouteRecord => c.owner = some owner) l.contexts).bind fun route =>
        (lastWhere (fun e => e.url = url) es).map (l.stamp route owner) := by
  rw [writesOf_of_read hkind hread]
  induction l.contexts with
  | nil => rfl
  | cons route routes ih =>
    rw [List.flatMap_cons, latest_append, ih, latest_writes, lastWhere_cons]
    -- an address that no entry has is not written for any route
    cases lastWhere (fun e => e.url = url) es with
    | none => simp
    | some e =>
      cases lastWhere (fun c : RouteRecord => c.owner = some owner) routes with
      | some later => rfl
      | none => by_cases ho : route.owner = some owner <;> simp [ho]

theorem WritesAt.latest (hkind : change.kind ≠ .ignored)
    (hread : Payload.read l.mapping change.value = .ok es) (hw : l.WritesAt es owner url) :
    ∃ route e, lastWhere (fun c : RouteRecord => c.owner = some owner) l.contexts = some route ∧
      lastWhere (fun e => e.url = url) es = some e ∧
        RouteSync.latest (l.writesOf change) owner url = some (l.stamp route owner e) := by
  obtain ⟨⟨c, hc, hco⟩, e, he, hu⟩ := hw
  obtain ⟨route, hroute⟩ := exists_lastWhere (p := fun c : RouteRecord => c.owner = some owner)
    ⟨c, hc, decide_eq_true hco⟩
  obtain ⟨last, hlast⟩ := exists_lastWhere (p := fun e : Endpoint => e.url = url) ⟨e, he, decide_eq_true hu⟩
  refine ⟨route, last, hroute, hlast, ?_⟩
  rw [latest_writesOf hkind hread, hroute, hlast]
  rfl

theorem latest_of_not_writesAt (hkind : change.kind ≠ .ignored)
    (hread : Payload.read l.mapping change.value = .ok es) (hw : ¬ l.WritesAt es owner url) :
    RouteSync.latest (l.writesOf change) owner url = none := by
  rw [latest_eq_none_iff]
  rintro w hmem ⟨ho, hu⟩
  obtain ⟨es', hread', e, he, heu⟩ := named_of_mem_writesOf hmem
  rw [hread] at hread'
  cases hread'
  rw [writesOf_of_read hkind hread] at hmem
  obtain ⟨route, hroute, hmem⟩ := List.mem_flatMap.mp hmem
  exact hw ⟨⟨route, hroute, (owner_of_mem_writes hmem).trans (congrArg some ho)⟩, e, he, heu.trans hu⟩

end SyncListener

namespace Hub

variable {h h' : Hub} {now : UInt64}

/-- A listener that serves its routes succeeds. -/
theorem syncChange_eq_delivered (hm : h.InMemory) (hf : h.faults = []) (hkind : change.kind ≠ .ignored)
    (hread : Payload.read l.mapping change.value = .ok es) (hne : es ≠ []) (now : UInt64) :
    Act.syncChange l change { h with clock := now } = .ok () (delivered l change now h) := by
  let g : Hub := { h with clock := now }
  have hg : g.InMemory := ⟨hm.memory, hm.sound, hm.fresh⟩
  have haccepts : ∀ w ∈ l.contexts.flatMap (l.writes es),
      g.Accepts (g.drawn + (l.contexts.flatMap (l.writes es)).length) w.1 w.2 := fun _ _ => hg.accepts _ _ _
  obtain ⟨g', hserve⟩ := Act.exists_serve hkind (show g.Reliable from .of_faultless hf) hg.stocked haccepts
    (Nat.le_refl _)
  have hok : Act.syncChange l change g = .ok () g' := Act.syncChange_of_ok hkind hread hne hserve
  have hleft : delivered l change now h = g' := Act.left_of_ok hok
  rw [hleft]
  exact hok

/-- What an addition or an update leaves at a place that it writes. -/
theorem Replaced.upserts {kind : ChangeKind} {ws : List (String × Endpoint)} {route : RouteRecord}
    {e : Endpoint} (hr : Replaced kind ws now h h') (hm : h.InMemory) (hkind : kind ≠ .deleted)
    (he : latest ws owner url = some (l.stamp route owner e)) :
    ∃ r, (∀ q, q ∈ h'.store ∧ q.owner = owner ∧ q.url = url ↔ q = r) ∧ r.Upserted l route e now h := by
  obtain ⟨r, hmem, rfl, rfl, hcolumns, hupdated, horigin⟩ := hr.upserted hkind _ _ _ he
  refine ⟨r, fun q => ⟨?_, ?_⟩, ?_⟩
  · rintro ⟨hq, ho, hu⟩
    exact hr.inMemory.sound.eq_of_place hq hmem ho hu
  · rintro rfl
    exact ⟨hmem, rfl, rfl⟩
  · have hcolumn : ∀ {α : Type} (f : Columns → α), f r.columns = f (l.stamp route r.owner e).columns :=
      fun f => congrArg f hcolumns
    refine ⟨hcolumn (·.weight), hcolumn (·.status), hcolumn (·.protocol), hcolumn (·.props),
      (hcolumn (·.namespaceId)).trans (l.namespaceId_stamp route r.owner e), hupdated,
      fun q hq ho hu => ?_, fun hfree => ?_⟩
    · rcases horigin with ⟨p, hp, hpr⟩ | ⟨hfree, -⟩
      · obtain rfl : p = q := hm.sound.eq_of_place hp hq (hpr.owner.symm.trans ho.symm)
          (hpr.url.symm.trans hu.symm)
        exact ⟨hpr.id, hpr.created⟩
      · exact absurd ⟨q, hq, ho, hu⟩ hfree
    · rcases horigin with ⟨p, hp, hpr⟩ | ⟨-, hcreated, n, hn, hid⟩
      · exact absurd ⟨p, hp, hpr.owner.symm, hpr.url.symm⟩ hfree
      · exact ⟨hid ▸ hm.fresh n hn, hcreated⟩

/-- **The effect of a change.**  A listener that is told of a change whose payload names endpoints, over a store
in memory, takes it.  After an addition or an update there is exactly one record for every owner of a route and
every address in the payload, with the columns of the last entry at the address, the namespace of the last
route of the owner in the place of a blank one, the date of now and the id and the age of the record of
before, if there was one.  A deletion takes exactly the records at these places away.  Every other record of
any owner is as it was.  Every store that is reached from the empty one in memory is such a store
(`Runs.inMemory`). -/
theorem effect_of_change (hm : h.InMemory) (hf : h.faults = []) (change : RegistryChange)
    (hread : Payload.read l.mapping change.value = .ok es) (hne : es ≠ []) (now : UInt64) :
    (change.kind = .added ∨ change.kind = .updated →
      ∃ h', Act.syncChange l change { h with clock := now } = .ok () h' ∧
        (∀ owner url, l.WritesAt es owner url → ∃ route e r,
          lastWhere (fun c : RouteRecord => c.owner = some owner) l.contexts = some route ∧
          lastWhere (fun e : Endpoint => e.url = url) es = some e ∧
          (∀ q, q ∈ h'.store ∧ q.owner = owner ∧ q.url = url ↔ q = r) ∧ r.Upserted l route e now h) ∧
        ∀ r, ¬ l.WritesAt es r.owner r.url → (r ∈ h'.store ↔ r ∈ h.store)) ∧
    (change.kind = .deleted →
      ∃ h', Act.syncChange l change { h with clock := now } = .ok () h' ∧
        ∀ r, r ∈ h'.store ↔ r ∈ h.store ∧ ¬ l.WritesAt es r.owner r.url) := by
  have hr := replaced_of_delivered hm hf l change now
  have hothers : change.kind ≠ .ignored → ∀ r : StoredEndpoint, ¬ l.WritesAt es r.owner r.url →
      (r ∈ (delivered l change now h).store ↔ r ∈ h.store) := by
    intro hkind r hw
    exact hr.others _ _ (SyncListener.latest_of_not_writesAt hkind hread hw) r rfl rfl
  constructor
  · intro hup
    obtain ⟨hkind, hdeleted⟩ : change.kind ≠ .ignored ∧ change.kind ≠ .deleted := by
      rcases hup with hk | hk <;> rw [hk] <;> decide
    refine ⟨_, syncChange_eq_delivered hm hf hkind hread hne now, fun owner url hw => ?_, hothers hkind⟩
    obtain ⟨route, e, hroute, hlast, hlatest⟩ := hw.latest hkind hread
    obtain ⟨r, honly, hupserted⟩ := hr.upserts hm hdeleted hlatest
    exact ⟨route, e, r, hroute, hlast, honly, hupserted⟩
  · intro hdeleted
    have hkind : change.kind ≠ .ignored := by
      rw [hdeleted]
      decide
    refine ⟨_, syncChange_eq_delivered hm hf hkind hread hne now, fun r => ?_⟩
    by_cases hw : l.WritesAt es r.owner r.url
    · obtain ⟨route, e, -, -, hlatest⟩ := hw.latest hkind hread
      have hgone := hr.deleted hdeleted _ _ _ hlatest
      exact ⟨fun hmem => absurd ⟨r, hmem, rfl, rfl⟩ hgone, fun hmem => absurd hw hmem.2⟩
    · rw [hothers hkind r hw]
      exact ⟨fun hmem => ⟨hmem, hw⟩, fun hmem => hmem.1⟩

/-- A payload that names one address twice, for a listener with two routes of one owner, over a store that has a
record there; the same payload then as a deletion. -/
theorem effect_of_change_repeatedAddress :
    let l : SyncListener := ⟨.plain, [⟨"p", "s1", "one", "n1", some "h", none⟩,
      ⟨"p", "s2", "two", "n2", some "h", none⟩, ⟨"p", "s3", "three", "n3", none, none⟩], "d", "grpc://"⟩
    let h := withLive (holding (.memory .empty) staleRecord) []
    let value := "[\x7b\"url\":\"a:1\",\"weight\":7\x7d," ++
      "\x7b\"url\":\"b:2\"\x7d,\x7b\"url\":\"a:1\",\"weight\":9\x7d]"
    h.InMemory ∧
      (∃ h', Act.syncChange l ⟨"/k", value, .updated⟩ { h with clock := 7 } = .ok () h' ∧
        ∃ r, (∀ q, q ∈ h'.store ∧ q.owner = "h" ∧ q.url = "a:1" ↔ q = r) ∧ r.id = "id-1" ∧ r.created = 1 ∧
          r.updated = 7 ∧ r.columns.weight = 9 ∧ r.columns.namespaceId = "n2" ∧
          r.columns.protocol = "grpc://") ∧
      ∃ h', Act.syncChange l ⟨"/k", value, .deleted⟩ { h with clock := 7 } = .ok () h' ∧
        staleRecord ∉ h'.store := by
  intro l h value
  have hi : (Store.memory .empty).insert staleRecord = .ok (holding (.memory .empty) staleRecord) := rfl
  have hstore : h.store.Reached := .insert .memory (fun he => by cases he) rfl hi
  have hm : h.InMemory := ⟨rfl, hstore.sound,
    drawsFresh_holding Store.Reached.memory.sound (fun he => by cases he) (fun _ => rfl) hi (by decide) []⟩
  have hthere : staleRecord ∈ h.store := Store.mem_iff.mpr (by decide +kernel)
  let e : Endpoint := { Payload.start with url := "a:1", weight := 9 }
  let es : List Endpoint := [{ e with weight := 7 }, { Payload.start with url := "b:2" }, e]
  have hread : Payload.read l.mapping value = .ok es := by
    have hsome : (Payload.read l.mapping value).toOption = some es := by decide +kernel
    cases hr : Payload.read l.mapping value with
    | error err =>
      rw [hr] at hsome
      cases hsome
    | ok es' =>
      rw [hr] at hsome
      exact congrArg Except.ok (Option.some.inj hsome)
  have hwrites : l.WritesAt es "h" "a:1" :=
    ⟨⟨l.contexts.head (by simp [l]), by simp [l], rfl⟩, e, by simp [es], rfl⟩
  refine ⟨hm, ?_, ?_⟩
  · obtain ⟨h', hok, hupserted, -⟩ :=
      (effect_of_change hm rfl ⟨"/k", value, .updated⟩ hread (by simp [es]) 7).1 (.inr rfl)
    obtain ⟨route, last, r, hroute, hlast, honly, hr⟩ := hupserted "h" "a:1" hwrites
    obtain ⟨-, ho, hu⟩ := (honly r).mpr rfl
    obtain ⟨hid, hcreated⟩ := hr.kept staleRecord hthere ho.symm hu.symm
    -- the second route is the last of its owner, and the third entry the last at its address
    have hsecond : some route = l.contexts[1]? := hroute.symm
    have hthird : some last = some e := hlast.symm
    cases hsecond
    cases hthird
    exact ⟨h', hok, r, honly, hid, hcreated, hr.updated, hr.weight, hr.namespaceId, hr.protocol⟩
  · obtain ⟨h', hok, hgone⟩ :=
      (effect_of_change hm rfl ⟨"/k", value, .deleted⟩ hread (by simp [es]) 7).2 rfl
    exact ⟨h', hok, fun hmem => ((hgone staleRecord).mp hmem).2 hwrites⟩

end Hub

end RouteSync
