import RouteSync.Proofs.Hub.Effect
import RouteSync.Proofs.Hub.Listing
import RouteSync.Proofs.Hub.Notifying

/-!
# One record by two paths

An instance reaches the store by a pass, which translates what a registry lists, and by a change, which is printed
by the registry, read back by the listener of the key and completed by its route.  For a handler whose mapping is
blank both come to the same: the payload reads back as the instance, whatever its host is, and the endpoints that
are inserted differ in nothing that is stored (`insert_stamp`).  So do the records that the two leave, but for
their ids and dates (`same_record`).
-/

namespace RouteSync

/-- Records that differ in their ids and dates at most. -/
structure StoredEndpoint.Matches (r r' : StoredEndpoint) : Prop where
  owner : r.owner = r'.owner
  url : r.url = r'.url
  columns : r.columns = r'.columns

theorem mem_of_lastWhere {α : Type} {p : α → Bool} {xs : List α} {x : α} (h : lastWhere p xs = some x) :
    x ∈ xs ∧ p x = true :=
  List.mem_filter.mp (List.mem_of_getLast? h)

variable {g g' h h' : Hub} {c : ConnectorId} {key : String} {x : SyncListener} {handler : Handler} {s : Selector}
  {i : Instance}

/-! ### What is inserted -/

/-- The listener's route completes the payload of an instance to what a pass makes of the instance. -/
theorem SyncListener.columns_stamp (x : SyncListener) (handler : Handler) (s : Selector) (i : Instance) :
    (x.stamp (.ofHandler s handler) handler.id (LocalRegistry.described i)).columns =
      (Endpoint.ofInstance i s x.defaultProtocol).columns := rfl

/-- What is stored of an endpoint is its address and its columns. -/
theorem Act.insert_congr {owner : String} {e e' : Endpoint} (hu : e.url = e'.url) (hc : e.columns = e'.columns) :
    Act.insert owner e = Act.insert owner e' := by
  have hstored : e.stored = e'.stored := by
    funext id o now
    simp only [Endpoint.stored, hu, hc]
  unfold Act.insert
  rw [hu, hstored]

/-- **The two paths insert the same.** -/
theorem Act.insert_stamp (x : SyncListener) (handler : Handler) (s : Selector) (i : Instance) :
    Act.insert handler.id (x.stamp (.ofHandler s handler) handler.id (LocalRegistry.described i)) =
      Act.insert handler.id (Endpoint.ofInstance i s x.defaultProtocol) :=
  Act.insert_congr rfl (x.columns_stamp handler s i)

namespace Hub

/-! ### What is left in the store -/

/-- A pass succeeds at which an instance is the first one listed at its address and no record is there. -/
structure Passes (c : ConnectorId) (handler : Handler) (s : Selector) (i : Instance) (g g' : Hub) : Prop where
  sound : g.store.Sound
  fresh : g.DrawsFresh
  takes : g.TakesNew handler s (g.reported c (g.watchKey handler))
  served : g.registrations.connectors.get? handler.discoveryId = some c
  first : (g.reported c (g.watchKey handler)).find? (fun j => j.url == i.url) = some i
  free : ∀ q ∈ g.store, g.store.lists handler.id q = true → q.url ≠ i.url
  passed : Act.fetchAll handler s g = .ok () g'

/-- An instance is registered with success under a key whose listener has the handler's mapping and its route, and
no other route of the handler; and no record is there. -/
structure Tells (c : ConnectorId) (key : String) (x : SyncListener) (handler : Handler) (s : Selector) (i : Instance)
    (h h' : Hub) : Prop where
  present : c < h.connectors.length
  stocked : h.Stocked
  takes : h.TakesWrites (x.contexts.flatMap (x.writes [LocalRegistry.described i]))
  listens : ∃ l, h.watcher c key = some l ∧ h.listeners[l]? = some (.sync x)
  mapping : Mapping.read handler.mapping = .ok x.mapping
  route : .ofHandler s handler ∈ x.contexts
  alone : ∀ route ∈ x.contexts, route.owner = some handler.id → route = .ofHandler s handler
  free : ∀ q ∈ h.store, q.owner = handler.id → q.url ≠ i.url
  registered : Act.registerInstance c key i h = .ok () h'

/-- The records of an owner at an address, of which there is one, have these columns. -/
structure Leaves (h : Hub) (owner url : String) (cols : Columns) : Prop where
  there : ∃ r ∈ h.store, r.owner = owner ∧ r.url = url
  columns : ∀ r ∈ h.store, r.owner = owner → r.url = url → r.columns = cols

theorem Passes.leaves (hp : Passes c handler s i g g') :
    g'.Leaves handler.id i.url (Endpoint.ofInstance i s g.settings.defaultProtocol).columns := by
  have hpassed := passed_of_fetchAll hp.sound hp.fresh hp.takes hp.served hp.passed
  refine ⟨hpassed.filled i (List.mem_of_find?_eq_some hp.first) hp.free, fun r hr ho hu => ?_⟩
  rcases hpassed.entered r hr with hold | ⟨-, -, -, j, hj, hnew⟩
  · exact absurd hu (hp.free r hold (ho ▸ Store.lists_self g.store r))
  · rw [hu, hp.first] at hj
    cases hj
    rw [hnew]
    rfl

/-- What a listener writes last at the place of an instance is the instance, completed by the handler's route. -/
theorem Tells.latest (ht : Tells c key x handler s i h h') {kind : ChangeKind} (hkind : kind ≠ .ignored)
    (hread : Payload.read x.mapping (LocalRegistry.payload i) = .ok [LocalRegistry.described i]) :
    latest (x.contexts.flatMap (x.writes [LocalRegistry.described i])) handler.id i.url =
      some (x.stamp (.ofHandler s handler) handler.id (LocalRegistry.described i)) := by
  have hat : x.WritesAt [LocalRegistry.described i] handler.id i.url :=
    ⟨⟨_, ht.route, rfl⟩, _, List.mem_singleton.mpr rfl, rfl⟩
  have hchange : (LocalRegistry.change key kind i).kind ≠ .ignored := hkind
  have hwrites := SyncListener.writesOf_of_read hchange hread
  obtain ⟨route, e, hroute, he, hlatest⟩ := hat.latest hchange hread
  obtain ⟨hmem, howner⟩ := mem_of_lastWhere hroute
  obtain rfl := ht.alone route hmem (of_decide_eq_true howner)
  obtain rfl := List.mem_singleton.mp (mem_of_lastWhere he).1
  rw [← hwrites, hlatest]

/-- A registration that is told to a listener with success has been written for its routes. -/
theorem Tells.wrote (ht : Tells c key x handler s i h h')
    (hread : Payload.read x.mapping (LocalRegistry.payload i) = .ok [LocalRegistry.described i]) :
    ∃ kind, (kind = .added ∨ kind = .updated) ∧
      Wrote kind (x.contexts.flatMap (x.writes [LocalRegistry.described i])) h h' := by
  obtain ⟨l, hl, hx⟩ := ht.listens
  let r : LocalRegistry := ((h.connector c).registry.register key i).1
  let kind : ChangeKind := if i.pair ∈ (h.instances c key).map Instance.pair then .updated else .added
  have hkind : kind = .added ∨ kind = .updated := by
    by_cases hmem : i.pair ∈ (h.instances c key).map Instance.pair
    · exact .inr (if_pos hmem)
    · exact .inl (if_neg hmem)
  have hne : kind ≠ .ignored := by
    rcases hkind with hk | hk <;> simp [hk]
  let h₁ : Hub := h.modifyConnector c fun k => { k with registry := r }
  have hcontents : h₁.contents = h.contents := rfl
  have hrun : Act.syncChange x (LocalRegistry.change key kind i) h₁ = .ok () h' := by
    have hok := ht.registered
    rw [registerInstance_eq_told ht.present, told, hl] at hok
    dsimp only at hok
    unfold Act.notify at hok
    rw [Act.get_bind] at hok
    have hx₁ : h₁.listeners[l]? = some (.sync x) := hx
    rw [hx₁] at hok
    exact hok
  obtain ⟨es, hes, -, hserve⟩ := Act.syncChange_eq_ok hne hrun
  obtain rfl : [LocalRegistry.described i] = es := Except.ok.inj (hread.symm.trans hes)
  have hwrote := Act.wrote_of_serve hne (ht.stocked.congr hcontents) (ht.takes.congr hcontents) (Nat.le_refl _)
    (hserve (List.cons_ne_nil _ _))
  exact ⟨kind, hkind, hwrote.of_contents_eq hcontents⟩

theorem Tells.leaves (ht : Tells c key x handler s i h h') (hblank : Text.isBlank handler.mapping = true) :
    h'.Leaves handler.id i.url (Endpoint.ofInstance i s x.defaultProtocol).columns := by
  have hplain : x.mapping = .plain := Except.ok.inj (ht.mapping.symm.trans (Mapping.read_of_isBlank hblank))
  have hread : Payload.read x.mapping (LocalRegistry.payload i) = .ok [LocalRegistry.described i] := by
    rw [hplain]
    exact LocalRegistry.read_payload i
  obtain ⟨kind, hkind, hwrote⟩ := ht.wrote hread
  have hne : kind ≠ .ignored := by
    rcases hkind with hk | hk <;> simp [hk]
  have hreflects := hwrote.reflected handler.id i.url _ (ht.latest hne hread)
  obtain ⟨r, hr, ho, hu, hcols⟩ : ∃ r ∈ h'.store, r.owner = handler.id ∧ r.url = i.url ∧
      r.columns = (Endpoint.ofInstance i s x.defaultProtocol).columns := by
    rcases hkind with rfl | rfl <;> obtain ⟨r, hr, ho, hu, hcols, -⟩ := hreflects <;>
      exact ⟨r, hr, ho, hu, hcols.trans (x.columns_stamp handler s i)⟩
  refine ⟨⟨r, hr, ho, hu⟩, fun q hq hqo hqu => ?_⟩
  rw [hwrote.stocked.sound.eq_of_place hq hr (hqo.trans ho.symm) (hqu.trans hu.symm), hcols]

/-- **Both paths keep the same record of an instance.**  For a handler with a blank mapping the payload by which
the registry makes an instance known, whatever its host is, reads back as one endpoint with the address, weight and
status of the instance; what a listener then inserts for the handler's route is what a pass inserts, if they have
the same default protocol, as they have for the listeners that subscriptions make; and the records that the two
leave in their stores are equal, but for ids and dates. -/
theorem same_record (hblank : Text.isBlank handler.mapping = true) (s : Selector) (i : Instance) :
    (∃ e, Mapping.read handler.mapping = .ok .plain ∧
      Payload.read .plain (LocalRegistry.payload i) = .ok [e] ∧
      e.url = i.url ∧ e.weight = i.weight ∧ e.status = i.status ∧
      ∀ x : SyncListener,
        x.writes [e] (.ofHandler s handler) = [(handler.id, x.stamp (.ofHandler s handler) handler.id e)] ∧
        Act.insert handler.id (x.stamp (.ofHandler s handler) handler.id e) =
          Act.insert handler.id (Endpoint.ofInstance i s x.defaultProtocol)) ∧
    (∀ h, Act.buildListener handler s h = .ok h.listeners.length { h with listeners := h.listeners ++
      [.sync ⟨.plain, [.ofHandler s handler], handler.discoveryId, h.settings.defaultProtocol⟩] }) ∧
    ∀ (c c' : ConnectorId) (key : String) (x : SyncListener) (g g' h h' : Hub),
      Passes c handler s i g g' → Tells c' key x handler s i h h' →
      x.defaultProtocol = g.settings.defaultProtocol →
      (∃ r ∈ g'.store, r.owner = handler.id ∧ r.url = i.url) ∧
      (∃ r ∈ h'.store, r.owner = handler.id ∧ r.url = i.url) ∧
      ∀ r ∈ g'.store, r.owner = handler.id → r.url = i.url →
        ∀ r' ∈ h'.store, r'.owner = handler.id → r'.url = i.url → r.Matches r' := by
  have hread := Mapping.read_of_isBlank hblank
  refine ⟨⟨_, hread, LocalRegistry.read_payload i, rfl, rfl, rfl, fun x => ⟨rfl, Act.insert_stamp x handler s i⟩⟩,
    fun h => Act.buildListener_of_read hread, ?_⟩
  intro c c' key x g g' h h' hp ht hprotocol
  have hpass := hp.leaves
  have htold := ht.leaves hblank
  rw [hprotocol] at htold
  refine ⟨hpass.there, htold.there, fun r hr ho hu r' hr' ho' hu' => ?_⟩
  exact ⟨ho.trans ho'.symm, hu.trans hu'.symm, (hpass.columns r hr ho hu).trans (htold.columns r' hr' ho' hu').symm⟩

/-- A hub with a blank default protocol on which an id is registered; the host of its instance needs escapes, and
namespace and mapping are blank. -/
def blankProtocol : Hub :=
  (create { defaultProtocol := "" } (.memory .empty)).after 0 (.create { id := "d1", registryType := "local" })

def quotedHost : Instance := ⟨"\\\"\n:é", 8080, -5, 7⟩

theorem same_record_quotedHost : ∃ g' h',
    Act.fetchAll ⟨"h1", "d1", "/k", " ", ""⟩ ⟨"s1", "one", "p", " "⟩
      (blankProtocol.after 0 (.register "/k" quotedHost)) = .ok () g' ∧
    Act.registerInstance 0 "/k" quotedHost
      (blankProtocol.after 0 (.subscribe ⟨"h1", "d1", "/k", " ", ""⟩ ⟨"s1", "one", "p", " "⟩)) = .ok () h' ∧
    ∃ r ∈ g'.store, ∃ r' ∈ h'.store, r.url = quotedHost.url ∧ r.Matches r' := by
  let handler : Handler := ⟨"h1", "d1", "/k", " ", ""⟩
  let s : Selector := ⟨"s1", "one", "p", " "⟩
  let x : SyncListener := ⟨.plain, [.ofHandler s handler], "d1", ""⟩
  let g : Hub := blankProtocol.after 0 (.register "/k" quotedHost)
  have hread : Mapping.read handler.mapping = .ok .plain := Mapping.read_of_isBlank (by decide)
  have hr : Runs 0 (fun _ _ => True) (create { defaultProtocol := "" } (.memory .empty)) blankProtocol :=
    .step .refl trivial
  have hm := inMemory_create { defaultProtocol := "" }
  have hg : g.InMemory := (hr.step trivial).inMemory hm
  have hempty : ∀ q : StoredEndpoint, q ∉ blankProtocol.store := fun q hq => by cases hq
  -- the listener that the subscription makes
  obtain ⟨h, hsubscribe, hwiring, hstore, hdrawn⟩ := Act.subscribe_wired (hr.wired (fresh_create _ _)) s
    (show blankProtocol.registrations.connectors.get? handler.discoveryId = some 0 by decide +kernel)
    (by decide +kernel) hread
  have hafter : blankProtocol.after 0 (.subscribe handler s) = h := Act.left_of_ok hsubscribe
  have hh : h.InMemory := hafter ▸ (hr.step trivial).inMemory hm
  have hpass := Act.eq_ok_of_isOk (show (Act.fetchAll handler s).isOk g = true by decide +kernel)
  have hregister := Act.eq_ok_of_isOk (show (Act.registerInstance 0 "/k" quotedHost).isOk h = true by
    rw [← hafter]
    decide +kernel)
  have hpasses : Passes 0 handler s quotedHost g ((Act.fetchAll handler s).left g) := {
    sound := hg.sound
    fresh := hg.fresh
    takes := fun i _ n _ => hg.takes _
    served := by decide +kernel
    first := by decide +kernel
    free := fun q hq => absurd hq (hempty q)
    passed := hpass }
  have htells : Tells 0 "/k" x handler s quotedHost h ((Act.registerInstance 0 "/k" quotedHost).left h) := {
    present := by
      rw [← hafter]
      decide +kernel
    stocked := hh.stocked
    takes := fun w _ => hh.accepts _ w.1 w.2
    listens := by
      have hwatchers : (h.connector 0).registry.watchers = _ := congrArg Wiring.watchers hwiring
      have hlisteners : h.listeners = _ := congrArg Wiring.listeners hwiring
      refine ⟨0, ?_, ?_⟩
      · unfold watcher
        rw [hwatchers]
        decide +kernel
      · rw [hlisteners]
        rfl
    mapping := hread
    route := List.mem_singleton.mpr rfl
    alone := fun route hroute _ => List.mem_singleton.mp hroute
    free := fun q hq => absurd (hstore ▸ hq) (hempty q)
    registered := hregister }
  obtain ⟨⟨r, hr, ho, hu⟩, ⟨r', hr', ho', hu'⟩, hsame⟩ :=
    (same_record (by decide) s quotedHost).2.2 0 0 "/k" x g _ h _ hpasses htells rfl
  rw [hafter]
  exact ⟨_, _, hpass, hregister, r, hr, r', hr', hu, hsame r hr ho hu r' hr' ho' hu'⟩

end Hub

end RouteSync
