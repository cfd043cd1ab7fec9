import Mathlib.Tactic.Common
import RouteSync.Hub.Discovery
import RouteSync.Proofs.Hub.Contents

/-!
# What lasts through the work of a hub

Listeners and reconciliation work on a hub by calls, writes to the store, counts and publications only.
What none of these ends lasts through everything that is made of them: telling a listener about a change,
and a whole reconciliation pass.  For a listener it is enough to look at the calls that it can make
(`LastingAt.syncChange`).
-/

namespace RouteSync.Act

/-- No call, write, count or publication of endpoints ends what holds of the hub. -/
structure Lasting (P : Hub → Prop) : Prop where
  call : ∀ entry, entry.event? = none → Preserves P (call entry)
  publish : ∀ e, e.group = .discoveredEndpoint → Preserves P (publish e)
  count : ∀ k n, Preserves P (count k n)
  insert : ∀ owner e, Preserves P (insert owner e)
  update : ∀ owner e, Preserves P (update owner e)
  deleteByIds : ∀ ids, Preserves P (deleteByIds ids)
  deleteByUrl : ∀ owner url, Preserves P (deleteByUrl owner url)

variable {P : Hub → Prop}

theorem preserves_registryCall (hcall : ∀ label r, Preserves P (call (.registry label r))) (c : ConnectorId)
    (r : RegistryCall) : Preserves P (registryCall c r) := by
  refine preserves_bind preserves_get fun h => ?_
  split
  · exact hcall _ r
  · exact preserves_pure _

theorem preserves_selectInstances (hcall : ∀ label r, Preserves P (call (.registry label r))) (c : ConnectorId)
    (key : String) : Preserves P (selectInstances c key) := by
  refine preserves_bind (preserves_registryCall hcall c _) fun _ => preserves_bind preserves_get fun h => ?_
  dsimp only
  split
  · exact preserves_pure _
  · exact preserves_ofExcept _ _

theorem keeps_selectInstances {σ : Type} {view : Hub → σ}
    (hcall : ∀ label r, Keeps view (call (.registry label r))) (c : ConnectorId) (key : String) :
    Keeps view (selectInstances c key) :=
  keeps_iff.mpr fun v => preserves_selectInstances (fun label r => keeps_iff.mp (hcall label r) v) c key

theorem preserves_applyChange {owner : String} {e : Endpoint} {kind : ChangeKind}
    (hi : kind ≠ .deleted → Preserves P (insert owner e)) (hu : kind ≠ .deleted → Preserves P (update owner e))
    (hd : kind = .deleted → Preserves P (deleteByUrl owner e.url)) : Preserves P (applyChange kind owner e) := by
  have hupsert : kind ≠ .deleted → Preserves P (do if !(← update owner e) then insert owner e) := by
    intro hkind
    refine preserves_bind (hu hkind) fun b => ?_
    cases b
    · exact hi hkind
    · exact preserves_pure _
  cases kind with
  | added => exact hupsert (by simp)
  | updated => exact hupsert (by simp)
  | deleted => exact preserves_discard (hd rfl)
  | ignored => exact preserves_pure _

/-- No selection for one of certain owners, no write of a change of one kind for such an owner, of an endpoint that
goes with the owner, and no publication of endpoints ends what holds of the hub. -/
structure LastingAt (kind : ChangeKind) (p : String → Prop) (w : String → Endpoint → Prop) (P : Hub → Prop) :
    Prop where
  select : ∀ owner, p owner → Preserves P (select owner)
  applyChange : ∀ owner e, p owner → w owner e → Preserves P (applyChange kind owner e)
  publish : ∀ ev, ev.group = .discoveredEndpoint → Preserves P (publish ev)

namespace LastingAt

variable {kind : ChangeKind} {p : String → Prop} {w : String → Endpoint → Prop} (hp : LastingAt kind p w P)
include hp

theorem syncRoute {l : SyncListener} {es : List Endpoint} {route : RouteRecord}
    (hserve : ∀ owner, route.owner = some owner → p owner ∧ ∀ e ∈ es, w owner (l.stamp route owner e)) :
    Preserves P (syncRoute l kind es route) := by
  unfold Act.syncRoute
  cases hroute : route.owner with
  | none => exact preserves_pure _
  | some owner =>
    obtain ⟨ho, hw⟩ := hserve owner hroute
    exact preserves_bind (preserves_forM fun e he => hp.applyChange owner _ ho (hw e he)) fun _ =>
      preserves_bind (hp.select owner ho) fun _ => hp.publish _ rfl

/-- **A listener** makes calls to the store for the owners of its routes, and writes what it has read. -/
theorem syncChange {l : SyncListener} {change : RegistryChange} (hkind : change.kind = kind)
    (hserve : ∀ route ∈ l.contexts, ∀ owner, route.owner = some owner → p owner ∧
      ∀ es, Payload.read l.mapping change.value = .ok es → ∀ e ∈ es, w owner (l.stamp route owner e)) :
    Preserves P (syncChange l change) := by
  unfold Act.syncChange
  rw [hkind]
  split_ifs
  · exact preserves_pure _
  · intro h hh
    refine left_bind_of (preserves_ofExcept _ _ h hh) fun es h₁ hread => ?_
    obtain ⟨hes, rfl⟩ := ofExcept_eq_ok.mp hread
    split_ifs
    · exact hh
    · refine preserves_forM (fun route hroute => hp.syncRoute fun owner howner => ?_) h hh
      obtain ⟨ho, hw⟩ := hserve route hroute owner howner
      exact ⟨ho, hw es hes⟩

end LastingAt

/-- No selection or write for one of certain owners, of an endpoint that goes with the owner, and no publication
of endpoints ends what holds of the hub. -/
structure LastingFor (p : String → Prop) (w : String → Endpoint → Prop) (P : Hub → Prop) : Prop where
  select : ∀ owner, p owner → Preserves P (select owner)
  insert : ∀ owner e, p owner → w owner e → Preserves P (insert owner e)
  update : ∀ owner e, p owner → w owner e → Preserves P (update owner e)
  deleteByUrl : ∀ owner e, p owner → w owner e → Preserves P (deleteByUrl owner e.url)
  publish : ∀ ev, ev.group = .discoveredEndpoint → Preserves P (publish ev)

namespace LastingFor

variable {p : String → Prop} {w : String → Endpoint → Prop} (hp : LastingFor p w P)
include hp

theorem lastingAt (kind : ChangeKind) : LastingAt kind p w P where
  select := hp.select
  applyChange owner e ho hw :=
    preserves_applyChange (fun _ => hp.insert owner e ho hw) (fun _ => hp.update owner e ho hw)
      fun _ => hp.deleteByUrl owner e ho hw
  publish := hp.publish

/-- **A listener** makes calls to the store for the owners of its routes, and writes what it has read. -/
theorem syncChange {l : SyncListener} {change : RegistryChange}
    (hserve : ∀ route ∈ l.contexts, ∀ owner, route.owner = some owner → p owner ∧
      ∀ es, Payload.read l.mapping change.value = .ok es → ∀ e ∈ es, w owner (l.stamp route owner e)) :
    Preserves P (syncChange l change) :=
  (hp.lastingAt change.kind).syncChange rfl hserve

end LastingFor

namespace Lasting

variable (hp : Lasting P)
include hp

theorem select (owner : String) : Preserves P (select owner) :=
  preserves_bind (hp.call _ rfl) fun _ => preserves_bind preserves_get fun _ => preserves_ofExcept _ _

theorem lastingFor : LastingFor (fun _ => True) (fun _ _ => True) P where
  select owner _ := hp.select owner
  insert owner e _ _ := hp.insert owner e
  update owner e _ _ := hp.update owner e
  deleteByUrl owner e _ _ := hp.deleteByUrl owner e.url
  publish := hp.publish

theorem applyChange (kind : ChangeKind) (owner : String) (e : Endpoint) :
    Preserves P (applyChange kind owner e) :=
  (hp.lastingFor.lastingAt kind).applyChange owner e trivial trivial

theorem syncRoute (l : SyncListener) (kind : ChangeKind) (es : List Endpoint) (route : RouteRecord) :
    Preserves P (syncRoute l kind es route) :=
  (hp.lastingFor.lastingAt kind).syncRoute fun _ _ => ⟨trivial, fun _ _ => trivial⟩

theorem syncChange (l : SyncListener) (change : RegistryChange) : Preserves P (syncChange l change) :=
  hp.lastingFor.syncChange fun _ _ _ _ => ⟨trivial, fun _ _ _ _ => trivial⟩

theorem notify (l : ListenerId) (change : RegistryChange) : Preserves P (notify l change) := by
  refine preserves_bind preserves_get fun h => ?_
  split
  · exact hp.syncChange _ _
  · exact hp.call _ rfl
  · exact preserves_pure _

theorem notifyWatcher (c : ConnectorId) (key : String) (kind : ChangeKind) (i : Instance) :
    Preserves P (notifyWatcher c key kind i) := by
  refine preserves_bind preserves_get fun h => ?_
  split
  · exact hp.notify _ _
  · exact preserves_pure _

theorem registryCall (c : ConnectorId) (r : RegistryCall) : Preserves P (registryCall c r) :=
  preserves_registryCall (fun _ _ => hp.call _ rfl) c r

theorem selectInstances (c : ConnectorId) (key : String) : Preserves P (selectInstances c key) :=
  preserves_selectInstances (fun _ _ => hp.call _ rfl) c key

/-- A watch is a call and a change of its connector, which may tell the new watcher of a change at once. -/
theorem watchInstances
    (hf : ∀ (h : Hub) (c : ConnectorId) (f : Connector → Connector), P h → P (h.modifyConnector c f))
    (c : ConnectorId) (key : String) (l : ListenerId) : Preserves P (watchInstances c key l) := by
  refine preserves_bind (hp.registryCall c _) fun _ => preserves_bind preserves_get fun h => ?_
  refine preserves_bind (preserves_ofExcept _ _) fun r =>
    preserves_bind (preserves_modify fun h => hf h c _) fun _ =>
    preserves_bind (preserves_modify fun h => hf h c _) fun _ => ?_
  split
  · exact hp.notify _ _
  · exact preserves_pure _

theorem deleteStale (discoveryId : String) (ids : List String) : Preserves P (deleteStale discoveryId ids) := by
  unfold Act.deleteStale
  split_ifs
  · exact preserves_pure _
  · exact preserves_bind (hp.deleteByIds ids) fun _ => hp.count _ _

theorem insertAll (discoveryId owner : String) (l : List Endpoint) : Preserves P (insertAll discoveryId owner l) :=
  preserves_forM fun e _ => preserves_bind (hp.insert _ e) fun _ => hp.count _ _

theorem reconcile (c : ConnectorId) (handler : Handler) (s : Selector) :
    Preserves P (reconcile c handler s) :=
  preserves_bind preserves_get fun _ => preserves_bind (hp.selectInstances c _) fun _ =>
    preserves_bind (hp.select _) fun _ => preserves_bind (hp.deleteStale _ _) fun _ =>
      preserves_bind (hp.insertAll _ _ _) fun _ => preserves_pure _

theorem fetchAll (handler : Handler) (s : Selector) : Preserves P (fetchAll handler s) := by
  refine preserves_bind preserves_get fun h => ?_
  split
  · exact preserves_pure _
  · refine preserves_bind (preserves_attempt (hp.reconcile _ handler s)) fun o => ?_
    split
    · exact preserves_bind (hp.count _ _) fun _ => preserves_throw _
    · exact preserves_bind (hp.count _ _) fun _ => hp.publish _ rfl

end Lasting

/-- What lasts through calls, counts and publications of endpoints and does not depend on the store and the drawn
ids. -/
theorem lasting_of_call (hcall : ∀ entry, entry.event? = none → Preserves P (call entry))
    (hpublish : ∀ (h : Hub) (e : ChangeEvent), e.group = .discoveredEndpoint → P h → P (h.publish e))
    (hcount : ∀ (h : Hub) (k : Counter) (n : Nat), P h → P (h.count k n))
    (hstore : ∀ (h : Hub) (s : Store) (n : Nat), P h → P { h with store := s, drawn := n }) : Lasting P := by
  have honStore : ∀ {α : Type} (f : Store → Except StorageError (Store × α)), Preserves P (onStore f) :=
    fun f => preserves_bind preserves_get fun _ => preserves_bind (preserves_ofExcept _ _) fun _ =>
      preserves_bind (preserves_modify fun h => hstore h _ h.drawn) fun _ => preserves_pure _
  refine ⟨hcall, fun e he => preserves_modify fun h => hpublish h e he, fun k n => preserves_modify fun h =>
    hcount h k n, fun owner e => ?_, fun owner e => ?_, fun ids => ?_, fun owner url => ?_⟩
  · exact preserves_bind (hcall _ rfl) fun _ => preserves_bind (preserves_step fun h => hstore h h.store _) fun _ =>
      preserves_bind preserves_get fun _ => honStore _
  · exact preserves_bind (hcall _ rfl) fun _ => preserves_bind preserves_get fun _ => honStore _
  · exact preserves_bind (hcall _ rfl) fun _ => honStore _
  · exact preserves_bind (hcall _ rfl) fun _ => honStore _

/-! ### Views that none of this touches -/

/-- A part of the hub that depends on neither journal and faults, nor outlet and counters, nor the store and
the drawn ids. -/
structure Untouched {σ : Type} (view : Hub → σ) : Prop where
  call : ∀ (h : Hub) (j : List JournalEntry) (fs : List Fault), view { h with journal := j, faults := fs } = view h
  publish : ∀ (h : Hub) (e : ChangeEvent), view (h.publish e) = view h
  count : ∀ (h : Hub) (m : Metrics), view { h with metrics := m } = view h
  store : ∀ (h : Hub) (s : Store) (n : Nat), view { h with store := s, drawn := n } = view h

theorem Untouched.lasting {σ : Type} {view : Hub → σ} (hv : Untouched view)
    (hP : ∀ h h' : Hub, view h' = view h → P h → P h') : Lasting P :=
  lasting_of_call (fun _ _ h hh => hP h _ (keeps_call (fun h fs => hv.call h _ fs) h) hh)
    (fun h e _ => hP h _ (hv.publish h e)) (fun h _ _ => hP h _ (hv.count h _)) fun h s n => hP h _ (hv.store h s n)

end RouteSync.Act
