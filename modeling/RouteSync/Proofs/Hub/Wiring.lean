import RouteSync.Proofs.Hub.Contents
import RouteSync.Proofs.Hub.Lasting
import RouteSync.Proofs.Hub.Registrations

/-!
# The wiring of a hub

The wiring is what the administration of discovery goes by: the cached registrations, the listeners, and
whom one connector tells about its keys.  Reading and writing the store, publishing, telling a listener
about a change and reconciling leave the wiring alone.
-/

namespace RouteSync

/-- What the administration of discovery goes by, as far as it concerns one connector. -/
structure Wiring where
  settings : DiscoverySettings
  providers : Table String Provider
  registrations : Registrations
  active : Table String ListenerId
  listeners : List Listener
  /-- Whether there is a connector of this number. -/
  present : Bool
  instrumented : Bool
  ready : Bool
  watchers : Table String ListenerId

namespace Hub

def wiring (c : ConnectorId) (h : Hub) : Wiring where
  settings := h.settings
  providers := h.providers
  registrations := h.registrations
  active := h.active
  listeners := h.listeners
  present := decide (c < h.connectors.length)
  instrumented := (h.connector c).probe.isSome
  ready := (h.connector c).registry.ready
  watchers := (h.connector c).registry.watchers

theorem connector_modifyConnector {h : Hub} {c : ConnectorId} (hc : c < h.connectors.length)
    (f : Connector → Connector) : (h.modifyConnector c f).connector c = f (h.connector c) := by
  simp [connector, modifyConnector, List.getD, hc]

theorem length_modifyConnector (h : Hub) (c : ConnectorId) (f : Connector → Connector) :
    (h.modifyConnector c f).connectors.length = h.connectors.length := by
  simp [modifyConnector]

theorem wiring_modifyConnector {h : Hub} {c : ConnectorId} (hc : c < h.connectors.length)
    (f : Connector → Connector) : (h.modifyConnector c f).wiring c = { h.wiring c with
      instrumented := (f (h.connector c)).probe.isSome
      ready := (f (h.connector c)).registry.ready
      watchers := (f (h.connector c)).registry.watchers } := by
  unfold wiring
  rw [connector_modifyConnector hc, length_modifyConnector]
  rfl

end Hub

namespace Act

open Hub

variable {c : ConnectorId} {h h' : Hub}

/-! ### What leaves the wiring alone -/

theorem keeps_wiring_publish (e : ChangeEvent) : Keeps (wiring c) (publish e) :=
  keeps_modify fun h => by
    obtain ⟨p, j, m, he⟩ := h.publish_eq e
    rw [he]
    rfl

theorem keeps_wiring_count (k : Counter) (n : Nat) : Keeps (wiring c) (count k n) :=
  keeps_modify fun _ => rfl

theorem untouched_wiring (c : ConnectorId) : Untouched (wiring c) where
  call _ _ _ := rfl
  publish h e := keeps_wiring_publish e h
  count _ _ := rfl
  store _ _ _ := rfl

/-- **The wiring lasts** through the work of listeners and reconciliation. -/
theorem lasting_wiring (c : ConnectorId) (w : Wiring) : Lasting fun h => h.wiring c = w :=
  (untouched_wiring c).lasting fun _ _ he hw => he.trans hw

theorem keeps_wiring_fetchAll (handler : Handler) (s : Selector) :
    Keeps (wiring c) (fetchAll handler s) :=
  keeps_iff.mpr fun w => (lasting_wiring c w).fetchAll handler s

theorem keeps_wiring_notifyWatcher (key : String) (kind : ChangeKind) (i : Instance) :
    Keeps (wiring c) (notifyWatcher c key kind i) :=
  keeps_iff.mpr fun w => (lasting_wiring c w).notifyWatcher c key kind i

/-! ### Registering instances -/

/-- A registry whose instances alone have changed. -/
theorem wiring_setRegistry {r : LocalRegistry} (hr : r.ready = (h.connector c).registry.ready)
    (hw : r.watchers = (h.connector c).registry.watchers) :
    (h.modifyConnector c fun k => { k with registry := r }).wiring c = h.wiring c := by
  by_cases hc : c < h.connectors.length
  · rw [wiring_modifyConnector hc, hr, hw]
    rfl
  · have hmod : h.modifyConnector c (fun k => { k with registry := r }) = h := by
      unfold modifyConnector
      rw [List.modify_eq_self (Nat.le_of_not_lt hc)]
    rw [hmod]

/-- Registering an instance enters it and then tells the watcher of its key. -/
theorem registerInstance_eq (key : String) (i : Instance) :
    ∃ h₁, h₁.wiring c = h.wiring c ∧ h₁.contents = h.contents ∧ h₁.faults = h.faults ∧
      h₁.journal = h.journal ∧ registerInstance c key i h =
        notifyWatcher c key ((h.connector c).registry.register key i).2 i h₁ :=
  ⟨h.modifyConnector c fun k => { k with registry := ((h.connector c).registry.register key i).1 },
    wiring_setRegistry rfl rfl, rfl, rfl, rfl, rfl⟩

/-- Taking off an instance that is there removes it and then tells the watcher of its key. -/
theorem deregisterInstance_eq {key host : String} {tcpPort : UInt16} {i : Instance} {r : LocalRegistry}
    (hd : (h.connector c).registry.deregister key host tcpPort = some (i, r)) :
    ∃ h₁, h₁.wiring c = h.wiring c ∧ h₁.contents = h.contents ∧ h₁.faults = h.faults ∧
      h₁.journal = h.journal ∧
      discard (deregisterInstance c key host tcpPort) h = notifyWatcher c key .deleted i h₁ := by
  obtain ⟨hr, hw⟩ : r.ready = (h.connector c).registry.ready ∧
      r.watchers = (h.connector c).registry.watchers := by
    simp only [LocalRegistry.deregister, Option.map_eq_some_iff, Prod.mk.injEq] at hd
    obtain ⟨j, -, -, rfl⟩ := hd
    exact ⟨rfl, rfl⟩
  refine ⟨h.modifyConnector c fun k => { k with registry := r }, wiring_setRegistry hr hw, rfl, rfl, rfl,
    ?_⟩
  have hrun : deregisterInstance c key host tcpPort h = (notifyWatcher c key .deleted i >>= fun _ =>
      pure true) (h.modifyConnector c fun k => { k with registry := r }) := by
    unfold deregisterInstance
    rw [get_bind, hd]
    rfl
  cases hn : notifyWatcher c key .deleted i (h.modifyConnector c fun k => { k with registry := r }) with
  | ok u h₂ =>
    rw [bind_of_ok hn] at hrun
    exact bind_of_ok hrun _
  | error e h₂ =>
    rw [bind_of_error hn] at hrun
    exact bind_of_error hrun _

theorem deregisterInstance_none {key host : String} {tcpPort : UInt16}
    (hd : (h.connector c).registry.deregister key host tcpPort = none) :
    discard (deregisterInstance c key host tcpPort) h = .ok () h := by
  have hrun : deregisterInstance c key host tcpPort h = .ok false h := by
    unfold deregisterInstance
    rw [get_bind, hd]
    rfl
  exact bind_of_ok hrun _

end Act

end RouteSync
