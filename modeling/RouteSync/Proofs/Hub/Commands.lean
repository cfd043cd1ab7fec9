import RouteSync.Proofs.Hub.Wiring

/-!
# Commands

The operations that a control plane and the registry inside the process carry out on a hub, and their runs.
On a hub where every registration shares one plain connector, `Wiring.Step` lists all that a command can
do to the wiring (`step_wiring`).  Such a hub stays one (`Wired.step`): an id has a set of watch keys exactly
if it has a connector, the connector is ready as long as anybody uses it, and every key it watches is watched
by a listener made for a subscription and tracked for some id.
-/

namespace RouteSync

inductive Command
  | create (r : Registration)
  | remove (r : Registration)
  | subscribe (handler : Handler) (s : Selector)
  | unsubscribe (handler : Handler) (s : Selector)
  | fetch (handler : Handler) (s : Selector)
  /-- A listener is made that watches nothing yet. -/
  | build (handler : Handler) (s : Selector)
  /-- An id gets another listener for its bindings. -/
  | adopt (id : String) (l : ListenerId)
  | bind (handler : Handler) (s : Selector)
  | withdraw (s : Selector)
  | announce (s : Selector) (l : List Endpoint)
  | publish (e : ChangeEvent)
  | register (key : String) (i : Instance)
  | deregister (key host : String) (tcpPort : UInt16)
  /-- Time goes on. -/
  | wait (now : UInt64)

/-- What a command does.  Instances are registered at connector `c`. -/
def Command.act (c : ConnectorId) : Command → Act Unit
  | .create r => Act.createDiscovery r
  | .remove r => Act.removeDiscovery r
  | .subscribe handler s => Act.subscribe handler s
  | .unsubscribe handler s => Act.unsubscribe handler s
  | .fetch handler s => Act.fetchAll handler s
  | .build handler s => discard (Act.buildListener handler s)
  | .adopt id l => Act.setActive id l
  | .bind handler s => Act.bindHandler handler s
  | .withdraw s => Act.withdrawEndpoints s
  | .announce s l => Act.announceEndpoints s l
  | .publish e => Act.publish e
  | .register key i => Act.registerInstance c key i
  | .deregister key host tcpPort => discard (Act.deregisterInstance c key host tcpPort)
  | .wait now => modify fun h => { h with clock := now }

/-- The change that a command makes known: an instance comes, changes or goes. -/
def Hub.changeOf (c : ConnectorId) (h : Hub) : Command → Option RegistryChange
  | .register key i =>
    some (LocalRegistry.change key ((h.connector c).registry.register key i).2 i)
  | .deregister key host tcpPort =>
    ((h.connector c).registry.deregister key host tcpPort).map fun p =>
      LocalRegistry.change key .deleted p.1
  | _ => none

/-- A command that registers an instance or takes one off. -/
def Command.IsChange : Command → Prop
  | .register _ _ => True
  | .deregister _ _ _ => True
  | _ => False

/-- The hub after a command, also after one that fails. -/
def Hub.after (c : ConnectorId) (h : Hub) (cmd : Command) : Hub := (cmd.act c).left h

/-- `h` comes of `h₀` by commands each of which is allowed where it is given. -/
inductive Hub.Runs (c : ConnectorId) (allowed : Hub → Command → Prop) (h₀ : Hub) : Hub → Prop
  | refl : Runs c allowed h₀ h₀
  | step {h : Hub} {cmd : Command} (hr : Runs c allowed h₀ h) (ha : allowed h cmd) :
      Runs c allowed h₀ (h.after c cmd)

namespace Wiring

variable (w : Wiring)

/-- The key that a handler watches. -/
def watchKey (handler : Handler) : String := handler.watchKey w.settings.defaultListenerNode

/-- An id is cached with the connector, which is set up for it. -/
def join (c : ConnectorId) (id : String) : Wiring :=
  { w with ready := true, registrations := w.registrations.add id c }

/-- An id leaves; the connector lets go of what nobody else tracks. -/
def leave (c : ConnectorId) (id : String) : Wiring :=
  let rs := w.registrations.remove id
  let released := (w.registrations.watchKeys.get? id).getD .empty
  if (rs.sharers c).isEmpty then
    { w with registrations := rs, active := w.active.erase id, ready := false, watchers := .empty }
  else
    { w with
      registrations := rs
      active := w.active.erase id
      watchers := (released.without (rs.keysOf (rs.sharers c))).foldl Table.erase w.watchers }

/-- A new listener watches a key for its id. -/
def watch (l : SyncListener) (key : String) : Wiring :=
  { w with
    registrations := (w.registrations.track l.discoveryId key).1
    listeners := w.listeners ++ [.sync l]
    active := w.active.insert l.discoveryId w.listeners.length
    watchers := w.watchers.insert key w.listeners.length }

/-- An id gives up a key. -/
def unwatch (id key : String) : Wiring :=
  { w with registrations := (w.registrations.untrack id key).1, watchers := w.watchers.erase key }

/-- A listener is there that watches nothing. -/
def build (l : SyncListener) : Wiring := { w with listeners := w.listeners ++ [.sync l] }

/-- An id gets another listener for its bindings. -/
def adopt (id : String) (l : ListenerId) : Wiring := { w with active := w.active.insert id l }

/-- A route is bound to the listener of an id. -/
def bindTo (id : String) (route : RouteRecord) : Wiring :=
  match w.active.get? id with
  | none => w
  | some l =>
    match w.listeners[l]? with
    | some (.sync x) => { w with listeners := w.listeners.set l (.sync (x.bind route)) }
    | some (.recording _) => w
    | none => w

/-- A command that may leave the wiring alone. -/
def Idle : Command → Prop
  | .remove r => w.registrations.connectors.get? r.id = none
  | .unsubscribe handler _ => ¬ w.registrations.isTracked handler.discoveryId (w.watchKey handler) = true
  | .adopt _ _ => False
  | .bind _ _ => False
  | _ => True

/-- All that a command can do to the wiring. -/
inductive Step (c : ConnectorId) (w : Wiring) : Command → Wiring → Prop
  | idle {cmd : Command} (hcmd : w.Idle cmd) : Step c w cmd w
  | join {r : Registration} (hid : w.registrations.connectors.get? r.id = none) :
      Step c w (.create r) (w.join c r.id)
  | leave {r : Registration} (hid : w.registrations.connectors.get? r.id = some c) :
      Step c w (.remove r) (w.leave c r.id)
  | watch {handler : Handler} {s : Selector} {m : Mapping}
      (hid : w.registrations.connectors.get? handler.discoveryId = some c)
      (hkey : ¬ w.registrations.isTracked handler.discoveryId (w.watchKey handler) = true)
      (hm : Mapping.read handler.mapping = .ok m) :
      Step c w (.subscribe handler s) (w.watch ⟨m, [.ofHandler s handler], handler.discoveryId,
        w.settings.defaultProtocol⟩ (w.watchKey handler))
  | unwatch {handler : Handler} {s : Selector}
      (hkey : w.registrations.isTracked handler.discoveryId (w.watchKey handler) = true) :
      Step c w (.unsubscribe handler s) (w.unwatch handler.discoveryId (w.watchKey handler))
  | build {handler : Handler} {s : Selector} {m : Mapping} :
      Step c w (.build handler s) (w.build ⟨m, [.ofHandler s handler], handler.discoveryId,
        w.settings.defaultProtocol⟩)
  | adopt {id : String} {l : ListenerId} : Step c w (.adopt id l) (w.adopt id l)
  | bind {handler : Handler} {s : Selector} :
      Step c w (.bind handler s) (w.bindTo handler.discoveryId (.ofHandler s handler))

end Wiring

/-- A hub whose registrations share the plain connector `c`. -/
structure Wired (c : ConnectorId) (w : Wiring) : Prop where
  present : w.present = true
  plain : w.instrumented = false
  shared : ∀ t p, w.providers.get? t = some p → p = .shared c
  served : ∀ id k, w.registrations.connectors.get? id = some k → k = c
  cached : ∀ id, (w.registrations.watchKeys.get? id).isSome = (w.registrations.connectors.get? id).isSome
  ready : ∀ id, w.registrations.connectors.get? id = some c → w.ready = true
  installed : ∀ key l, w.watchers.get? key = some l → ∃ x, w.listeners[l]? = some (.sync x)
  tracked : ∀ key l, w.watchers.get? key = some l → ∃ id, w.registrations.isTracked id key = true

namespace Wired

variable {c : ConnectorId} {w w' : Wiring} {cmd : Command}

theorem connector_of_isTracked (hw : Wired c w) {id key : String}
    (h : w.registrations.isTracked id key = true) : w.registrations.connectors.get? id = some c := by
  obtain ⟨keys, hk, -⟩ := Registrations.isTracked_iff.mp h
  have hs := hw.cached id
  rw [hk, Option.isSome_some, eq_comm, Option.isSome_iff_exists] at hs
  obtain ⟨k, hk⟩ := hs
  rw [hk, hw.served id k hk]

end Wired

/-- A hub in which a new listener is there for a handler, whose key is tracked already. -/
def Hub.subscribing (h : Hub) (handler : Handler) (l : SyncListener) : Hub :=
  { h with
    listeners := h.listeners ++ [.sync l]
    registrations := (h.registrations.track handler.discoveryId (h.watchKey handler)).1 }

/-- A hub in which a handler's key is not tracked any more for its id. -/
def Hub.untracking (h : Hub) (handler : Handler) : Hub :=
  { h with registrations := (h.registrations.untrack handler.discoveryId (h.watchKey handler)).1 }

namespace Act

open Hub

variable {c : ConnectorId} {h : Hub}

/-! ### A plain connector -/

/-- There is a connector `c`, and it is not instrumented. -/
structure Plain (c : ConnectorId) (h : Hub) : Prop where
  present : c < h.connectors.length
  probe : (h.connector c).probe = none

theorem plain_iff : Plain c h ↔ (h.wiring c).present = true ∧ (h.wiring c).instrumented = false := by
  simp only [wiring, decide_eq_true_eq, Option.isSome_eq_false_iff, Option.isNone_iff_eq_none]
  exact ⟨fun h => ⟨h.1, h.2⟩, fun h => ⟨h.1, h.2⟩⟩

theorem registryCall_plain (hp : Plain c h) (r : RegistryCall) : registryCall c r h = .ok () h := by
  unfold registryCall
  rw [get_bind, hp.probe]
  rfl

/-- A registry that is ready lists its instances. -/
theorem selectInstances_plain (hp : Plain c h) (hr : (h.wiring c).ready = true) (key : String) :
    selectInstances c key h = .ok ((h.connector c).registry.instancesAt key) h := by
  replace hr : (h.connector c).registry.ready = true := hr
  unfold selectInstances
  rw [bind_of_ok (registryCall_plain hp _), get_bind]
  simp only [hp.probe, Option.bind_none]
  rw [ofExcept_eq_ok, LocalRegistry.select, if_pos hr]
  exact ⟨rfl, rfl⟩

theorem setUpRegistry_plain (hp : Plain c h) (connection : Connection) :
    ∃ h', setUpRegistry c connection h = .ok () h' ∧ h'.wiring c = { h.wiring c with ready := true } := by
  refine ⟨h.modifyConnector c fun k => { k with registry := k.registry.setUp }, ?_, ?_⟩
  · unfold setUpRegistry
    rw [bind_of_ok (registryCall_plain hp _)]
    rfl
  · rw [wiring_modifyConnector hp.present]
    rfl

theorem unwatchInstances_plain (hp : Plain c h) (key : String) :
    ∃ h', unwatchInstances c key h = .ok () h' ∧
      h'.wiring c = { h.wiring c with watchers := (h.wiring c).watchers.erase key } := by
  let f : Connector → Connector := fun k =>
    { k with probe := k.probe.map fun p => { p with watched := p.watched.erase key } }
  have hp' : c < (h.modifyConnector c f).connectors.length := by
    rw [length_modifyConnector]
    exact hp.present
  refine ⟨(h.modifyConnector c f).modifyConnector c fun k => { k with registry := k.registry.unwatch key },
    ?_, ?_⟩
  · unfold unwatchInstances
    rw [bind_of_ok (registryCall_plain hp _)]
    rfl
  · rw [wiring_modifyConnector hp', connector_modifyConnector hp.present,
      wiring_modifyConnector hp.present]
    simp [f, wiring, LocalRegistry.unwatch]

theorem closeRegistry_plain (hp : Plain c h) :
    ∃ h', closeRegistry c h = .ok () h' ∧
      h'.wiring c = { h.wiring c with ready := false, watchers := .empty } := by
  let f : Connector → Connector := fun k =>
    { k with probe := k.probe.map fun p => { p with watched := .empty } }
  have hp' : c < (h.modifyConnector c f).connectors.length := by
    rw [length_modifyConnector]
    exact hp.present
  refine ⟨(h.modifyConnector c f).modifyConnector c fun k => { k with registry := k.registry.close }, ?_, ?_⟩
  · unfold closeRegistry
    rw [bind_of_ok (registryCall_plain hp _)]
    rfl
  · rw [wiring_modifyConnector hp', connector_modifyConnector hp.present,
      wiring_modifyConnector hp.present]
    simp [f, wiring, LocalRegistry.close]

theorem watchInstances_plain (hp : Plain c h) (hr : (h.wiring c).ready = true) (key : String)
    (l : ListenerId) :
    ∃ h', watchInstances c key l h = .ok () h' ∧
      h'.wiring c = { h.wiring c with watchers := (h.wiring c).watchers.insert key l } ∧
      h'.store = h.store ∧ h'.drawn = h.drawn := by
  let r := (h.connector c).registry
  let f : Connector → Connector := fun k =>
    { k with registry := { r with watchers := r.watchers.insert key l } }
  let g : Connector → Connector := fun k =>
    { k with probe := k.probe.map fun p => { p with watched := p.watched.insert key l } }
  have hp' : c < (h.modifyConnector c f).connectors.length := by
    rw [length_modifyConnector]
    exact hp.present
  refine ⟨(h.modifyConnector c f).modifyConnector c g, ?_, ?_, rfl, rfl⟩
  · have hwatch : (ofExcept .registry (r.watch key l) : Act LocalRegistry) h =
        .ok { r with watchers := r.watchers.insert key l } h := by
      replace hr : r.ready = true := hr
      rw [ofExcept_eq_ok, LocalRegistry.watch, if_pos hr]
      exact ⟨rfl, rfl⟩
    unfold watchInstances
    rw [bind_of_ok (registryCall_plain hp _), get_bind, bind_of_ok hwatch, hp.probe]
    rfl
  · rw [wiring_modifyConnector hp', connector_modifyConnector hp.present,
      wiring_modifyConnector hp.present]
    simp [f, g, r, wiring]

theorem unwatchAll_plain (keys : List String) (hp : Plain c h) :
    ∃ h', unwatchAll c keys h = .ok none h' ∧
      h'.wiring c = { h.wiring c with watchers := keys.foldl Table.erase (h.wiring c).watchers } := by
  induction keys generalizing h with
  | nil => exact ⟨h, rfl, rfl⟩
  | cons key keys ih =>
    obtain ⟨h₁, hok, hw⟩ := unwatchInstances_plain hp key
    have hp₁ : Plain c h₁ := by
      rw [plain_iff, hw]
      exact plain_iff.mp hp
    obtain ⟨h₂, hok₂, hw₂⟩ := ih hp₁
    refine ⟨h₂, ?_, ?_⟩
    · unfold unwatchAll
      rw [bind_of_ok (attempt_of_ok hok), bind_of_ok hok₂]
      rfl
    · rw [hw₂, hw]
      rfl

/-! ### Subscriptions -/

/-- Nothing happens for an id that is not registered or tracks the key already. -/
theorem subscribe_idle {handler : Handler} (s : Selector)
    (hno : h.registrations.connectors.get? handler.discoveryId = none ∨
      h.registrations.isTracked handler.discoveryId (h.watchKey handler) = true) :
    subscribe handler s h = .ok () h := by
  unfold subscribe
  rw [get_bind]
  cases hid : h.registrations.connectors.get? handler.discoveryId with
  | none => rfl
  | some k =>
    rw [hid] at hno
    simp only [if_pos (hno.resolve_left (by simp))]
    rfl

/-- A mapping that cannot be read refuses a subscription before anything is done. -/
theorem subscribe_refused {handler : Handler} (s : Selector) {k : ConnectorId} {e : InvalidConfig}
    (hid : h.registrations.connectors.get? handler.discoveryId = some k)
    (hkey : ¬ h.registrations.isTracked handler.discoveryId (h.watchKey handler) = true)
    (hm : Mapping.read handler.mapping = .error e) :
    subscribe handler s h = .error (.invalid e) h := by
  have hbuild : buildListener handler s h = .error (.invalid e) h := by
    unfold buildListener
    rw [hm]
    rfl
  unfold subscribe
  rw [get_bind]
  simp only [hid]
  rw [if_neg hkey, bind_of_error hbuild]

section

variable {handler : Handler} {s : Selector} {k : ConnectorId} {m : Mapping} {h₁ : Hub}

theorem buildListener_of_read (hm : Mapping.read handler.mapping = .ok m) :
    buildListener handler s h = .ok h.listeners.length { h with listeners := h.listeners ++
      [.sync ⟨m, [.ofHandler s handler], handler.discoveryId, h.settings.defaultProtocol⟩] } := by
  unfold buildListener
  rw [hm]
  rfl

/-- A subscription whose watch is accepted makes its listener the active one and announces the selector. -/
theorem subscribe_of_watch {u : Unit} (hid : h.registrations.connectors.get? handler.discoveryId = some k)
    (hkey : ¬ h.registrations.isTracked handler.discoveryId (h.watchKey handler) = true)
    (hm : Mapping.read handler.mapping = .ok m)
    (hwatch : watchInstances k (h.watchKey handler) h.listeners.length (h.subscribing handler
      ⟨m, [.ofHandler s handler], handler.discoveryId, h.settings.defaultProtocol⟩) = .ok u h₁) :
    subscribe handler s h =
      .ok () ({ h₁ with active := h₁.active.insert handler.discoveryId h.listeners.length }.publish
        (.single .routeSelector .update (.ofSelector s))) := by
  unfold subscribe
  rw [get_bind]
  simp only [hid]
  rw [if_neg hkey, bind_of_ok (buildListener_of_read hm)]
  exact bind_of_ok (attempt_of_ok hwatch) _

/-- A subscription whose watch is refused leaves no track. -/
theorem subscribe_of_watch_error {e : Error}
    (hid : h.registrations.connectors.get? handler.discoveryId = some k)
    (hkey : ¬ h.registrations.isTracked handler.discoveryId (h.watchKey handler) = true)
    (hm : Mapping.read handler.mapping = .ok m)
    (hwatch : watchInstances k (h.watchKey handler) h.listeners.length (h.subscribing handler
      ⟨m, [.ofHandler s handler], handler.discoveryId, h.settings.defaultProtocol⟩) = .error e h₁) :
    subscribe handler s h = .error e { h₁ with
      registrations := (h₁.registrations.untrack handler.discoveryId (h.watchKey handler)).1 } := by
  unfold subscribe
  rw [get_bind]
  simp only [hid]
  rw [if_neg hkey, bind_of_ok (buildListener_of_read hm)]
  exact bind_of_ok (attempt_eq_ok.mpr (.inr ⟨e, rfl, hwatch⟩)) _

end

theorem untrack_of_isTracked {id key : String} (hkey : h.registrations.isTracked id key = true) :
    untrack id key h = .ok true { h with registrations := (h.registrations.untrack id key).1 } := by
  have hsnd := Registrations.untrack_snd.trans hkey
  show EStateM.Result.ok (h.registrations.untrack id key).2
    { h with registrations := (h.registrations.untrack id key).1 } = _
  rw [hsnd]

/-- A key that is tracked is untracked first; then its connector is called. -/
theorem unsubscribe_of_isTracked {handler : Handler} (s : Selector)
    (hkey : h.registrations.isTracked handler.discoveryId (h.watchKey handler) = true) :
    unsubscribe handler s h = (match h.registrations.connectors.get? handler.discoveryId with
      | some k => unwatchInstances k (h.watchKey handler) >>= fun _ =>
          publish (.single .routeSelector .delete (.ofSelector s))
      | none => publish (.single .routeSelector .delete (.ofSelector s))) (h.untracking handler) := by
  have huntrack : untrack handler.discoveryId (h.watchKey handler) h = .ok true (h.untracking handler) :=
    untrack_of_isTracked hkey
  have hid : (h.untracking handler).registrations.connectors = h.registrations.connectors :=
    Registrations.connectors_untrack
  unfold unsubscribe
  dsimp only
  rw [get_bind, bind_of_ok huntrack, if_pos rfl, get_bind]
  cases hc : h.registrations.connectors.get? handler.discoveryId with
  | none => simp only [hid, hc]
  | some k => simp only [hid, hc]

/-- Nothing happens for a key that is not tracked. -/
theorem unsubscribe_untracked {handler : Handler} (s : Selector)
    (hkey : ¬ h.registrations.isTracked handler.discoveryId (h.watchKey handler) = true) :
    unsubscribe handler s h = .ok () h := by
  have huntrack : untrack handler.discoveryId (h.watchKey handler) h = .ok false h := by
    have hfst := Registrations.untrack_of_not_isTracked hkey
    have hsnd : (h.registrations.untrack handler.discoveryId (h.watchKey handler)).2 = false := by
      rw [Registrations.untrack_snd]
      simpa using hkey
    show EStateM.Result.ok (h.registrations.untrack handler.discoveryId (h.watchKey handler)).2
      { h with registrations := (h.registrations.untrack handler.discoveryId (h.watchKey handler)).1 } = _
    rw [hfst, hsnd]
  unfold unsubscribe
  dsimp only
  rw [get_bind, bind_of_ok huntrack]
  rfl

theorem unsubscribe_idle {handler : Handler} (s : Selector)
    (hkey : ¬ h.registrations.isTracked handler.discoveryId (h.watchKey handler) = true) :
    h.after c (.unsubscribe handler s) = h :=
  left_of_ok (unsubscribe_untracked s hkey)

/-! ### Commands on a wired hub -/

theorem plain_of_wired (hw : Wired c (h.wiring c)) : Plain c h := plain_iff.mpr ⟨hw.present, hw.plain⟩

theorem createConnector_wired (hw : Wired c (h.wiring c)) (tag : String) :
    createConnector tag h = .ok c h ∨ ∃ e, createConnector tag h = .error e h := by
  unfold createConnector
  dsimp only
  split_ifs
  · exact .inr ⟨_, rfl⟩
  · rw [get_bind]
    cases hp : h.providers.get? (normalizedType tag) with
    | none => exact .inr ⟨_, rfl⟩
    | some p =>
      obtain rfl := hw.shared _ p hp
      exact .inl rfl

/-- Only an id that is not cached joins, and whatever fails before has done nothing. -/
theorem create_wired (hw : Wired c (h.wiring c)) (r : Registration) :
    (h.after c (.create r)).wiring c = h.wiring c ∨
      h.registrations.connectors.get? r.id = none ∧
        (h.after c (.create r)).wiring c = (h.wiring c).join c r.id := by
  show ((discard (register r)).left h).wiring c = _ ∨ _ ∧ ((discard (register r)).left h).wiring c = _
  rw [left_discard]
  unfold register
  rw [left, get_bind]
  by_cases hid : h.registrations.contains r.id = true
  · rw [if_pos hid]
    exact .inl rfl
  rw [if_neg hid]
  cases hprops : FlatObject.read "discovery props" r.props with
  | error e => exact .inl rfl
  | ok props =>
    have hread : (ofExcept .invalid (.ok props) : Act (Table String String)) h = .ok props h := rfl
    rw [bind_of_ok hread]
    rcases createConnector_wired hw r.registryType with hok | ⟨e, herr⟩
    · obtain ⟨h₁, hset, hw₁⟩ := setUpRegistry_plain (plain_of_wired hw) ⟨r.registryType, r.servers, props⟩
      rw [bind_of_ok hok, bind_of_ok hset]
      right
      refine ⟨?_, ?_⟩
      · simpa [Registrations.contains, Table.contains] using hid
      · have hcount := (keeps_wiring_count (.lifecycle r.registryType "init") 1 h₁).trans hw₁
        show ({ h₁.count (.lifecycle r.registryType "init") 1 with
          registrations := h₁.registrations.add r.id c } : Hub).wiring c = _
        have hreg : h₁.registrations = h.registrations := congrArg Wiring.registrations hw₁
        rw [hreg]
        exact congrArg (fun w : Wiring => { w with registrations := h.registrations.add r.id c }) hcount
    · rw [bind_of_error herr]
      exact .inl rfl

theorem deregister_plain (hp : Plain c h) {r : Registration}
    (hid : h.registrations.connectors.get? r.id = some c) :
    ∃ h', deregister r h = .ok true h' ∧
      h'.wiring c = { (h.wiring c).leave c r.id with active := h.active } := by
  let h₁ : Hub := { h with
    registrations := h.registrations.remove r.id
    metrics := h.metrics.moveActive (-1) }
  have hp₁ : Plain c h₁ := ⟨hp.present, hp.probe⟩
  unfold deregister Wiring.leave
  rw [get_bind]
  simp only [hid]
  by_cases hs : ((h.registrations.remove r.id).sharers c).isEmpty = true
  · obtain ⟨h₂, hok, hw₂⟩ := closeRegistry_plain hp₁
    refine ⟨h₂.count (.lifecycle r.registryType "close") 1, ?_, ?_⟩
    · rw [if_pos hs]
      show ((closeRegistry c >>= fun _ => count (.lifecycle r.registryType "close") 1 >>= fun _ =>
        pure true) h₁ : EStateM.Result Error Hub Bool) = _
      rw [bind_of_ok hok]
      rfl
    · rw [if_pos (show ((h.wiring c).registrations.remove r.id |>.sharers c).isEmpty = true from hs)]
      exact (keeps_wiring_count (.lifecycle r.registryType "close") 1 h₂).trans hw₂
  · obtain ⟨h₂, hok, hw₂⟩ := unwatchAll_plain (((h.registrations.watchKeys.get? r.id).getD .empty).without
      ((h.registrations.remove r.id).keysOf ((h.registrations.remove r.id).sharers c))) hp₁
    refine ⟨h₂, ?_, ?_⟩
    · have hremove : modifyRegistrations (fun rs => rs.remove r.id) h =
          .ok () { h with registrations := h.registrations.remove r.id } := rfl
      have hcount : moveActive (-1) { h with registrations := h.registrations.remove r.id } =
          .ok () h₁ := rfl
      rw [bind_of_ok hremove, bind_of_ok hcount, if_neg hs, bind_of_ok hok]
      rfl
    · rw [if_neg (show ¬ ((h.wiring c).registrations.remove r.id |>.sharers c).isEmpty = true from hs)]
      exact hw₂

theorem remove_plain (hp : Plain c h) {r : Registration}
    (hid : h.registrations.connectors.get? r.id = some c) :
    (h.after c (.remove r)).wiring c = (h.wiring c).leave c r.id := by
  obtain ⟨h₁, hok, hw₁⟩ := deregister_plain hp hid
  have hrun : removeDiscovery r h = .ok () { h₁ with active := h₁.active.erase r.id } := by
    unfold removeDiscovery
    rw [bind_of_ok (attempt_of_ok hok)]
    rfl
  show ((removeDiscovery r).left h).wiring c = _
  rw [left_of_ok hrun]
  have hactive : h₁.active = h.active := congrArg Wiring.active hw₁
  show { h₁.wiring c with active := h₁.active.erase r.id } = _
  rw [hw₁, hactive]
  unfold Wiring.leave
  dsimp only
  split_ifs <;> rfl

theorem remove_unknown {r : Registration} (hid : h.registrations.connectors.get? r.id = none) :
    h.after c (.remove r) = h := by
  have hderegister : deregister r h = .ok false h := by
    unfold deregister
    rw [get_bind]
    simp only [hid]
    rfl
  show (removeDiscovery r).left h = h
  unfold removeDiscovery
  exact left_of_ok (bind_of_ok (attempt_of_ok hderegister) _)

/-- A subscription that gets as far as a listener succeeds. -/
theorem subscribe_wired (hw : Wired c (h.wiring c)) {handler : Handler} {m : Mapping} (s : Selector)
    (hid : h.registrations.connectors.get? handler.discoveryId = some c)
    (hkey : ¬ h.registrations.isTracked handler.discoveryId (h.watchKey handler) = true)
    (hm : Mapping.read handler.mapping = .ok m) :
    ∃ h', subscribe handler s h = .ok () h' ∧
      h'.wiring c = (h.wiring c).watch ⟨m, [.ofHandler s handler], handler.discoveryId,
        h.settings.defaultProtocol⟩ (h.watchKey handler) ∧
      h'.store = h.store ∧ h'.drawn = h.drawn := by
  let h₂ : Hub := h.subscribing handler
    ⟨m, [.ofHandler s handler], handler.discoveryId, h.settings.defaultProtocol⟩
  have hp₂ : Plain c h₂ := ⟨(plain_of_wired hw).present, (plain_of_wired hw).probe⟩
  obtain ⟨h₃, hwatch, hw₃, hstore, hdrawn⟩ := watchInstances_plain hp₂ (hw.ready _ hid) (h.watchKey handler)
    h.listeners.length
  refine ⟨_, subscribe_of_watch hid hkey hm hwatch, ?_, ?_, ?_⟩
  · have hactive : h₃.active = h.active := congrArg Wiring.active hw₃
    refine Eq.trans (keeps_wiring_publish _ _) ?_
    show { h₃.wiring c with active := h₃.active.insert handler.discoveryId h.listeners.length } = _
    rw [hw₃, hactive]
    rfl
  · exact (congrArg Contents.store (contents_publish _ _)).trans hstore
  · exact (congrArg Contents.drawn (contents_publish _ _)).trans hdrawn

theorem unsubscribe_plain (hp : Plain c h) {handler : Handler} (s : Selector)
    (hid : h.registrations.connectors.get? handler.discoveryId = some c)
    (hkey : h.registrations.isTracked handler.discoveryId (h.watchKey handler) = true) :
    (h.after c (.unsubscribe handler s)).wiring c =
      (h.wiring c).unwatch handler.discoveryId (h.watchKey handler) := by
  have hp₁ : Plain c (h.untracking handler) := ⟨hp.present, hp.probe⟩
  obtain ⟨h₂, hunwatch, hw₂⟩ := unwatchInstances_plain hp₁ (h.watchKey handler)
  have hrun : unsubscribe handler s h =
      .ok () (h₂.publish (.single .routeSelector .delete (.ofSelector s))) := by
    rw [unsubscribe_of_isTracked s hkey, hid]
    exact bind_of_ok hunwatch _
  show ((unsubscribe handler s).left h).wiring c = _
  rw [left_of_ok hrun]
  exact (keeps_wiring_publish _ h₂).trans hw₂

/-- A listener is built unless its mapping cannot be read. -/
theorem build_wired (handler : Handler) (s : Selector) :
    (h.after c (.build handler s)).wiring c = h.wiring c ∨
      ∃ m, (h.after c (.build handler s)).wiring c = (h.wiring c).build ⟨m, [.ofHandler s handler],
        handler.discoveryId, h.settings.defaultProtocol⟩ := by
  show ((discard (buildListener handler s)).left h).wiring c = _ ∨
    ∃ m, ((discard (buildListener handler s)).left h).wiring c = _
  rw [left_discard]
  unfold buildListener
  cases Mapping.read handler.mapping with
  | error e => exact .inl rfl
  | ok m => exact .inr ⟨m, rfl⟩

theorem bind_wired (handler : Handler) (s : Selector) :
    (h.after c (.bind handler s)).wiring c =
      (h.wiring c).bindTo handler.discoveryId (.ofHandler s handler) := by
  show ((bindHandler handler s).left h).wiring c = _
  unfold bindHandler Wiring.bindTo
  rw [left, get_bind]
  cases ha : h.active.get? handler.discoveryId with
  | none =>
    rw [show (h.wiring c).active.get? handler.discoveryId = none from ha]
    rfl
  | some l =>
    rw [show (h.wiring c).active.get? handler.discoveryId = some l from ha]
    unfold bindRoute
    simp only [get_bind]
    show _ = (match h.listeners[l]? with
      | some (.sync x) => _
      | some (.recording _) => _
      | none => _ : Wiring)
    cases hl : h.listeners[l]? with
    | none => rfl
    | some x => cases x <;> rfl

/-- A change is told to the listener that watches its key, or to nobody. -/
theorem notifyWatcher_eq (hw : Wired c (h.wiring c)) (key : String) (kind : ChangeKind) (i : Instance) :
    notifyWatcher c key kind i h = .ok () h ∧ (h.wiring c).watchers.get? key = none ∨
      ∃ l x, (h.wiring c).watchers.get? key = some l ∧ (h.wiring c).listeners[l]? = some (.sync x) ∧
        notifyWatcher c key kind i h = syncChange x (LocalRegistry.change key kind i) h := by
  unfold notifyWatcher
  rw [get_bind]
  cases hl : (h.connector c).registry.watchers.get? key with
  | none => exact .inl ⟨rfl, hl⟩
  | some l =>
    obtain ⟨x, hx⟩ := hw.installed key l hl
    replace hx : h.listeners[l]? = some (.sync x) := hx
    refine .inr ⟨l, x, hl, hx, ?_⟩
    unfold notify
    dsimp only
    rw [get_bind, hx]

theorem kind_register (r : LocalRegistry) (key : String) (i : Instance) :
    (r.register key i).2 = .added ∨ (r.register key i).2 = .updated := by
  unfold LocalRegistry.register
  dsimp only
  split_ifs
  · exact .inr rfl
  · exact .inl rfl

theorem kind_register_ne (r : LocalRegistry) (key : String) (i : Instance) :
    (r.register key i).2 ≠ .ignored := by
  rcases kind_register r key i with h | h
  · simp [h]
  · simp [h]

/-- A command that registers an instance or takes one off makes nothing known, or its change is told. -/
theorem change_eq {cmd : Command} (hcmd : cmd.IsChange) :
    h.changeOf c cmd = none ∧ cmd.act c h = .ok () h ∨
      ∃ key kind i h₁, h.changeOf c cmd = some (LocalRegistry.change key kind i) ∧ kind ≠ .ignored ∧
        h₁.wiring c = h.wiring c ∧ h₁.contents = h.contents ∧ h₁.faults = h.faults ∧
        h₁.journal = h.journal ∧ cmd.act c h = notifyWatcher c key kind i h₁ := by
  cases cmd with
  | register key i =>
    obtain ⟨h₁, hw, hc, hf, hj, hrun⟩ := registerInstance_eq (c := c) (h := h) key i
    exact .inr ⟨key, _, i, h₁, rfl, kind_register_ne _ _ _, hw, hc, hf, hj, hrun⟩
  | deregister key host tcpPort =>
    cases hd : (h.connector c).registry.deregister key host tcpPort with
    | none => exact .inl ⟨by simp [changeOf, hd], deregisterInstance_none hd⟩
    | some p =>
      obtain ⟨h₁, hw, hc, hf, hj, hrun⟩ := deregisterInstance_eq hd
      exact .inr ⟨key, .deleted, p.1, h₁, by simp [changeOf, hd], by simp, hw, hc, hf, hj, hrun⟩
  | _ => cases hcmd

theorem keeps_wiring_change {cmd : Command} (hcmd : cmd.IsChange) :
    (h.after c cmd).wiring c = h.wiring c := by
  rcases change_eq (c := c) (h := h) hcmd with ⟨-, hrun⟩ | ⟨key, kind, i, h₁, -, -, hw, -, -, -, hrun⟩
  · rw [after, left_of_ok hrun]
  · rw [after, left, hrun]
    exact (keeps_wiring_notifyWatcher key kind i h₁).trans hw

/-- **One step of a wired hub** is one of those listed. -/
theorem step_wiring (hw : Wired c (h.wiring c)) (cmd : Command) :
    (h.wiring c).Step c cmd ((h.after c cmd).wiring c) := by
  have idle : ∀ {h' : Hub}, h'.wiring c = h.wiring c → (h.wiring c).Idle cmd →
      (h.wiring c).Step c cmd (h'.wiring c) := by
    intro h' he hcmd
    rw [he]
    exact .idle hcmd
  cases cmd with
  | create r =>
    rcases create_wired hw r with he | ⟨hid, he⟩
    · exact idle he trivial
    · rw [he]
      exact .join hid
  | remove r =>
    cases hid : h.registrations.connectors.get? r.id with
    | none => exact idle (by rw [remove_unknown hid]) hid
    | some k =>
      obtain rfl := hw.served _ _ hid
      rw [remove_plain (plain_of_wired hw) hid]
      exact .leave hid
  | subscribe handler s =>
    by_cases hno : h.registrations.connectors.get? handler.discoveryId = none ∨
        h.registrations.isTracked handler.discoveryId (h.watchKey handler) = true
    · exact idle (congrArg (wiring c) (left_of_ok (subscribe_idle s hno))) trivial
    · rw [not_or] at hno
      obtain ⟨k, hid⟩ := Option.ne_none_iff_exists'.mp hno.1
      obtain rfl := hw.served _ _ hid
      cases hread : Mapping.read handler.mapping with
      | error e =>
        exact idle (congrArg (wiring k) (left_of_error (subscribe_refused s hid hno.2 hread))) trivial
      | ok m =>
        obtain ⟨h', hok, hw', -⟩ := subscribe_wired hw s hid hno.2 hread
        rw [show h.after k (.subscribe handler s) = h' from left_of_ok hok, hw']
        exact .watch hid hno.2 hread
  | unsubscribe handler s =>
    by_cases hkey : h.registrations.isTracked handler.discoveryId (h.watchKey handler) = true
    · rw [unsubscribe_plain (plain_of_wired hw) s (hw.connector_of_isTracked hkey) hkey]
      exact .unwatch hkey
    · exact idle (by rw [unsubscribe_idle s hkey]) hkey
  | fetch handler s => exact idle (keeps_wiring_fetchAll handler s h) trivial
  | build handler s =>
    rcases build_wired (c := c) (h := h) handler s with he | ⟨m, he⟩
    · exact idle he trivial
    · rw [he]
      exact .build
  | adopt id l => exact .adopt
  | bind handler s =>
    rw [bind_wired]
    exact .bind
  | withdraw s => exact idle (keeps_wiring_publish _ h) trivial
  | announce s l => exact idle (keeps_wiring_publish _ h) trivial
  | publish e => exact idle (keeps_wiring_publish e h) trivial
  | register key i => exact idle (keeps_wiring_change trivial) trivial
  | deregister key host tcpPort => exact idle (keeps_wiring_change trivial) trivial
  | wait now => exact idle rfl trivial

end Act

end RouteSync
