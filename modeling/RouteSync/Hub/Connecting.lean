import RouteSync.Hub.Listening

/-!
# Calls to registries

The five operations of a connector as actions of a hub, and the registration of instances, which tells
the watcher of their key.  A call to an instrumented connector is entered in the journal and may be
failed by the fault plan before it reaches the registry.

The connector of a registration is asked through `init`, `select_instances`, `watch_instances`,
`unwatch_instances` and `close`, here `setUpRegistry`, `selectInstances`, `watchInstances`,
`unwatchInstances` and `closeRegistry`.  Instances are registered by whoever keeps hold of a local registry
(`register_instance`, `deregister_instance`).
-/

namespace RouteSync.Act

/-- Enters a call in the journal if its connector is instrumented. -/
def registryCall (c : ConnectorId) (r : RegistryCall) : Act Unit := do
  match ((← get).connector c).probe with
  | some p => call (.registry p.label r)
  | none => pure ()

def modifyRegistry (c : ConnectorId) (f : LocalRegistry → LocalRegistry) : Act Unit :=
  modify fun h => h.modifyConnector c fun k => { k with registry := f k.registry }

def modifyProbe (c : ConnectorId) (f : Probe → Probe) : Act Unit :=
  modify fun h => h.modifyConnector c fun k => { k with probe := k.probe.map f }

def setUpRegistry (c : ConnectorId) (connection : Connection) : Act Unit := do
  registryCall c (.setUp connection)
  modifyRegistry c LocalRegistry.setUp

/-- The instances under a key; a scripted answer comes before the registry's own. -/
def selectInstances (c : ConnectorId) (key : String) : Act (List Instance) := do
  registryCall c (.select key)
  let k := (← get).connector c
  match k.probe.bind fun p => p.scripted.get? key with
  | some l => return l
  | none => ofExcept .registry (k.registry.select key)

/-- Makes a listener the watcher of a key.  An instrumented connector may answer at once with a change,
whose failure is the caller's although the watch stays. -/
def watchInstances (c : ConnectorId) (key : String) (l : ListenerId) : Act Unit := do
  registryCall c (.watch key)
  let k := (← get).connector c
  let r ← ofExcept .registry (k.registry.watch key l)
  modifyRegistry c fun _ => r
  modifyProbe c fun p => { p with watched := p.watched.insert key l }
  match k.probe.bind Probe.onWatch with
  | some (value, kind) => notify l ⟨key, value, kind⟩
  | none => pure ()

def unwatchInstances (c : ConnectorId) (key : String) : Act Unit := do
  registryCall c (.unwatch key)
  modifyProbe c fun p => { p with watched := p.watched.erase key }
  modifyRegistry c fun r => r.unwatch key

def closeRegistry (c : ConnectorId) : Act Unit := do
  registryCall c .close
  modifyProbe c fun p => { p with watched := .empty }
  modifyRegistry c LocalRegistry.close

/-- Tells the watcher of a key about an instance. -/
def notifyWatcher (c : ConnectorId) (key : String) (kind : ChangeKind) (i : Instance) : Act Unit := do
  match ((← get).connector c).registry.watchers.get? key with
  | some l => notify l (LocalRegistry.change key kind i)
  | none => pure ()

/-- Registers an instance with the registry of a connector and tells the watcher of the key. -/
def registerInstance (c : ConnectorId) (key : String) (i : Instance) : Act Unit := do
  let (r, kind) := ((← get).connector c).registry.register key i
  modifyRegistry c fun _ => r
  notifyWatcher c key kind i

/-- Takes an instance off the registry of a connector; false if it was not there. -/
def deregisterInstance (c : ConnectorId) (key host : String) (tcpPort : UInt16) : Act Bool := do
  match ((← get).connector c).registry.deregister key host tcpPort with
  | none => return false
  | some (i, r) =>
    modifyRegistry c fun _ => r
    notifyWatcher c key .deleted i
    return true

end RouteSync.Act
