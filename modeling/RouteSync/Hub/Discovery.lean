import RouteSync.Hub.Registering
import RouteSync.LockStripes
import RouteSync.Reconcile

/-!
# Administering discovery

The operations of a control plane: registrations are created and removed, selectors subscribe to watch
keys and leave them, and the stored endpoints of a route are reconciled with the live instances.
Operations on an id that is not registered do nothing.

The interface names them by what they are for: `create_discovery` and `remove_discovery` are
`createDiscovery` and `removeDiscovery`, `create_proxy_selector` is `subscribe`, `remove_proxy_selector`
is `unsubscribe`, `fetch_all` is `fetchAll`, `add_discovery_sync_data_listener` is `bindHandler`,
`remove_selector_upstream` is `withdrawEndpoints`, and `change_upstream` is `announceEndpoints`.
-/

namespace RouteSync

def Hub.locks (h : Hub) : LockStripes := .create h.settings.lockStripes

def Hub.shown (h : Hub) : String :=
  Text.shownRecord "DefaultDiscoveryProcessor" [("registrations", h.registrationsShown),
    ("listeners", toString h.active.size), ("locks", h.locks.shown)]

/-- The key that a handler watches in this hub. -/
def Hub.watchKey (h : Hub) (handler : Handler) : String :=
  handler.watchKey h.settings.defaultListenerNode

namespace Act

def createDiscovery (r : Registration) : Act Unit := discard (register r)

def dropActive (id : String) : Act Unit := modify fun h => { h with active := h.active.erase id }

/-- Drops a registration with its listener, also when its connector fails to let go. -/
def removeDiscovery (r : Registration) : Act Unit := do
  match ← attempt (deregister r) with
  | .ok false => pure ()
  | .ok true => dropActive r.id
  | .error e =>
    dropActive r.id
    throw e

/-- The listener for a handler's route, not yet registered. -/
def buildListener (handler : Handler) (s : Selector) : Act ListenerId := do
  let mapping ← ofExcept .invalid (Mapping.read handler.mapping)
  step fun h => h.addListener (.sync {
    mapping := mapping
    contexts := [.ofHandler s handler]
    discoveryId := handler.discoveryId
    defaultProtocol := h.settings.defaultProtocol })

def setActive (id : String) (l : ListenerId) : Act Unit :=
  modify fun h => { h with active := h.active.insert id l }

/-- Subscribes a new listener to the handler's watch key and announces the selector.  A key that is
tracked already is left alone; a watch that fails leaves no track. -/
def subscribe (handler : Handler) (s : Selector) : Act Unit := do
  let h ← get
  let id := handler.discoveryId
  let key := h.watchKey handler
  match h.registrations.connectors.get? id with
  | none => pure ()
  | some c =>
    if h.registrations.isTracked id key then
      pure ()
    else
      let l ← buildListener handler s
      discard (track id key)
      match ← attempt (watchInstances c key l) with
      | .error e =>
        discard (untrack id key)
        throw e
      | .ok _ =>
        setActive id l
        publish (.single .routeSelector .update (.ofSelector s))

/-- Gives up the handler's watch key and withdraws the selector. -/
def unsubscribe (handler : Handler) (s : Selector) : Act Unit := do
  let id := handler.discoveryId
  let key := (← get).watchKey handler
  if ← untrack id key then
    match (← get).registrations.connectors.get? id with
    | some c => unwatchInstances c key
    | none => pure ()
    publish (.single .routeSelector .delete (.ofSelector s))

/-- Deletes stale records in one call and counts them. -/
def deleteStale (discoveryId : String) (ids : List String) : Act Unit := do
  if ids.isEmpty then
    pure ()
  else
    let n ← deleteByIds ids
    count (.deleted discoveryId) n

/-- Inserts candidates one by one and counts them. -/
def insertAll (discoveryId owner : String) (l : List Endpoint) : Act Unit :=
  l.forM fun e => do
    insert owner e
    count (.inserted discoveryId) 1

/-- Makes the stored endpoints of a handler those that are live, and gives the candidates. -/
def reconcile (c : ConnectorId) (handler : Handler) (s : Selector) : Act (List Endpoint) := do
  let h ← get
  let instances ← selectInstances c (h.watchKey handler)
  let live := candidates instances s h.settings.defaultProtocol
  let plan := Plan.of (← select handler.id) live
  deleteStale handler.discoveryId plan.stale
  insertAll handler.discoveryId handler.id plan.inserts
  return live

/-- One reconciliation pass for a handler's route; publishes the candidates. -/
def fetchAll (handler : Handler) (s : Selector) : Act Unit := do
  match (← get).registrations.connectors.get? handler.discoveryId with
  | none => pure ()
  | some c =>
    match ← attempt (reconcile c handler s) with
    | .error e =>
      count (.reconcileFailures handler.discoveryId) 1
      throw e
    | .ok live =>
      count (.reconcilePasses handler.discoveryId) 1
      publish (.single .discoveredEndpoint .update ((RouteRecord.ofSelector s).withEndpoints live))

/-- Publishes that a selector has no endpoints any more. -/
def withdrawEndpoints (s : Selector) : Act Unit :=
  publish (.single .discoveredEndpoint .delete (.ofSelector s))

/-- Publishes the endpoints of a selector. -/
def announceEndpoints (s : Selector) (l : List Endpoint) : Act Unit :=
  publish (.single .discoveredEndpoint .update ((RouteRecord.ofSelector s).withEndpoints l))

/-- Binds another route to the listener of the handler's discovery id, if there is one. -/
def bindHandler (handler : Handler) (s : Selector) : Act Unit := do
  match (← get).active.get? handler.discoveryId with
  | some l => bindRoute l (.ofHandler s handler)
  | none => pure ()

end Act

end RouteSync
