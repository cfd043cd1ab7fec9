import RouteSync.Hub.Storage

/-!
# Listeners at work

What a listener does with a change of its registry, and how routes are bound to it.  A change that is
ignored or names no endpoints does nothing.  Otherwise the listener takes its routes in order: it writes
all endpoints of the change for the route's owner, selects what the owner has now, and publishes that.  In
the interface of listeners `on_change` is `syncChange` (of any listener, `notify`) and `add_listener` is
`bindRoute`.
-/

namespace RouteSync

namespace SyncListener

/-- An endpoint of a change as it is stored for a route: the route's namespace and the default protocol
stand in for blank ones. -/
def stamp (l : SyncListener) (route : RouteRecord) (owner : String) (e : Endpoint) : Endpoint :=
  { e with
    owner := some owner
    namespaceId :=
      match e.namespaceId with
      | some n => if Text.isBlank n then some route.namespaceId else some n
      | none => some route.namespaceId
    protocol := if Text.isBlank e.protocol then l.defaultProtocol else e.protocol }

/-- Binds a route, unless its selector and owner are bound already. -/
def bind (l : SyncListener) (r : RouteRecord) : SyncListener :=
  if l.contexts.any fun c => c.selectorId == r.selectorId && c.owner == r.owner then l
  else { l with contexts := l.contexts ++ [r] }

def shown (l : SyncListener) : String :=
  Text.shownRecord "DiscoveryDataChangedEventSyncListener"
    [("discovery_id", Text.quoted l.discoveryId), ("contexts", toString l.contexts.length)]

end SyncListener

namespace Act

/-- Writes one endpoint of a change. -/
def applyChange (kind : ChangeKind) (owner : String) (e : Endpoint) : Act Unit := do
  match kind with
  | .added | .updated =>
    if !(← update owner e) then
      insert owner e
  | .deleted => discard (deleteByUrl owner e.url)
  | .ignored => pure ()

/-- Writes the endpoints of a change for one route and publishes what its owner has now.  A route
without an owner is passed over. -/
def syncRoute (l : SyncListener) (kind : ChangeKind) (endpoints : List Endpoint) (route : RouteRecord) :
    Act Unit := do
  match route.owner with
  | none => pure ()
  | some owner =>
    endpoints.forM fun e => applyChange kind owner (l.stamp route owner e)
    let now ← select owner
    publish (.single .discoveredEndpoint .update (route.withEndpoints (now.map Endpoint.ofStored)))

def syncChange (l : SyncListener) (c : RegistryChange) : Act Unit := do
  if c.kind = .ignored then
    pure ()
  else
    let endpoints ← ofExcept .invalid (Payload.read l.mapping c.value)
    if endpoints.isEmpty then
      pure ()
    else
      l.contexts.forM fun route => syncRoute l c.kind endpoints route

/-- Tells a listener about a change. -/
def notify (id : ListenerId) (c : RegistryChange) : Act Unit := do
  match (← get).listeners[id]? with
  | some (.sync l) => syncChange l c
  | some (.recording name) => call (.change name c)
  | none => pure ()

/-- Binds a route to a listener. -/
def bindRoute (id : ListenerId) (r : RouteRecord) : Act Unit := do
  match (← get).listeners[id]? with
  | some (.sync l) => modify fun h => { h with listeners := h.listeners.set id (.sync (l.bind r)) }
  | some (.recording name) =>
    modify fun h => { h with journal := h.journal ++ [.bind name r] }
  | none => pure ()

end Act

end RouteSync
