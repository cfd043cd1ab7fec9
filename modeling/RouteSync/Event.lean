import RouteSync.Endpoint

/-!
# Changes

A `RegistryChange` is what a watch reports about one key of a registry.  A `ChangeEvent` is what the
control plane publishes; it carries one `RouteRecord` per route.
-/

namespace RouteSync

/-- What one change event says about one route. -/
structure RouteRecord where
  pluginName : String
  selectorId : String
  selectorName : String
  namespaceId : String
  /-- The route handler whose stored endpoints the record is about. -/
  owner : Option String := none
  endpoints : Option (List Endpoint) := none
  deriving DecidableEq, Repr

namespace RouteRecord

/-- The route alone. -/
def ofSelector (s : Selector) : RouteRecord where
  pluginName := s.pluginName
  selectorId := s.id
  selectorName := s.name
  namespaceId := s.namespaceId

/-- The route with the handler that owns its endpoints. -/
def ofHandler (s : Selector) (h : Handler) : RouteRecord := { ofSelector s with owner := some h.id }

def withEndpoints (r : RouteRecord) (l : List Endpoint) : RouteRecord :=
  { r with endpoints := some l }

end RouteRecord

inductive EventGroup
  | routeSelector
  | discoveredEndpoint
  deriving DecidableEq, Repr

inductive EventAction
  | update
  | delete
  deriving DecidableEq, Repr

def EventGroup.label : EventGroup → String
  | .routeSelector => "ROUTE_SELECTOR"
  | .discoveredEndpoint => "DISCOVERED_UPSTREAM"

def EventAction.label : EventAction → String
  | .update => "UPDATE"
  | .delete => "DELETE"

/-- A published change. -/
structure ChangeEvent where
  group : EventGroup
  action : EventAction
  payload : List RouteRecord
  deriving DecidableEq, Repr

def ChangeEvent.single (g : EventGroup) (a : EventAction) (r : RouteRecord) : ChangeEvent := ⟨g, a, [r]⟩

inductive ChangeKind
  | added
  | updated
  | deleted
  | ignored
  deriving DecidableEq, Repr

/-- A change under a watched key; `value` is the text of a payload. -/
structure RegistryChange where
  key : String
  value : String
  kind : ChangeKind
  deriving DecidableEq, Repr

end RouteSync
