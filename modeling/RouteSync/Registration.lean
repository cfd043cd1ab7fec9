import RouteSync.Text.Blank

/-!
# What an administrator declares

A registration names a service registry, a handler binds a route handler to a registration, and a
selector is the route that discovered endpoints are attached to.
-/

namespace RouteSync

/-- A configured connection to a service registry. -/
structure Registration where
  id : String
  name : String := ""
  /-- The tag that picks the kind of registry. -/
  registryType : String
  /-- Connection properties, as the text of a JSON object. -/
  props : String := ""
  servers : List String := []
  namespaceId : String := ""
  deriving DecidableEq, Repr

/-- The binding of a route handler to a registration. -/
structure Handler where
  /-- The route handler that owns the stored endpoints. -/
  id : String
  discoveryId : String
  /-- The watch key inside the registry; blank selects the default one. -/
  listenerNode : String := ""
  /-- Which payload key holds which field, as the text of a JSON object. -/
  mapping : String := ""
  props : String := ""
  deriving DecidableEq, Repr

/-- The route that endpoints are attached to. -/
structure Selector where
  id : String
  name : String
  pluginName : String
  namespaceId : String := ""
  deriving DecidableEq, Repr

/-- The key that a handler watches. -/
def Handler.watchKey (h : Handler) (defaultNode : String) : String :=
  if Text.isBlank h.listenerNode then defaultNode else h.listenerNode

end RouteSync
