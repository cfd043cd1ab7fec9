import RouteSync.Registration

/-!
# Endpoints

The same network endpoint has three shapes: the `Instance` that a registry reports live, the
`StoredEndpoint` that is kept for a route handler, and the `Endpoint` in which both travel inside change
events.
-/

namespace RouteSync

/-- An instance as a registry reports it. -/
structure Instance where
  host : String
  tcpPort : UInt16
  weight : Int32
  status : Int32
  deriving DecidableEq, Repr

/-- The address of an instance: its host, a colon and its number. -/
def Instance.url (i : Instance) : String := i.host ++ ":" ++ toString i.tcpPort.toNat

/-- The columns of a stored endpoint that an update overwrites. -/
structure Columns where
  namespaceId : String
  protocol : String
  status : Int32
  weight : Int32
  props : String
  deriving DecidableEq, Repr

/-- A stored endpoint; there is at most one per owner and address. -/
structure StoredEndpoint where
  id : String
  /-- The route handler it belongs to. -/
  owner : String
  url : String
  columns : Columns
  /-- Milliseconds since the epoch. -/
  created : UInt64
  updated : UInt64
  deriving DecidableEq, Repr

/-- An endpoint as it travels in a change event. -/
structure Endpoint where
  id : Option String := none
  owner : Option String := none
  namespaceId : Option String := none
  url : String
  weight : Int32
  status : Int32
  protocol : String
  props : Option String := none
  created : Option UInt64 := none
  updated : Option UInt64 := none
  deriving DecidableEq, Repr

namespace Endpoint

/-- A live instance as a candidate for a selector, owned by the selector. -/
def ofInstance (i : Instance) (s : Selector) (protocol : String) : Endpoint where
  owner := some s.id
  namespaceId := some s.namespaceId
  url := i.url
  weight := i.weight
  status := i.status
  protocol := protocol

/-- A stored endpoint as it travels; empty properties are left out. -/
def ofStored (r : StoredEndpoint) : Endpoint where
  id := some r.id
  owner := some r.owner
  namespaceId := some r.columns.namespaceId
  url := r.url
  weight := r.columns.weight
  status := r.columns.status
  protocol := r.columns.protocol
  props := if r.columns.props = "" then none else some r.columns.props
  created := some r.created
  updated := some r.updated

/-- The columns to store; absent texts are stored empty. -/
def columns (e : Endpoint) : Columns where
  namespaceId := e.namespaceId.getD ""
  protocol := e.protocol
  status := e.status
  weight := e.weight
  props := e.props.getD ""

/-- A new stored endpoint of `owner`. -/
def stored (e : Endpoint) (id owner : String) (now : UInt64) : StoredEndpoint where
  id := id
  owner := owner
  url := e.url
  columns := e.columns
  created := now
  updated := now

end Endpoint

end RouteSync
