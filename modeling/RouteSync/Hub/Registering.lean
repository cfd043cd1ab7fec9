import RouteSync.FlatObject
import RouteSync.Hub.Factory

/-!
# The life of registrations

A registration is cached with its connector and the keys watched through it.  The connector is set up
when the first registration caches it and closed when the last one that shares it leaves; a registration
that leaves others behind only takes its own watches with it.  In the interface `track_key` is `track` and
`untrack_key` is `untrack`.
-/

namespace RouteSync

namespace Registrations

def contains (r : Registrations) (id : String) : Bool := r.connectors.contains id

def size (r : Registrations) : Nat := r.connectors.size

def isTracked (r : Registrations) (id key : String) : Bool :=
  match r.watchKeys.get? id with
  | some keys => keys.contains key
  | none => false

/-- Adds a key to those of an id; true if it is known and did not have it. -/
def track (r : Registrations) (id key : String) : Registrations × Bool :=
  match r.watchKeys.get? id with
  | none => (r, false)
  | some keys => ({ r with watchKeys := r.watchKeys.insert id (keys.insert key) }, !keys.contains key)

/-- Takes a key from those of an id; true if it had it. -/
def untrack (r : Registrations) (id key : String) : Registrations × Bool :=
  match r.watchKeys.get? id with
  | none => (r, false)
  | some keys => ({ r with watchKeys := r.watchKeys.insert id (keys.erase key) }, keys.contains key)

/-- Caches a connector under an id, without watch keys. -/
def add (r : Registrations) (id : String) (c : ConnectorId) : Registrations :=
  ⟨r.connectors.insert id c, r.watchKeys.insert id .empty⟩

def remove (r : Registrations) (id : String) : Registrations :=
  ⟨r.connectors.erase id, r.watchKeys.erase id⟩

/-- The ids that are served by a connector. -/
def sharers (r : Registrations) (c : ConnectorId) : List String :=
  (r.connectors.entries.filter fun e => e.2 == c).map Prod.fst

/-- The keys that are watched for some ids. -/
def keysOf (r : Registrations) (ids : List String) : List KeySet := ids.filterMap r.watchKeys.get?

end Registrations

def Hub.registrationsShown (h : Hub) : String :=
  Text.shownRecord "RegistrationManager" [("factory", h.factoryShown),
    ("connectors", toString h.registrations.size)]

namespace Act

def modifyRegistrations (f : Registrations → Registrations) : Act Unit :=
  modify fun h => { h with registrations := f h.registrations }

def moveActive (n : Int) : Act Unit := modify fun h => { h with metrics := h.metrics.moveActive n }

/-- Caches a registration with a connector that is set up for it; false if its id is cached already. -/
def register (r : Registration) : Act Bool := do
  if (← get).registrations.contains r.id then
    return false
  let props ← ofExcept .invalid (FlatObject.read "discovery props" r.props)
  let c ← createConnector r.registryType
  setUpRegistry c ⟨r.registryType, r.servers, props⟩
  count (.lifecycle r.registryType "init") 1
  modifyRegistrations fun rs => rs.add r.id c
  moveActive 1
  return true

/-- Unwatches keys one after another, also after a failure, and gives the first error. -/
def unwatchAll (c : ConnectorId) : List String → Act (Option Error)
  | [] => pure none
  | key :: keys => do
    let outcome ← attempt (unwatchInstances c key)
    let rest ← unwatchAll c keys
    match outcome with
    | .ok _ => return rest
    | .error e => return some e

/-- Drops a registration; false if its id is not cached.  The connector is closed unless other ids share
it; otherwise the keys that only this id watched are unwatched. -/
def deregister (r : Registration) : Act Bool := do
  let rs := (← get).registrations
  match rs.connectors.get? r.id with
  | none => return false
  | some c =>
    let released := (rs.watchKeys.get? r.id).getD .empty
    modifyRegistrations fun rs => rs.remove r.id
    moveActive (-1)
    let rs := rs.remove r.id
    let sharers := rs.sharers c
    if sharers.isEmpty then
      closeRegistry c
      count (.lifecycle r.registryType "close") 1
      return true
    else
      match ← unwatchAll c (released.without (rs.keysOf sharers)) with
      | none => return true
      | some e => throw e

def track (id key : String) : Act Bool :=
  step fun h =>
    let (rs, b) := h.registrations.track id key
    ({ h with registrations := rs }, b)

def untrack (id key : String) : Act Bool :=
  step fun h =>
    let (rs, b) := h.registrations.untrack id key
    ({ h with registrations := rs }, b)

end Act

end RouteSync
