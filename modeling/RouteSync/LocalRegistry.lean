import RouteSync.Error
import RouteSync.Event
import RouteSync.Json.Value
import RouteSync.Table

/-!
# The registry inside the process

Instances are registered under watch keys by the program itself.  Under a key they stand in the order of
their first registration, one per address; registering an address again overwrites it in place.  At most
one listener watches a key.  Closing the registry forgets the watchers and keeps the instances.
-/

namespace RouteSync

/-- The number of a listener. -/
abbrev ListenerId := Nat

structure LocalRegistry where
  /-- Whether it has been set up since it was made or closed. -/
  ready : Bool := false
  instances : Table String (List Instance) := .empty
  watchers : Table String ListenerId := .empty

namespace LocalRegistry

/-- The name that errors give to this kind of registry. -/
def kindName : String := "local"

def empty : LocalRegistry := {}

instance : Inhabited LocalRegistry := ⟨empty⟩

/-- The instances under a key. -/
def instancesAt (r : LocalRegistry) (key : String) : List Instance := (r.instances.get? key).getD []

/-- Overwrites the first instance with the address of `i`, or adds `i` at the end. -/
def place (i : Instance) : List Instance → List Instance
  | [] => [i]
  | j :: rest => if j.url = i.url then i :: rest else j :: place i rest

/-- Registers an instance; the kind says whether its address was there. -/
def register (r : LocalRegistry) (key : String) (i : Instance) : LocalRegistry × ChangeKind :=
  let l := r.instancesAt key
  let kind := if l.any fun j => j.url == i.url then .updated else .added
  ({ r with instances := r.instances.insert key (place i l) }, kind)

/-- Removes the first instance with this host and number, if there is one. -/
def deregister (r : LocalRegistry) (key host : String) (tcpPort : UInt16) :
    Option (Instance × LocalRegistry) :=
  let l := r.instancesAt key
  (l.find? fun i => i.host == host && i.tcpPort == tcpPort).map fun i =>
    (i, { r with
      instances := r.instances.insert key
        (l.eraseP fun i => i.host == host && i.tcpPort == tcpPort) })

def setUp (r : LocalRegistry) : LocalRegistry := { r with ready := true }

def select (r : LocalRegistry) (key : String) : Except RegistryError (List Instance) :=
  if r.ready then .ok (r.instancesAt key) else .error (.notInitialized kindName)

/-- Makes `l` the watcher of a key. -/
def watch (r : LocalRegistry) (key : String) (l : ListenerId) : Except RegistryError LocalRegistry :=
  if r.ready then .ok { r with watchers := r.watchers.insert key l }
  else .error (.notInitialized kindName)

def unwatch (r : LocalRegistry) (key : String) : LocalRegistry :=
  { r with watchers := r.watchers.erase key }

def close (r : LocalRegistry) : LocalRegistry := { r with ready := false, watchers := .empty }

open RouteSync.Json in
/-- The payload that describes an instance to a watcher. -/
def payload (i : Instance) : String :=
  (Value.obj [("status", .ofInt i.status.toInt), ("url", .str i.url),
    ("weight", .ofInt i.weight.toInt)]).print

def change (key : String) (kind : ChangeKind) (i : Instance) : RegistryChange := ⟨key, payload i, kind⟩

end LocalRegistry

end RouteSync
