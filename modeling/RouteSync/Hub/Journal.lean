import RouteSync.Error
import RouteSync.Event
import RouteSync.Table

/-!
# The journal of a hub and its faults

Every call of a hub to what lies outside it is entered in a journal: calls to instrumented registries
and to the store, what recording listeners are told, and the events of a recording publisher.  A fault
plan says which of these calls fail: each fault lets some calls of its name pass and then fails some.
-/

namespace RouteSync

/-- The parameters with which a registry is set up. -/
structure Connection where
  registryType : String
  servers : List String
  props : Table String String

inductive RegistryCall
  | setUp (c : Connection)
  | select (key : String)
  | watch (key : String)
  | unwatch (key : String)
  | close

inductive StoreCall
  | select (owner : String)
  | insert (owner url : String)
  | deleteByIds (ids : List String)
  | update (owner url : String)
  | deleteByUrl (owner url : String)

inductive JournalEntry
  /-- A call to the instrumented registry with this label. -/
  | registry (label : String) (call : RegistryCall)
  | store (call : StoreCall)
  /-- A change that the recording listener with this name was told. -/
  | change (listener : String) (c : RegistryChange)
  /-- A route that was bound to the recording listener with this name. -/
  | bind (listener : String) (r : RouteRecord)
  | event (e : ChangeEvent)

def RegistryCall.name : RegistryCall → String
  | .setUp _ => "init"
  | .select _ => "select"
  | .watch _ => "watch"
  | .unwatch _ => "unwatch"
  | .close => "close"

def StoreCall.name : StoreCall → String
  | .select _ => "select"
  | .insert _ _ => "insert"
  | .deleteByIds _ => "delete_by_ids"
  | .update _ _ => "update"
  | .deleteByUrl _ _ => "delete_by_url"

/-- The name under which faults refer to a call. -/
def JournalEntry.callName : JournalEntry → String
  | .registry label call => label ++ "." ++ call.name
  | .store call => "store." ++ call.name
  | .change listener _ => listener ++ ".on_change"
  | .bind listener _ => listener ++ ".add_listener"
  | .event _ => "event"

/-- Fails calls: `skip` of them pass first, then `times` fail with `error`. -/
structure Fault where
  call : String
  error : Error
  skip : Nat
  times : Nat
  deriving DecidableEq, Repr

/-- Asks the faults of one name in order.  A fault that still lets calls pass, or has failed often
enough, leaves the call to the next one. -/
def Fault.consult (call : String) : List Fault → Option Error × List Fault
  | [] => (none, [])
  | f :: rest =>
    if f.call ≠ call then
      let (e, rest) := consult call rest
      (e, f :: rest)
    else if 0 < f.skip then
      let (e, rest) := consult call rest
      (e, { f with skip := f.skip - 1 } :: rest)
    else if 0 < f.times then (some f.error, { f with times := f.times - 1 } :: rest)
    else
      let (e, rest) := consult call rest
      (e, f :: rest)

end RouteSync
