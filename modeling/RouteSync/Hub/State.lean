import RouteSync.EventQueue
import RouteSync.Hub.Journal
import RouteSync.KeySet
import RouteSync.LocalRegistry
import RouteSync.Payload
import RouteSync.Settings.Basic
import RouteSync.Store

/-!
# The state of a hub

A hub connects service registries to the endpoint store and the event stream.  It knows its connectors
and listeners by number, so two registrations can share one connector, and a connector and the listener
table can hold the same listener.
-/

namespace RouteSync

/-- The number of a connector. -/
abbrev ConnectorId := Nat

/-- What instruments a connector: a label under which its calls are entered in the journal, scripted
answers to selections, its own table of watchers, and a change with which it answers every watch. -/
structure Probe where
  label : String
  scripted : Table String (List Instance) := .empty
  watched : Table String ListenerId := .empty
  onWatch : Option (String × ChangeKind) := none

/-- A connection to a registry, perhaps instrumented. -/
structure Connector where
  registry : LocalRegistry := {}
  probe : Option Probe := none

instance : Inhabited Connector := ⟨{}⟩

/-- How the connectors of one type are made. -/
inductive Provider
  /-- One connector for all. -/
  | shared (c : ConnectorId)
  /-- A new instrumented connector for every request. -/
  | fresh (onWatch : Option (String × ChangeKind))

/-- Applies the changes of a registry to the store and publishes the result for every bound route.  The
first context is the one it was made for. -/
structure SyncListener where
  mapping : Mapping
  contexts : List RouteRecord
  discoveryId : String
  defaultProtocol : String

inductive Listener
  | sync (l : SyncListener)
  /-- Enters what it is told in the journal. -/
  | recording (name : String)

/-- Which connector serves a discovery id, and which keys are watched through it. -/
structure Registrations where
  connectors : Table String ConnectorId := .empty
  watchKeys : Table String KeySet := .empty

inductive Publisher
  /-- Enters events in the journal. -/
  | recording
  /-- Queues events for the dispatcher. -/
  | queued (q : EventQueue)

structure Hub where
  settings : DiscoverySettings := {}
  /-- The providers, by normalized type. -/
  providers : Table String Provider := .empty
  connectors : List Connector := []
  listeners : List Listener := []
  registrations : Registrations := {}
  /-- The listener of a discovery id; a later one replaces an earlier one. -/
  active : Table String ListenerId := .empty
  store : Store := .memory .empty
  publisher : Publisher := .recording
  metrics : Metrics := .zero
  /-- Milliseconds since the epoch. -/
  clock : UInt64 := 0
  /-- How many record ids have been drawn. -/
  drawn : Nat := 0
  /-- How many instrumented connectors have been made. -/
  probes : Nat := 0
  faults : List Fault := []
  journal : List JournalEntry := []

/-- An action of a hub.  An action that fails keeps what it has done so far. -/
abbrev Act := EStateM Error Hub

namespace Hub

/-! ### Parts of the state -/

def connector (h : Hub) (c : ConnectorId) : Connector := h.connectors.getD c default

def modifyConnector (h : Hub) (c : ConnectorId) (f : Connector → Connector) : Hub :=
  { h with connectors := h.connectors.modify c f }

def addConnector (h : Hub) (c : Connector) : Hub × ConnectorId :=
  ({ h with connectors := h.connectors ++ [c] }, h.connectors.length)

/-- A new instrumented connector, labelled by its number among these. -/
def addProbe (h : Hub) (onWatch : Option (String × ChangeKind)) : Hub × ConnectorId :=
  let probe : Probe := { label := "c" ++ toString h.probes, onWatch := onWatch }
  { h with probes := h.probes + 1 }.addConnector { probe := some probe }

def addListener (h : Hub) (l : Listener) : Hub × ListenerId :=
  ({ h with listeners := h.listeners ++ [l] }, h.listeners.length)

/-- Enters an event in the journal, or offers it to the queue and counts it. -/
def publish (h : Hub) (e : ChangeEvent) : Hub :=
  match h.publisher with
  | .recording => { h with journal := h.journal ++ [.event e] }
  | .queued q =>
    let (q, m) := q.offer h.metrics e
    { h with publisher := .queued q, metrics := m }

def count (h : Hub) (c : Counter) (n : Nat) : Hub := { h with metrics := h.metrics.add c n }

end Hub

namespace Act

/-- Runs an action that cannot fail. -/
def step {α : Type} (f : Hub → Hub × α) : Act α := fun h =>
  let (h, a) := f h
  .ok a h

/-- Turns the outcome of a pure operation into that of an action. -/
def ofExcept {ε α : Type} (wrap : ε → Error) : Except ε α → Act α
  | .ok a => pure a
  | .error e => throw (wrap e)

/-- Runs an action and gives its outcome, keeping what it did. -/
def attempt {α : Type} (a : Act α) : Act (Except Error α) := fun h =>
  match a h with
  | .ok a h => .ok (.ok a) h
  | .error e h => .ok (.error e) h

/-- Enters a call in the journal and lets the fault plan fail it. -/
def call (entry : JournalEntry) : Act Unit := fun h =>
  let h := { h with journal := h.journal ++ [entry] }
  match Fault.consult entry.callName h.faults with
  | (none, fs) => .ok () { h with faults := fs }
  | (some e, fs) => .error e { h with faults := fs }

def publish (e : ChangeEvent) : Act Unit := modify fun h => h.publish e

def count (c : Counter) (n : Nat) : Act Unit := modify fun h => h.count c n

end Act

end RouteSync
