import RouteSync.Registration
import RouteSync.Text.Quoted
import RouteSync.Wire

/-!
# Settings

The settings of a node, their defaults, and how they are written as JSON and in diagnostics.
-/

namespace RouteSync

open RouteSync.Json RouteSync.Json.Tree RouteSync.Text

structure DiscoverySettings where
  /-- The watch key of handlers that name none. -/
  defaultListenerNode : String := "/shenyu/discovery"
  /-- The protocol of endpoints that come without one. -/
  defaultProtocol : String := "http://"
  /-- How many stripes the locks of the discovery ids have. -/
  lockStripes : Nat := 64
  /-- How many events may wait for the dispatcher. -/
  eventCapacity : Nat := 1024
  deriving DecidableEq, Repr

inductive StorageBackend
  | memory
  | embedded
  deriving DecidableEq, Repr

structure StorageSettings where
  backend : StorageBackend := .memory
  /-- Where the embedded database is kept. -/
  directory : String := "/tmp/discovery-db"
  deriving DecidableEq, Repr

structure MonitoringSettings where
  enabled : Bool := false
  tcpPort : Nat := 9090
  deriving DecidableEq, Repr

structure Settings where
  discovery : DiscoverySettings := {}
  storage : StorageSettings := {}
  monitoring : MonitoringSettings := {}
  logDirectory : String := "./logs"
  /-- The registrations that are created when the node starts. -/
  registrations : List Registration := []
  deriving DecidableEq, Repr

/-! ### JSON -/

namespace DiscoverySettings

def fieldNames : List String :=
  ["default_listener_node", "default_protocol", "lock_stripes", "event_channel_capacity"]

def toJson (s : DiscoverySettings) : Value :=
  .obj [("default_listener_node", .str s.defaultListenerNode),
    ("default_protocol", .str s.defaultProtocol), ("lock_stripes", .ofNat s.lockStripes),
    ("event_channel_capacity", .ofNat s.eventCapacity)]

def ofTree? (t : Tree) : Option DiscoverySettings := do
  let d : DiscoverySettings := {}
  match ← t.fields? fieldNames with
  | [node, protocol, stripes, capacity] =>
    return {
      defaultListenerNode := ← defaulted text? d.defaultListenerNode node
      defaultProtocol := ← defaulted text? d.defaultProtocol protocol
      lockStripes := ← defaulted (nat? maxUInt64) d.lockStripes stripes
      eventCapacity := ← defaulted (nat? maxUInt64) d.eventCapacity capacity }
  | _ => none

def shown (s : DiscoverySettings) : String :=
  shownRecord "DiscoveryConfig" [("default_listener_node", quoted s.defaultListenerNode),
    ("default_protocol", quoted s.defaultProtocol), ("lock_stripes", toString s.lockStripes),
    ("event_channel_capacity", toString s.eventCapacity)]

end DiscoverySettings

namespace StorageBackend

def all : List StorageBackend := [.memory, .embedded]

def label : StorageBackend → String
  | .memory => "memory"
  | .embedded => "sled"

def ofLabel? (s : String) : Option StorageBackend := all.find? fun b => b.label == s

def shown : StorageBackend → String
  | .memory => "Memory"
  | .embedded => "Sled"

end StorageBackend

namespace StorageSettings

def fieldNames : List String := ["backend", "db_root_dir"]

def toJson (s : StorageSettings) : Value :=
  .obj [("backend", .str s.backend.label), ("db_root_dir", .str s.directory)]

def ofTree? (t : Tree) : Option StorageSettings := do
  let d : StorageSettings := {}
  match ← t.fields? fieldNames with
  | [backend, directory] =>
    return {
      backend := ← defaulted (fun t => t.name?.bind StorageBackend.ofLabel?) d.backend backend
      directory := ← defaulted text? d.directory directory }
  | _ => none

def shown (s : StorageSettings) : String :=
  shownRecord "StorageConfig" [("backend", s.backend.shown), ("db_root_dir", quoted s.directory)]

end StorageSettings

namespace MonitoringSettings

def fieldNames : List String := ["prometheus_enabled", "prometheus_port"]

def toJson (s : MonitoringSettings) : Value :=
  .obj [("prometheus_enabled", .bool s.enabled), ("prometheus_port", .ofNat s.tcpPort)]

def ofTree? (t : Tree) : Option MonitoringSettings := do
  let d : MonitoringSettings := {}
  match ← t.fields? fieldNames with
  | [enabled, tcpPort] =>
    return {
      enabled := ← defaulted bool? d.enabled enabled
      tcpPort := ← defaulted (nat? 65535) d.tcpPort tcpPort }
  | _ => none

end MonitoringSettings

namespace Settings

def fieldNames : List String := ["discovery", "storage", "monitoring", "log_dir", "registrations"]

def toJson (s : Settings) : Value :=
  .obj [("discovery", s.discovery.toJson), ("storage", s.storage.toJson),
    ("monitoring", s.monitoring.toJson), ("log_dir", .str s.logDirectory),
    ("registrations", .arr (s.registrations.map Registration.toJson))]

def ofTree? (t : Tree) : Option Settings := do
  match ← t.fields? fieldNames with
  | [discovery, storage, monitoring, logDirectory, registrations] =>
    return {
      discovery := ← defaulted DiscoverySettings.ofTree? {} discovery
      storage := ← defaulted StorageSettings.ofTree? {} storage
      monitoring := ← defaulted MonitoringSettings.ofTree? {} monitoring
      logDirectory := ← defaulted text? "./logs" logDirectory
      registrations := ← defaulted (list? Registration.ofTree?) [] registrations }
  | _ => none

/-- Diagnostics leave out the monitoring and the log directory, and count the registrations. -/
def shown (s : Settings) : String :=
  shownRecord "DiscoveryNodeConfig" [("discovery", s.discovery.shown), ("storage", s.storage.shown),
    ("registrations", toString s.registrations.length)]

end Settings

end RouteSync
