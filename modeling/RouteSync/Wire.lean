import RouteSync.Event
import RouteSync.Json.Fields

/-!
# The wire format

How the domain's records are written as JSON and read back.  Every record has its reader and its writer
side by side: the writer names the fields in the order of the record and leaves absent optional fields
out, the reader accepts what `Tree.fields?` accepts.
-/

namespace RouteSync

open RouteSync.Json RouteSync.Json.Tree

/-- A member that is left out when its value is absent. -/
def member? {α : Type} (name : String) (write : α → Value) : Option α → List (String × Value)
  | none => []
  | some a => [(name, write a)]

def int32Value (n : Int32) : Value := .ofInt n.toInt

def uint64Value (n : UInt64) : Value := .ofNat n.toNat

namespace Registration

def fieldNames : List String := ["id", "name", "type", "props", "server_list", "namespace_id"]

def toJson (r : Registration) : Value :=
  .obj [("id", .str r.id), ("name", .str r.name), ("type", .str r.registryType),
    ("props", .str r.props), ("server_list", .ofStrings r.servers),
    ("namespace_id", .str r.namespaceId)]

def ofTree? (t : Tree) : Option Registration := do
  match ← t.fields? fieldNames with
  | [id, name, type, props, servers, namespaceId] =>
    return {
      id := ← required text? id
      name := ← defaulted text? "" name
      registryType := ← required text? type
      props := ← defaulted text? "" props
      servers := ← defaulted (list? text?) [] servers
      namespaceId := ← defaulted text? "" namespaceId }
  | _ => none

end Registration

namespace Handler

def fieldNames : List String := ["id", "discovery_id", "listener_node", "handler", "props"]

def toJson (h : Handler) : Value :=
  .obj [("id", .str h.id), ("discovery_id", .str h.discoveryId),
    ("listener_node", .str h.listenerNode), ("handler", .str h.mapping), ("props", .str h.props)]

def ofTree? (t : Tree) : Option Handler := do
  match ← t.fields? fieldNames with
  | [id, discoveryId, listenerNode, mapping, props] =>
    return {
      id := ← required text? id
      discoveryId := ← required text? discoveryId
      listenerNode := ← defaulted text? "" listenerNode
      mapping := ← defaulted text? "" mapping
      props := ← defaulted text? "" props }
  | _ => none

end Handler

namespace Selector

def fieldNames : List String := ["id", "name", "plugin_name", "namespace_id"]

def toJson (s : Selector) : Value :=
  .obj [("id", .str s.id), ("name", .str s.name), ("plugin_name", .str s.pluginName),
    ("namespace_id", .str s.namespaceId)]

def ofTree? (t : Tree) : Option Selector := do
  match ← t.fields? fieldNames with
  | [id, name, pluginName, namespaceId] =>
    return {
      id := ← required text? id
      name := ← required text? name
      pluginName := ← required text? pluginName
      namespaceId := ← defaulted text? "" namespaceId }
  | _ => none

end Selector

namespace Instance

def fieldNames : List String := ["host", "port", "weight", "status"]

def toJson (i : Instance) : Value :=
  .obj [("host", .str i.host), ("port", .ofNat i.tcpPort.toNat), ("weight", int32Value i.weight),
    ("status", int32Value i.status)]

def ofTree? (t : Tree) : Option Instance := do
  match ← t.fields? fieldNames with
  | [host, tcpPort, weight, status] =>
    return {
      host := ← required text? host
      tcpPort := ← required uint16? tcpPort
      weight := ← required int32? weight
      status := ← required int32? status }
  | _ => none

end Instance

namespace StoredEndpoint

def fieldNames : List String :=
  ["id", "discovery_handler_id", "namespace_id", "protocol", "url", "status", "weight", "props",
    "date_created", "date_updated"]

def toJson (r : StoredEndpoint) : Value :=
  .obj [("id", .str r.id), ("discovery_handler_id", .str r.owner),
    ("namespace_id", .str r.columns.namespaceId), ("protocol", .str r.columns.protocol),
    ("url", .str r.url), ("status", int32Value r.columns.status),
    ("weight", int32Value r.columns.weight), ("props", .str r.columns.props),
    ("date_created", uint64Value r.created), ("date_updated", uint64Value r.updated)]

def ofTree? (t : Tree) : Option StoredEndpoint := do
  match ← t.fields? fieldNames with
  | [id, owner, namespaceId, protocol, url, status, weight, props, created, updated] =>
    return {
      id := ← required text? id
      owner := ← required text? owner
      url := ← required text? url
      columns := {
        namespaceId := ← required text? namespaceId
        protocol := ← required text? protocol
        status := ← required int32? status
        weight := ← required int32? weight
        props := ← required text? props }
      created := ← required uint64? created
      updated := ← required uint64? updated }
  | _ => none

end StoredEndpoint

namespace Endpoint

def fieldNames : List String :=
  ["id", "discoveryHandlerId", "namespaceId", "url", "weight", "status", "protocol", "props",
    "dateCreated", "dateUpdated"]

def toJson (e : Endpoint) : Value :=
  .obj (member? "id" .str e.id ++ member? "discoveryHandlerId" .str e.owner
    ++ member? "namespaceId" .str e.namespaceId
    ++ [("url", .str e.url), ("weight", int32Value e.weight), ("status", int32Value e.status),
      ("protocol", .str e.protocol)]
    ++ member? "props" .str e.props ++ member? "dateCreated" uint64Value e.created
    ++ member? "dateUpdated" uint64Value e.updated)

def ofTree? (t : Tree) : Option Endpoint := do
  match ← t.fields? fieldNames with
  | [id, owner, namespaceId, url, weight, status, protocol, props, created, updated] =>
    return {
      id := ← optional text? id
      owner := ← optional text? owner
      namespaceId := ← optional text? namespaceId
      url := ← required text? url
      weight := ← required int32? weight
      status := ← required int32? status
      protocol := ← required text? protocol
      props := ← optional text? props
      created := ← optional uint64? created
      updated := ← optional uint64? updated }
  | _ => none

end Endpoint

namespace RouteRecord

def fieldNames : List String :=
  ["pluginName", "selectorId", "selectorName", "namespaceId", "discoveryHandlerId", "upstreamList"]

def toJson (r : RouteRecord) : Value :=
  .obj ([("pluginName", .str r.pluginName), ("selectorId", .str r.selectorId),
      ("selectorName", .str r.selectorName), ("namespaceId", .str r.namespaceId)]
    ++ member? "discoveryHandlerId" .str r.owner
    ++ member? "upstreamList" (fun l => .arr (l.map Endpoint.toJson)) r.endpoints)

def ofTree? (t : Tree) : Option RouteRecord := do
  match ← t.fields? fieldNames with
  | [pluginName, selectorId, selectorName, namespaceId, owner, endpoints] =>
    return {
      pluginName := ← required text? pluginName
      selectorId := ← required text? selectorId
      selectorName := ← required text? selectorName
      namespaceId := ← required text? namespaceId
      owner := ← optional text? owner
      endpoints := ← optional (list? Endpoint.ofTree?) endpoints }
  | _ => none

end RouteRecord

def EventGroup.ofLabel? (s : String) : Option EventGroup :=
  [EventGroup.routeSelector, .discoveredEndpoint].find? fun g => g.label == s

def EventAction.ofLabel? (s : String) : Option EventAction :=
  [EventAction.update, .delete].find? fun a => a.label == s

namespace ChangeEvent

def fieldNames : List String := ["group", "type", "payload"]

def toJson (e : ChangeEvent) : Value :=
  .obj [("group", .str e.group.label), ("type", .str e.action.label),
    ("payload", .arr (e.payload.map RouteRecord.toJson))]

def ofTree? (t : Tree) : Option ChangeEvent := do
  match ← t.fields? fieldNames with
  | [group, action, payload] =>
    return {
      group := ← required (fun t => t.name?.bind EventGroup.ofLabel?) group
      action := ← required (fun t => t.name?.bind EventAction.ofLabel?) action
      payload := ← required (list? RouteRecord.ofTree?) payload }
  | _ => none

end ChangeEvent

end RouteSync
