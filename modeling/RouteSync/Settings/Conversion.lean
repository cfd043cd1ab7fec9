import RouteSync.Settings.Basic
import RouteSync.Settings.Layer

/-!
# From settings without a type to settings with one

A record is written as a table, or as the list of its fields in order.  Fields convert generously:
numbers, truth values and their words stand for one another where that makes sense.  What does not
convert is reported with the path that leads to it and with its origin.  Names that a record does not
know are skipped.
-/

namespace RouteSync

open RouteSync.Text RouteSync.Decimal

/-- What a setting is, for messages. -/
def Setting.found : Setting → Found
  | .scalar .nothing _ => .nothing
  | .scalar (.bool b) _ => .bool b
  | .scalar (.integer n) _ => .signed n
  | .scalar (.real d) _ => .real d
  | .scalar (.text s) _ => .text s
  | .list _ _ => .list
  | .table _ _ => .table

def Setting.origin : Setting → Option String
  | .scalar _ o => o
  | .list _ o => o
  | .table _ o => o

/-- The text of a path: names with points between them, positions in brackets and no point after
them. -/
def SettingPath.text : SettingPath → String
  | [] => ""
  | .index i :: rest => s!"[{i}]" ++ text rest
  | [.name s] => s
  | .name s :: .index i :: rest => s ++ text (.index i :: rest)
  | .name s :: rest => s ++ "." ++ text rest

/-- A setting together with the path that leads to it. -/
structure Placed where
  path : SettingPath
  setting : Setting

namespace Placed

def child (p : Placed) (step : SettingStep) (s : Setting) : Placed := ⟨p.path ++ [step], s⟩

def error (p : Placed) (found : Found) (expected : String) (origin : Option String) : SettingsError :=
  .conversion found expected (SettingPath.text p.path) origin

/-- The error for a setting that is something else than expected. -/
def mismatch {α : Type} (p : Placed) (expected : String) : Except SettingsError α :=
  .error (p.error p.setting.found expected p.setting.origin)

/-! ### Fields -/

def bool (p : Placed) : Except SettingsError Bool :=
  match p.setting with
  | .scalar (.bool b) _ => .ok b
  | .scalar (.integer n) _ => .ok (n != 0)
  | .scalar (.real d) _ => .ok (!d.isZero)
  | .scalar (.text s) origin =>
    let s := lower s
    if ["1", "true", "on", "yes"].contains s then .ok true
    else if ["0", "false", "off", "no"].contains s then .ok false
    else .error (p.error (.text s) "a boolean" origin)
  | _ => p.mismatch "a boolean"

/-- A natural number of 64 bits. -/
def nat (p : Placed) : Except SettingsError Nat :=
  match p.setting with
  | .scalar (.bool b) _ => .ok (if b then 1 else 0)
  | .scalar (.integer n) _ =>
    if 0 ≤ n then .ok n.toNat else p.mismatch "an unsigned 64 bit or less integer"
  | .scalar (.real d) _ => .ok d.toUInt64
  | .scalar (.text s) _ =>
    if ["true", "on", "yes"].contains (lower s) then .ok 1
    else if ["false", "off", "no"].contains (lower s) then .ok 0
    else
      match readUInt64? s with
      | some n => .ok n
      | none => p.mismatch "an integer"
  | _ => p.mismatch "an integer"

/-- A natural number of 16 bits; where one that is too large came from is not told. -/
def nat16 (p : Placed) : Except SettingsError Nat := do
  let n ← p.nat
  if n ≤ 65535 then return n
  else throw (p.error (.unsigned n) "an unsigned 16 bit integer" none)

def text (p : Placed) : Except SettingsError String :=
  match p.setting with
  | .scalar (.bool b) _ => .ok (toString b)
  | .scalar (.integer n) _ => .ok (toString n)
  | .scalar (.real d) _ => .ok (String.ofList d.plain)
  | .scalar (.text s) _ => .ok s
  | _ => p.mismatch "a string"

/-- One of some names in any case, as a text or as the only key of a table. -/
def variant {α : Type} (kind : String) (all : List α) (label : α → String) (p : Placed) :
    Except SettingsError α :=
  let pick (s : String) : Except SettingsError α :=
    match all.find? fun a => lower (label a) == lower s with
    | some a => .ok a
    | none => .error (.unknownVariant kind s)
  match p.setting with
  | .scalar (.text s) _ => pick s
  | .table [(s, _)] _ => pick s
  | _ => .error (.notVariant kind)

def items (l : List Setting) (path : SettingPath) : List Placed :=
  l.zipIdx.map fun e => ⟨path ++ [.index e.2], e.1⟩

def list {α : Type} (read : Placed → Except SettingsError α) (p : Placed) : Except SettingsError (List α) :=
  match p.setting with
  | .list l _ => (items l p.path).mapM read
  | s => .error (.misplaced s.found "a sequence")

/-! ### Records -/

/-- What is written for each field of a record. -/
def fields (kind : String) (names : List String) (p : Placed) : Except SettingsError (List (Option Placed)) :=
  match p.setting with
  | .table ms _ => .ok (names.map fun n => (Table.find n ms).map (p.child (.name n)))
  | .list l _ => .ok (names.zipIdx.map fun e => (items l p.path)[e.2]?)
  | s => .error (.misplaced s.found s!"struct {kind}")

/-- The error for a record that lacks its `i`-th field. -/
def lacking {α : Type} (kind : String) (names : List String) (i : Nat) (p : Placed) : Except SettingsError α :=
  match p.setting with
  | .list _ _ => .error (.shortList i s!"struct {kind} with {names.length} elements")
  | _ => .error (.missingField (names.getD i ""))

end Placed

/-- A field that may be left out. -/
def Placed.orElse {α : Type} (read : Placed → Except SettingsError α) (default : α) :
    Option Placed → Except SettingsError α
  | none => .ok default
  | some p => read p

open Placed

def DiscoverySettings.ofSetting (p : Placed) : Except SettingsError DiscoverySettings := do
  let d : DiscoverySettings := {}
  match ← fields "DiscoveryConfig" fieldNames p with
  | [node, protocol, stripes, capacity] =>
    return {
      defaultListenerNode := ← orElse text d.defaultListenerNode node
      defaultProtocol := ← orElse text d.defaultProtocol protocol
      lockStripes := ← orElse nat d.lockStripes stripes
      eventCapacity := ← orElse nat d.eventCapacity capacity }
  | _ => return d

def StorageSettings.ofSetting (p : Placed) : Except SettingsError StorageSettings := do
  let d : StorageSettings := {}
  match ← fields "StorageConfig" fieldNames p with
  | [backend, directory] =>
    return {
      backend := ← orElse (variant "StorageBackend" StorageBackend.all StorageBackend.label) d.backend backend
      directory := ← orElse text d.directory directory }
  | _ => return d

def MonitoringSettings.ofSetting (p : Placed) : Except SettingsError MonitoringSettings := do
  let d : MonitoringSettings := {}
  match ← fields "MonitoringConfig" fieldNames p with
  | [enabled, tcpPort] =>
    return {
      enabled := ← orElse bool d.enabled enabled
      tcpPort := ← orElse nat16 d.tcpPort tcpPort }
  | _ => return d

/-- What is there is converted before what is missing is noticed. -/
def Registration.ofSetting (p : Placed) : Except SettingsError Registration := do
  let kind := "DiscoveryRegistration"
  let written ← fields kind fieldNames p
  let texts ← (written.take 4).mapM fun f => f.mapM text
  let servers ← (written.getD 4 none).mapM (list text)
  let namespaceId ← (written.getD 5 none).mapM text
  match texts with
  | [id, name, type, props] =>
    let id ← match id with
      | some id => pure id
      | none => lacking kind fieldNames 0 p
    let type ← match type with
      | some type => pure type
      | none => lacking kind fieldNames 2 p
    return {
      id := id
      name := name.getD ""
      registryType := type
      props := props.getD ""
      servers := servers.getD []
      namespaceId := namespaceId.getD "" }
  | _ => lacking kind fieldNames 0 p

/-- The settings that a table of settings stands for. -/
def Settings.ofSetting (s : Setting) : Except SettingsError Settings := do
  let d : Settings := {}
  match ← fields "DiscoveryNodeConfig" fieldNames ⟨[], s⟩ with
  | [discovery, storage, monitoring, logDirectory, registrations] =>
    return {
      discovery := ← orElse DiscoverySettings.ofSetting d.discovery discovery
      storage := ← orElse StorageSettings.ofSetting d.storage storage
      monitoring := ← orElse MonitoringSettings.ofSetting d.monitoring monitoring
      logDirectory := ← orElse text d.logDirectory logDirectory
      registrations := ← orElse (list Registration.ofSetting) d.registrations registrations }
  | _ => return d

end RouteSync
