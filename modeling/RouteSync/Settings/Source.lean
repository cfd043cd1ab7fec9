import RouteSync.Decimal.Reading
import RouteSync.FileTree
import RouteSync.Settings.Basic
import RouteSync.Settings.Layer
import RouteSync.Toml.Document

/-!
# Sources of settings

Settings come from the settings of the moment, from a TOML file and from the environment.  Each source
becomes a layer.  What comes from a file or from the environment is marked with its origin.
-/

namespace RouteSync

open RouteSync.Text RouteSync.Decimal

/-! ### The settings of the moment -/

namespace Setting

def ofText (s : String) : Setting := .scalar (.text s) none

def ofBool (b : Bool) : Setting := .scalar (.bool b) none

/-- A number, which has to fit into 64 bits with a sign. -/
def ofNat (n : Nat) : Except SettingsError Setting :=
  if (n : Int) ≤ maxInt64 then .ok (.scalar (.integer n) none) else .error (.tooLarge n)

/-- A member for a list; an empty list is left out. -/
def listMember (name : String) : List Setting → Layer
  | [] => []
  | l => [(name, .list l none)]

end Setting

open Setting

def DiscoverySettings.toSetting (s : DiscoverySettings) : Except SettingsError Setting := do
  let stripes ← ofNat s.lockStripes
  let capacity ← ofNat s.eventCapacity
  return .table
    [("default_listener_node", ofText s.defaultListenerNode),
     ("default_protocol", ofText s.defaultProtocol),
     ("lock_stripes", stripes),
     ("event_channel_capacity", capacity)] none

def StorageSettings.toSetting (s : StorageSettings) : Setting :=
  .table [("backend", ofText s.backend.label), ("db_root_dir", ofText s.directory)] none

def MonitoringSettings.toSetting (s : MonitoringSettings) : Except SettingsError Setting := do
  let tcpPort ← ofNat s.tcpPort
  return .table [("prometheus_enabled", ofBool s.enabled), ("prometheus_port", tcpPort)] none

def Registration.toSetting (r : Registration) : Setting :=
  .table
    ([("id", ofText r.id), ("name", ofText r.name), ("type", ofText r.registryType),
      ("props", ofText r.props)] ++
     listMember "server_list" (r.servers.map ofText) ++
     [("namespace_id", ofText r.namespaceId)]) none

/-- The layer that says what the settings are. -/
def Settings.toLayer (s : Settings) : Except SettingsError Layer := do
  let discovery ← s.discovery.toSetting
  let monitoring ← s.monitoring.toSetting
  return [("discovery", discovery), ("storage", s.storage.toSetting), ("monitoring", monitoring),
    ("log_dir", ofText s.logDirectory)] ++
    listMember "registrations" (s.registrations.map Registration.toSetting)

/-! ### Files -/

namespace Setting

mutual

def ofToml (origin : String) : Toml → Setting
  | .text s => .scalar (.text s) origin
  | .integer n => .scalar (.integer n) origin
  | .real d => .scalar (.real d) origin
  | .bool b => .scalar (.bool b) origin
  | .array l => .list (ofItems origin l) origin
  | .table ms => .table (ofMembers origin ms) origin

def ofItems (origin : String) : List Toml → List Setting
  | [] => []
  | v :: vs => ofToml origin v :: ofItems origin vs

def ofMembers (origin : String) : List (String × Toml) → List (String × Setting)
  | [] => []
  | (k, v) :: vs => (k, ofToml origin v) :: ofMembers origin vs

end

end Setting

/-- The part of a name after its last point; none if nothing stands before that point. -/
def extension? (name : String) : Option String :=
  match name.toList.reverse.span fun c => c != '.' with
  | (ext, '.' :: _ :: _) => some (String.ofList ext.reverse)
  | _ => none

/-- The extension of settings files. -/
def tomlExtension : String := "toml"

namespace FileTree

/-- The way from one location to another, both given from the root. -/
def wayFrom : List String → List String → List String
  | a :: base, b :: target =>
    if a = b then wayFrom base target else ((a :: base).map fun _ => "..") ++ b :: target
  | base, target => (base.map fun _ => "..") ++ target

/-- The names of a path from the root, without dots. -/
def fullNames (t : FileTree) (p : FilePath) : List String :=
  (p.within t.working).parts.filter fun s => s != "."

/-- Where the settings file of a name is: at the name itself, which then has to end in the extension of
such files, or at the name with that extension added. -/
def settingsFile (t : FileTree) (name : String) : Except SettingsError (FilePath × String) :=
  let p := (FilePath.read name).within t.working
  match t.content? p with
  | some content =>
    if ((t.fullNames p).getLast?.bind extension?) = some tomlExtension then .ok (p, content)
    else .error (.unknownFormat p.text)
  | none =>
    match p.addExtension? tomlExtension with
    | none => .error (.fileNotFound name)
    | some q =>
      match t.content? q with
      | some content => .ok (q, content)
      | none => .error (.fileNotFound name)

/-- The layer of a settings file. -/
def fileLayer (t : FileTree) (name : String) : Except SettingsError Layer := do
  let (p, content) ← t.settingsFile name
  let origin := "/".intercalate (wayFrom t.working (t.fullNames p))
  match Toml.read? content with
  | some ms => return ofMembers origin ms
  | none => throw .malformedFile

end FileTree

/-! ### The environment -/

/-- The variables of a process. -/
abbrev Environment := Table String String

namespace Environment

/-- What the names of variables that hold settings begin with, in lower case. -/
def settingMark : List Char := "discovery__".toList

/-- Two underscores separate the names of a path. -/
def dotted : List Char → List Char
  | '_' :: '_' :: r => '.' :: dotted r
  | c :: r => c :: dotted r
  | [] => []

/-- The path of the setting in a variable. -/
def pathOf? (name : String) : Option String :=
  if settingMark.isPrefixOf (lower name).toList then
    some (lower (String.ofList (dotted (name.toList.drop settingMark.length))))
  else none

/-- A value as it is meant: a truth value, an integer, a double, or else a text. -/
def scalarOf (s : String) : Scalar :=
  if lower s = "true" then .bool true
  else if lower s = "false" then .bool false
  else
    match readInt64? s with
    | some n => .integer n
    | none =>
      match readDouble? s with
      | some d => .real d
      | none => .text s

/-- The layer of the environment; empty variables say nothing. -/
def layer (env : Environment) : Layer :=
  env.entries.filterMap fun e =>
    if e.2 = "" then none
    else (pathOf? e.1).map fun path => (path, .scalar (scalarOf e.2) (some "the environment"))

/-- The settings file that the environment names. -/
def settingsFile? (env : Environment) : Option String := env.get? "CONFIG_PATH"

end Environment

end RouteSync
