import RouteSync.Decimal.Shortest
import RouteSync.Text.Quoted

/-!
# Errors

Errors are grouped by the layer that raises them.  A constructor names a cause; the wording of all of
them is in the `message` functions and nowhere else.
-/

namespace RouteSync

open RouteSync.Text RouteSync.Decimal

/-- Why a file operation fails. -/
inductive FileError
  | notFound
  | notDirectory
  | isDirectory
  | nameTooLong
  | nulByte
  /-- A failure reported by someone else, in their words. -/
  | reported (text : String)
  deriving DecidableEq, Repr

def FileError.message : FileError → String
  | .notFound => "No such file or directory (os error 2)"
  | .notDirectory => "Not a directory (os error 20)"
  | .isDirectory => "Is a directory (os error 21)"
  | .nameTooLong => "File name too long (os error 36)"
  | .nulByte => "file name contained an unexpected NUL byte"
  | .reported text => text

/-- Malformed properties, mappings, payloads or settings. -/
inductive InvalidConfig
  /-- The text of `what` is not the document it has to be; no detail is given. -/
  | malformed (what : String)
  | entryNotScalar (what key : String)
  | unknownField (field : String)
  | payloadNotContainer (found : String)
  | entryNotObject (found : String)
  | notInteger (field found : String)
  | noUrl (found : String)
  | blankRegistryType
  | blankListenerNode
  | noLockStripes
  | noEventCapacity
  | zeroMetricsPort
  | privilegedMetricsPort (number : Nat)
  | blankRegistrationId
  | duplicateRegistration (id : String)
  | reported (text : String)
  deriving DecidableEq, Repr

def InvalidConfig.message : InvalidConfig → String
  | .malformed what => s!"malformed {what}: *"
  | .entryNotScalar what key => s!"{what} entry {key} must be a scalar value"
  | .unknownField field => s!"discovery handler maps unknown upstream field {field}"
  | .payloadNotContainer found => s!"upstream payload must be an object or array, got {found}"
  | .entryNotObject found => s!"upstream payload entry must be an object, got {found}"
  | .notInteger field found => s!"upstream {field} must be an integer, got {found}"
  | .noUrl found => s!"upstream payload {found} has no url"
  | .blankRegistryType => "registry type cannot be empty"
  | .blankListenerNode => "default_listener_node cannot be empty"
  | .noLockStripes => "lock_stripes must be > 0"
  | .noEventCapacity => "event_channel_capacity must be > 0"
  | .zeroMetricsPort => "prometheus_port cannot be 0 when enabled"
  | .privilegedMetricsPort number => s!"prometheus_port {number} is a privileged port (requires root)"
  | .blankRegistrationId => "registration id cannot be empty"
  | .duplicateRegistration id => s!"Duplicate registration id {id}"
  | .reported text => text

inductive RegistryError
  | unknownType (tag : String)
  | notInitialized (name : String)
  | unreachable (address reason : String)
  | operationFailed (operation reason : String)
  deriving DecidableEq, Repr

def RegistryError.message : RegistryError → String
  | .unknownType tag => s!"Unknown registry type: {tag}"
  | .notInitialized name => s!"Registry connector {name} is not initialized"
  | .unreachable address reason => s!"Registry unreachable at {address}: {reason}"
  | .operationFailed operation reason => s!"Registry operation {operation} failed: {reason}"

inductive StorageError
  | duplicate (owner url : String)
  /-- The index and the records disagree. -/
  | corrupt (location : String)
  /-- The bytes of a record do not decode. -/
  | undecodable
  /-- The database cannot be opened. -/
  | database
  | file (e : FileError)
  deriving DecidableEq, Repr

def StorageError.message : StorageError → String
  | .duplicate owner url => s!"Upstream {url} already exists for handler {owner}"
  | .corrupt location => s!"Data corruption detected at {location}"
  | .undecodable => "record cannot be decoded"
  | .database => "database cannot be opened"
  | .file e => e.message

/-- What stood where a setting of another type was expected. -/
inductive Found
  | text (s : String)
  | signed (n : Int)
  | unsigned (n : Nat)
  | real (d : Double)
  | bool (b : Bool)
  | nothing
  | list
  | table
  deriving DecidableEq, Repr

/-- The wording for the field of a record. -/
def Found.inField : Found → String
  | .text s => s!"string {quoted s}"
  | .signed n => s!"64-bit integer `{n}`"
  | .unsigned n => s!"64-bit unsigned integer `{n}`"
  | .real d => s!"floating point `{String.ofList d.plain}`"
  | .bool b => s!"boolean `{b}`"
  | .nothing => "unit value"
  | .list => "sequence"
  | .table => "map"

/-- The wording where a record or a list is expected. -/
def Found.inPlace : Found → String
  | .text s => s!"string {quoted s}"
  | .signed n => s!"integer `{n}`"
  | .unsigned n => s!"integer `{n}`"
  | .real d => s!"floating point `{String.ofList d.withFraction}`"
  | .bool b => s!"boolean `{b}`"
  | .nothing => "unit value"
  | .list => "sequence"
  | .table => "map"

/-- Failures of loading settings. -/
inductive SettingsError
  /-- A field holds a value that does not convert; `key` is its path and `origin` the file or the
  environment, if the value came from one. -/
  | conversion (found : Found) (expected : String) (key : String) (origin : Option String)
  | misplaced (found : Found) (expected : String)
  | missingField (name : String)
  | shortList (length : Nat) (expected : String)
  | unknownVariant (kind name : String)
  | notVariant (kind : String)
  | tooLarge (n : Nat)
  | emptyPath (name : String)
  | directory (name path : String) (e : FileError)
  | fileNotFound (name : String)
  | unknownFormat (path : String)
  /-- The file is not written in the format of its name. -/
  | malformedFile
  | reported (text : String)
  deriving DecidableEq, Repr

def SettingsError.message : SettingsError → String
  | .conversion found expected key origin =>
    let place := match origin with
      | some o => s!" in {o}"
      | none => ""
    s!"invalid type: {found.inField}, expected {expected} for key `{key}`{place}"
  | .misplaced found expected => s!"invalid type: {found.inPlace}, expected {expected}"
  | .missingField name => s!"missing field `{name}`"
  | .shortList length expected => s!"invalid length {length}, expected {expected}"
  | .unknownVariant kind name => s!"enum {kind} does not have variant constructor {name}"
  | .notVariant kind =>
    s!"value of enum {kind} should be represented by either string or table with exactly one key"
  | .tooLarge n => s!"value {n} is greater than the max 9223372036854775807"
  | .emptyPath name => s!"{name} path cannot be empty"
  | .directory name path e => s!"Failed to create {name} directory at {path}: {e.message}"
  | .fileNotFound name => s!"configuration file \"{name}\" not found"
  | .unknownFormat path => s!"configuration file \"{path}\" is not of a registered file format"
  | .malformedFile => "configuration file cannot be read"
  | .reported text => text

inductive Error
  | settings (e : SettingsError)
  | invalid (e : InvalidConfig)
  | registry (e : RegistryError)
  | storage (e : StorageError)
  | fatal (text : String)
  deriving DecidableEq, Repr

def Error.message : Error → String
  | .settings e => e.message
  | .invalid e => s!"Invalid config: {e.message}"
  | .registry e => e.message
  | .storage e => e.message
  | .fatal text => s!"Fatal error: {text}"

/-! ### Diagnostics -/

def RegistryError.shown : RegistryError → String
  | .unknownType tag => s!"UnknownType({quoted tag})"
  | .notInitialized name => s!"NotInitialized({quoted name})"
  | .unreachable address reason =>
    shownRecord "Unreachable" [("address", quoted address), ("reason", quoted reason)]
  | .operationFailed operation reason =>
    shownRecord "OperationFailed" [("operation", quoted operation), ("reason", quoted reason)]

/-- What the database, the record format and the file system have to say is cut off. -/
def StorageError.shown : StorageError → String
  | .duplicate owner url =>
    let text := shownRecord "DuplicateUpstream" [("handler_id", quoted owner), ("url", quoted url)]
    s!"Storage({text})"
  | .corrupt location =>
    let text := shownRecord "DataCorruption" [("location", quoted location)]
    s!"Storage({text})"
  | .undecodable => "Storage(BincodeError"
  | .database => "Storage(SledError"
  | .file _ => "Storage(IoError"

/-- An error about settings stands in parentheses as it is.  What the reader of a settings file has to
say takes several lines; it is cut off, and so is any other message of several lines. -/
def SettingsError.shown : SettingsError → String
  | .malformedFile => "Config"
  | e => if e.message.toList.contains '\n' then "Config" else s!"Config({e.message})"

/-- An error as it is shown to whoever started the program. -/
def Error.shown : Error → String
  | .settings e => e.shown
  | .invalid e => s!"InvalidConfig({quoted e.message})"
  | .registry e => s!"Connector({e.shown})"
  | .storage e => e.shown
  | .fatal text => s!"Fatal({quoted text})"

end RouteSync
