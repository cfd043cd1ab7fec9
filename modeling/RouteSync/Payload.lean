import RouteSync.Endpoint
import RouteSync.FlatObject

/-!
# Payloads

A registry describes changed endpoints by the text of a JSON object, or of an array of objects.  Six
fields have a meaning.  A `Mapping` says under which keys a particular registry writes them; fields that
it does not mention are read under their own names, and other keys are skipped.  In the interface of the
parser `from_handler` is `Mapping.read` and `parse_value` is `Payload.read`.
-/

namespace RouteSync

open RouteSync.Json

/-- The fields of a payload. -/
inductive PayloadField
  | url
  | protocol
  | weight
  | status
  | props
  | namespaceId
  deriving DecidableEq, Repr

namespace PayloadField

def all : List PayloadField := [.url, .protocol, .weight, .status, .props, .namespaceId]

def name : PayloadField → String
  | .url => "url"
  | .protocol => "protocol"
  | .weight => "weight"
  | .status => "status"
  | .props => "props"
  | .namespaceId => "namespaceId"

def ofName? (s : String) : Option PayloadField := all.find? fun f => f.name == s

end PayloadField

/-- For each payload key that is given a meaning, the name of the field it holds. -/
structure Mapping where
  conversion : Table String String

namespace Mapping

/-- The mapping that gives no key a new meaning. -/
def plain : Mapping := ⟨.empty⟩

/-- Inverts entries from fields to keys; if several fields name one key, the last of them has it. -/
def ofEntries (entries : List (String × String)) : Mapping :=
  ⟨Table.ofList (entries.map fun e => (e.2, e.1))⟩

/-- The mapping of a handler, written as a flat object from fields to keys. -/
def read (raw : String) : Except InvalidConfig Mapping := do
  let t ← FlatObject.read "discovery handler" raw
  match t.keys.find? fun f => (PayloadField.ofName? f).isNone with
  | some f => .error (.unknownField f)
  | none => .ok (ofEntries t.entries)

/-- The field that a key holds, if it holds one. -/
def field? (m : Mapping) (key : String) : Option PayloadField :=
  PayloadField.ofName? ((m.conversion.get? key).getD key)

end Mapping

namespace Payload

/-- The weight of an endpoint whose payload gives none. -/
def defaultWeight : Int32 := 50

/-- A text as it is, a null as the empty text, and anything else as it is printed. -/
def text : Value → String
  | .str s => s
  | .null => ""
  | v => v.print

/-- A whole number, or a text that trims to one, of 32 bits. -/
def int32? (v : Value) : Option Int32 :=
  let n := match v with
    | .num n => n.int64?
    | .str s => Text.readInt64? (Text.trim s)
    | _ => none
  n.bind fun i => if -2147483648 ≤ i ∧ i ≤ 2147483647 then some (Int32.ofInt i) else none

def int32 (field : PayloadField) (v : Value) : Except InvalidConfig Int32 :=
  match int32? v with
  | some i => .ok i
  | none => .error (.notInteger field.name v.print)

/-- Sets one field of an endpoint. -/
def setField (e : Endpoint) (v : Value) : PayloadField → Except InvalidConfig Endpoint
  | .url => .ok { e with url := text v }
  | .protocol => .ok { e with protocol := text v }
  | .weight => (int32 .weight v).map fun w => { e with weight := w }
  | .status => (int32 .status v).map fun s => { e with status := s }
  | .props => .ok { e with props := some (text v) }
  | .namespaceId => .ok { e with namespaceId := some (text v) }

/-- Sets the field that a member holds, if it holds one. -/
def addMember (m : Mapping) (e : Endpoint) (member : String × Value) : Except InvalidConfig Endpoint :=
  match m.field? member.1 with
  | some f => setField e member.2 f
  | none => .ok e

/-- The endpoint before any field is set. -/
def start : Endpoint where
  url := ""
  weight := defaultWeight
  status := 0
  protocol := ""

/-- The endpoint of one object: its members are taken in order, and there has to be an address. -/
def ofObject (m : Mapping) (members : List (String × Value)) : Except InvalidConfig Endpoint := do
  let e ← members.foldlM (addMember m) start
  if Text.isBlank e.url then .error (.noUrl (Value.obj members).print) else .ok e

def ofItem (m : Mapping) : Value → Except InvalidConfig Endpoint
  | .obj l => ofObject m l
  | v => .error (.entryNotObject v.print)

def ofValue (m : Mapping) : Value → Except InvalidConfig (List Endpoint)
  | .arr items => items.mapM (ofItem m)
  | .obj l => (ofObject m l).map ([·])
  | v => .error (.payloadNotContainer v.print)

/-- The endpoints of a payload; a blank one has none, and one bad entry rejects them all. -/
def read (m : Mapping) (raw : String) : Except InvalidConfig (List Endpoint) :=
  if Text.isBlank raw then .ok []
  else
    match Value.read? raw with
    | some v => ofValue m v
    | none => .error (.malformed "upstream payload")

end Payload

end RouteSync
