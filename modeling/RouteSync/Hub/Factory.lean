import RouteSync.Hub.Connecting
import RouteSync.Text.LowerCase

/-!
# Kinds of registries

Registries are picked by a type tag.  Tags are compared without regard to surrounding space and to the
case of ASCII letters.  In the interface of the factory `register_shared` is `Hub.register` with a shared
provider, `with_builtin` is `withLocalRegistry`, and `create` is `createConnector`.
-/

namespace RouteSync

/-- The form in which type tags are compared. -/
def normalizedType (tag : String) : String := Text.lowerAscii (Text.trim tag)

namespace Hub

/-- Registers a provider; a later one for the same tag replaces an earlier one. -/
def register (h : Hub) (tag : String) (p : Provider) : Hub :=
  { h with providers := h.providers.insert (normalizedType tag) p }

def knowsType (h : Hub) (tag : String) : Bool := h.providers.contains (normalizedType tag)

/-- A hub with the registry inside the process, shared by all who ask for it.  Whoever makes the registry and
registers it as a shared one gets the same hub, and can register instances. -/
def withLocalRegistry (h : Hub) : Hub :=
  let (h, c) := h.addConnector {}
  h.register LocalRegistry.kindName (.shared c)

/-- Registers an instrumented type: one connector that is made now and shared, or a new one every
time. -/
def registerProbed (h : Hub) (tag : String) (isShared : Bool) (onWatch : Option (String × ChangeKind)) :
    Hub :=
  if isShared then
    let (h, c) := h.addProbe onWatch
    h.register tag (.shared c)
  else h.register tag (.fresh onWatch)

/-- The known tags in order. -/
def types (h : Hub) : List String := (h.providers.keys.foldl KeySet.insert .empty).members

def factoryShown (h : Hub) : String :=
  Text.shownRecord "ConnectorFactory" [("types", Text.quotedList h.types)]

end Hub

/-- The connector for a type. -/
def Act.createConnector (tag : String) : Act ConnectorId := do
  let t := normalizedType tag
  if t = "" then
    throw (.invalid .blankRegistryType)
  match (← get).providers.get? t with
  | none => throw (.registry (.unknownType t))
  | some (.shared c) => return c
  | some (.fresh onWatch) => step fun h => h.addProbe onWatch

end RouteSync
