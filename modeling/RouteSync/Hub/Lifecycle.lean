import RouteSync.Hub.Discovery

/-!
# The beginning and the end of a hub

A hub begins with a list of registrations: they are created in order up to the first one that fails.
At the end all of them are removed, whether or not one of them fails to let go.
-/

namespace RouteSync

/-- A hub that knows the registry inside the process and queues its events. -/
def Hub.create (settings : DiscoverySettings) (store : Store) : Hub :=
  let h : Hub := {
    settings := settings
    store := store
    publisher := .queued (.create settings.eventCapacity) }
  h.withLocalRegistry

namespace Act

/-- Creates registrations in order; the first failure ends it. -/
def createAll (l : List Registration) : Act Unit := l.forM createDiscovery

/-- Removes registrations in order, going on after a failure. -/
def removeAll (l : List Registration) : Act Unit :=
  l.forM fun r => do discard (attempt (removeDiscovery r))

end Act

end RouteSync
