import RouteSync.Hub.State

/-!
# Calls to the store

The operations of the store as actions of a hub: each is entered in the journal, may be failed by the
fault plan, and then reaches the store.  A new record gets a drawn id and the time of the clock.
-/

namespace RouteSync.Act

/-- Applies a store operation that changes the store. -/
def onStore {α : Type} (f : Store → Except StorageError (Store × α)) : Act α := do
  let (s, a) ← ofExcept .storage (f (← get).store)
  modify fun h => { h with store := s }
  return a

def select (owner : String) : Act (List StoredEndpoint) := do
  call (.store (.select owner))
  ofExcept .storage ((← get).store.select owner)

/-- Draws the id of a new record. -/
def drawId : Act String := step fun h => ({ h with drawn := h.drawn + 1 }, s!"gen-{h.drawn + 1}")

/-- Stores `e` for `owner`. -/
def insert (owner : String) (e : Endpoint) : Act Unit := do
  call (.store (.insert owner e.url))
  let id ← drawId
  let r := e.stored id owner (← get).clock
  onStore fun s => (s.insert r).map fun s => (s, ())

/-- Overwrites what is stored for the owner and address of `e`; false if nothing is. -/
def update (owner : String) (e : Endpoint) : Act Bool := do
  call (.store (.update owner e.url))
  let now := (← get).clock
  onStore fun s => s.update owner e.url e.columns now

def deleteByIds (ids : List String) : Act Nat := do
  call (.store (.deleteByIds ids))
  onStore fun s => s.deleteByIds ids

def deleteByUrl (owner url : String) : Act Nat := do
  call (.store (.deleteByUrl owner url))
  onStore fun s => s.deleteByUrl owner url

end RouteSync.Act
