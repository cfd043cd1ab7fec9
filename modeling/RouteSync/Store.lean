import RouteSync.Store.Embedded
import RouteSync.Store.Memory

/-!
# The endpoint store

Stored endpoints are kept in memory or in an embedded database; both answer the same five operations.
An operation that fails leaves the store as it was.  In the interface of a store `select_by_handler_id` is
`select`, `update_by_handler_and_url` is `update`, `delete_by_ids` is `deleteByIds` and `delete_by_url` is
`deleteByUrl`.
-/

namespace RouteSync

inductive Store
  | memory (s : MemoryStore)
  | embedded (s : EmbeddedStore)

namespace Store

def size : Store → Nat
  | .memory s => s.size
  | .embedded s => s.size

def select : Store → String → Except StorageError (List StoredEndpoint)
  | .memory s, owner => .ok (s.select owner)
  | .embedded s, owner => s.select owner

def insert : Store → StoredEndpoint → Except StorageError Store
  | .memory s, r => (s.insert r).map .memory
  | .embedded s, r => (s.insert r).map .embedded

def deleteByIds : Store → List String → Except StorageError (Store × Nat)
  | .memory s, ids => let (s, n) := s.deleteByIds ids; .ok (.memory s, n)
  | .embedded s, ids => (s.deleteByIds ids).map fun (s, n) => (.embedded s, n)

def update : Store → String → String → Columns → UInt64 → Except StorageError (Store × Bool)
  | .memory s, owner, url, c, now => let (s, b) := s.update owner url c now; .ok (.memory s, b)
  | .embedded s, owner, url, c, now => (s.update owner url c now).map fun (s, b) => (.embedded s, b)

def deleteByUrl : Store → String → String → Except StorageError (Store × Nat)
  | .memory s, owner, url => let (s, n) := s.deleteByUrl owner url; .ok (.memory s, n)
  | .embedded s, owner, url => let (s, n) := s.deleteByUrl owner url; .ok (.embedded s, n)

/-- The store as it is after the program has ended and begun again: memory forgets. -/
def reopened : Store → Store
  | .memory _ => .memory .empty
  | .embedded s => .embedded s

/-- The embedded store as diagnostics show it. -/
def shown? : Store → Option String
  | .memory _ => none
  | .embedded s =>
    some (Text.shownRecord "SledUpstreamStore" [("records_len", toString s.size)])

end Store

end RouteSync
