import RouteSync.Error
import RouteSync.Store.Order
import RouteSync.Store.RecordCodec

/-!
# The store in an embedded database

Two byte trees: one maps the id of a record to its bytes, the other maps owner, a zero byte and address
to the id.  What touches both trees happens at once or not at all.  The trees outlive the program and
may hold anything, so a selection can find an index entry without a record, or bytes that do not decode.
In the settings this store is the backend `sled`.
-/

namespace RouteSync

open RouteSync.RecordCodec

structure EmbeddedStore where
  records : ByteTree
  index : ByteTree

namespace EmbeddedStore

def empty : EmbeddedStore := ⟨.empty, .empty⟩

def size (s : EmbeddedStore) : Nat := s.records.size

/-- The bytes that all index keys of an owner begin with. -/
def ownerKey (owner : String) : Bytes := textBytes owner ++ [0]

def indexKey (owner url : String) : Bytes := ownerKey owner ++ textBytes url

/-- The record kept under an id, if there is one. -/
def load (s : EmbeddedStore) (id : Bytes) : Except StorageError (Option StoredEndpoint) :=
  match s.records.get? id with
  | none => .ok none
  | some b =>
    match decode? b with
    | some r => .ok (some r)
    | none => .error .undecodable

/-- The record that an index entry of `owner` points at. -/
def loadIndexed (s : EmbeddedStore) (owner : String) (id : Bytes) : Except StorageError StoredEndpoint := do
  match ← s.load id with
  | some r => return r
  | none => throw (.corrupt s!"_discovery_upstream_url_index:{owner}")

/-- The records of an owner, oldest first. -/
def select (s : EmbeddedStore) (owner : String) : Except StorageError (List StoredEndpoint) := do
  let found ← (s.index.scan (ownerKey owner)).mapM fun e => s.loadIndexed owner e.2
  return StoredEndpoint.sort found

def insert (s : EmbeddedStore) (r : StoredEndpoint) : Except StorageError EmbeddedStore :=
  let key := indexKey r.owner r.url
  let id := textBytes r.id
  if s.index.contains key then .error (.duplicate r.owner r.url)
  else .ok ⟨s.records.insert id (encode r), s.index.insert key id⟩

/-- Removes one record; its index entry goes with it only if it still points at this record. -/
def deleteId (s : EmbeddedStore) (id : String) : Except StorageError (EmbeddedStore × Nat) := do
  let key := textBytes id
  match ← s.load key with
  | none => return (s, 0)
  | some r =>
    let entry := indexKey r.owner r.url
    let index := if s.index.get? entry = some key then s.index.erase entry else s.index
    return (⟨s.records.erase key, index⟩, 1)

/-- Removes the records with these ids and counts them. -/
def deleteByIds (s : EmbeddedStore) : List String → Except StorageError (EmbeddedStore × Nat)
  | [] => .ok (s, 0)
  | id :: ids => do
    let (s, n) ← s.deleteId id
    let (s, k) ← s.deleteByIds ids
    return (s, n + k)

/-- Overwrites the columns of the record of an address; false if there is none. -/
def update (s : EmbeddedStore) (owner url : String) (c : Columns) (now : UInt64) :
    Except StorageError (EmbeddedStore × Bool) := do
  match s.index.get? (indexKey owner url) with
  | none => return (s, false)
  | some id =>
    match ← s.load id with
    | none => return (s, false)
    | some r =>
      let r := r.merge c now
      return (⟨s.records.insert (textBytes r.id) (encode r), s.index⟩, true)

def deleteByUrl (s : EmbeddedStore) (owner url : String) : EmbeddedStore × Nat :=
  let key := indexKey owner url
  match s.index.get? key with
  | none => (s, 0)
  | some id =>
    let n := if s.records.contains id then 1 else 0
    (⟨s.records.erase id, s.index.erase key⟩, n)

end EmbeddedStore

end RouteSync
