import RouteSync.Error
import RouteSync.Store.Order
import RouteSync.Table

/-!
# The store in memory

Records by id, and an index from owner and address to the id.  The index decides whether an address is
taken; an update or a deletion by address goes through it.
-/

namespace RouteSync

structure MemoryStore where
  records : Table String StoredEndpoint
  index : Table (String × String) String

namespace MemoryStore

def empty : MemoryStore := ⟨.empty, .empty⟩

def size (s : MemoryStore) : Nat := s.records.size

/-- The records of an owner, oldest first. -/
def select (s : MemoryStore) (owner : String) : List StoredEndpoint :=
  StoredEndpoint.sort (s.records.values.filter fun r => r.owner == owner)

def insert (s : MemoryStore) (r : StoredEndpoint) : Except StorageError MemoryStore :=
  if s.index.contains (r.owner, r.url) then .error (.duplicate r.owner r.url)
  else .ok ⟨s.records.insert r.id r, s.index.insert (r.owner, r.url) r.id⟩

/-- Removes one record with the index entry of its address. -/
def deleteId (s : MemoryStore) (id : String) : MemoryStore × Nat :=
  match s.records.get? id with
  | none => (s, 0)
  | some r => (⟨s.records.erase id, s.index.erase (r.owner, r.url)⟩, 1)

/-- Removes the records with these ids and counts them. -/
def deleteByIds (s : MemoryStore) : List String → MemoryStore × Nat
  | [] => (s, 0)
  | id :: ids =>
    let (s, n) := s.deleteId id
    let (s, k) := s.deleteByIds ids
    (s, n + k)

/-- Overwrites the columns of the record of an address; false if there is none. -/
def update (s : MemoryStore) (owner url : String) (c : Columns) (now : UInt64) : MemoryStore × Bool :=
  match s.index.get? (owner, url) with
  | none => (s, false)
  | some id =>
    match s.records.get? id with
    | none => (s, false)
    | some r => (⟨s.records.insert id (r.merge c now), s.index⟩, true)

def deleteByUrl (s : MemoryStore) (owner url : String) : MemoryStore × Nat :=
  match s.index.get? (owner, url) with
  | none => (s, 0)
  | some id =>
    let n := if s.records.contains id then 1 else 0
    (⟨s.records.erase id, s.index.erase (owner, url)⟩, n)

end MemoryStore

end RouteSync
