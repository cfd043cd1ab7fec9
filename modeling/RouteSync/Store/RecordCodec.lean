import RouteSync.Endpoint
import RouteSync.Store.ByteTree

/-!
# Records as bytes

A stored endpoint is kept as its fields one after another: a text as its length in eight bytes and its
UTF-8 bytes, a number in four or eight bytes, the least significant byte first.  Reading takes the
fields in the same order and does not look at what follows the last one.
-/

namespace RouteSync.RecordCodec

/-- The `width` low bytes of `n`, the least significant first. -/
def littleEndian : Nat → Nat → Bytes
  | 0, _ => []
  | width + 1, n => UInt8.ofNat (n % 256) :: littleEndian width (n / 256)

def ofLittleEndian : Bytes → Nat
  | [] => 0
  | b :: rest => b.toNat + 256 * ofLittleEndian rest

def textBytes (s : String) : Bytes := s.toByteArray.data.toList

def text? (b : Bytes) : Option String := String.fromUTF8? ⟨b.toArray⟩

def writeText (s : String) : Bytes :=
  let b := textBytes s
  littleEndian 8 b.length ++ b

def writeInt32 (n : Int32) : Bytes := littleEndian 4 n.toUInt32.toNat

def writeUInt64 (n : UInt64) : Bytes := littleEndian 8 n.toNat

/-- The first `n` bytes and the rest. -/
def take? (n : Nat) (b : Bytes) : Option (Bytes × Bytes) :=
  if n ≤ b.length then some (b.take n, b.drop n) else none

def readNat (width : Nat) (b : Bytes) : Option (Nat × Bytes) :=
  (take? width b).map fun (w, r) => (ofLittleEndian w, r)

def readText (b : Bytes) : Option (String × Bytes) := do
  let (n, r) ← readNat 8 b
  let (w, r) ← take? n r
  let s ← text? w
  return (s, r)

def readInt32 (b : Bytes) : Option (Int32 × Bytes) :=
  (readNat 4 b).map fun (n, r) => ((UInt32.ofNat n).toInt32, r)

def readUInt64 (b : Bytes) : Option (UInt64 × Bytes) :=
  (readNat 8 b).map fun (n, r) => (UInt64.ofNat n, r)

def encode (r : StoredEndpoint) : Bytes :=
  writeText r.id ++ writeText r.owner ++ writeText r.columns.namespaceId ++
    writeText r.columns.protocol ++ writeText r.url ++ writeInt32 r.columns.status ++
    writeInt32 r.columns.weight ++ writeText r.columns.props ++ writeUInt64 r.created ++
    writeUInt64 r.updated

def decode? (b : Bytes) : Option StoredEndpoint := do
  let (id, b) ← readText b
  let (owner, b) ← readText b
  let (namespaceId, b) ← readText b
  let (protocol, b) ← readText b
  let (url, b) ← readText b
  let (status, b) ← readInt32 b
  let (weight, b) ← readInt32 b
  let (props, b) ← readText b
  let (created, b) ← readUInt64 b
  let (updated, _) ← readUInt64 b
  return {
    id := id
    owner := owner
    url := url
    columns := ⟨namespaceId, protocol, status, weight, props⟩
    created := created
    updated := updated }

end RouteSync.RecordCodec
