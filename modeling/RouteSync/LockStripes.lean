import RouteSync.Text.Quoted

/-!
# Lock stripes

Work on one discovery id is serialised by the stripe that the id falls on.  There is always at least one
stripe, every id falls on one of them, and the same id always on the same.

Which stripe that is depends on the hash function of the platform, and nothing else here does.  The hash below
stands for any: of `stripeOf` only its range (`stripeOf_lt`) and that it is a function of the id are meant.
-/

namespace RouteSync

structure LockStripes where
  count : Nat
  count_pos : 0 < count

namespace LockStripes

def create (n : Nat) : LockStripes := ⟨max n 1, by omega⟩

/-- The stripe of an id, by a hash that stands for any other. -/
def stripeOf (l : LockStripes) (id : String) : Nat := (hash id).toNat % l.count

theorem stripeOf_lt (l : LockStripes) (id : String) : l.stripeOf id < l.count :=
  Nat.mod_lt _ l.count_pos

def shown (l : LockStripes) : String := Text.shownRecord "IdLocks" [("stripes", toString l.count)]

end LockStripes

end RouteSync
