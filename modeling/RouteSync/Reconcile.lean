import RouteSync.Endpoint

/-!
# Planning a reconciliation

The pure step of a pass: the live instances become candidates, one per address, and the candidates are
compared by address with what is stored.  What stands on both sides is left alone, whatever its weight
and status.
-/

namespace RouteSync

/-- Adds a candidate unless its address has been seen. -/
def addCandidate (seen : List Endpoint) (e : Endpoint) : List Endpoint :=
  if seen.any fun c => c.url == e.url then seen else seen ++ [e]

/-- The candidates of a selector: the first instance of every address, in order. -/
def candidates (instances : List Instance) (s : Selector) (protocol : String) : List Endpoint :=
  (instances.map fun i => Endpoint.ofInstance i s protocol).foldl addCandidate []

/-- What a pass has to change in the store. -/
structure Plan where
  /-- Stored endpoints that are no longer live. -/
  stale : List String
  /-- Candidates that are not stored yet, in order. -/
  inserts : List Endpoint
  deriving DecidableEq, Repr

namespace Plan

def isEmpty (p : Plan) : Bool := p.stale.isEmpty && p.inserts.isEmpty

def of (stored : List StoredEndpoint) (live : List Endpoint) : Plan where
  stale := (stored.filter fun r => !live.any fun c => c.url == r.url).map StoredEndpoint.id
  inserts := live.filter fun c => !stored.any fun r => r.url == c.url

end Plan

end RouteSync
