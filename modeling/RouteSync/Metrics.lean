import RouteSync.Event
import RouteSync.Table

/-!
# Metrics

Counters that only grow, each with its labels, and one gauge.  A counter that has been touched is there
even if it is zero.
-/

namespace RouteSync

/-- The counters, with their labels. -/
inductive Counter
  | reconcilePasses (discoveryId : String)
  | reconcileFailures (discoveryId : String)
  | inserted (discoveryId : String)
  | deleted (discoveryId : String)
  | published (group : EventGroup) (action : EventAction)
  | dropped
  | lifecycle (registryType action : String)
  deriving DecidableEq, Repr

namespace Counter

def family : Counter → String
  | .reconcilePasses _ => "reconcile_passes"
  | .reconcileFailures _ => "reconcile_failures"
  | .inserted _ => "upstreams_inserted"
  | .deleted _ => "upstreams_deleted"
  | .published _ _ => "change_events_published"
  | .dropped => "change_events_dropped"
  | .lifecycle _ _ => "registry_connector_lifecycle"

/-- The labels and their values, by name. -/
def labels : Counter → List (String × String)
  | .reconcilePasses d => [("discovery_id", d)]
  | .reconcileFailures d => [("discovery_id", d)]
  | .inserted d => [("discovery_id", d)]
  | .deleted d => [("discovery_id", d)]
  | .published g a => [("group", g.label), ("type", a.label)]
  | .dropped => []
  | .lifecycle t a => [("action", a), ("register_type", t)]

end Counter

structure Metrics where
  counters : Table Counter Nat
  /-- The gauge of registrations with a connector. -/
  active : Int

namespace Metrics

def zero : Metrics := ⟨.empty, 0⟩

def count (m : Metrics) (c : Counter) : Nat := (m.counters.get? c).getD 0

def add (m : Metrics) (c : Counter) (n : Nat) : Metrics :=
  { m with counters := m.counters.insert c (m.count c + n) }

def moveActive (m : Metrics) (n : Int) : Metrics := { m with active := m.active + n }

theorem count_add (m : Metrics) (c d : Counter) (n : Nat) :
    (m.add c n).count d = if c = d then m.count d + n else m.count d := by
  by_cases h : c = d
  · subst h
    simp [add, count, Table.get?_insert]
  · simp [add, count, Table.get?_insert, h]

/-- The text of a sample's name and labels. -/
def sampleName (family : String) (labels : List (String × String)) : String :=
  let inner := ",".intercalate (labels.map fun l => l.1 ++ "=" ++ l.2)
  family ++ "\x7b" ++ inner ++ "\x7d"

/-- The samples that are not zero. -/
def samples (m : Metrics) : List (String × Int) :=
  let counters := m.counters.entries.map fun e => (sampleName e.1.family e.1.labels, (e.2 : Int))
  (counters ++ [(sampleName "active_discoveries" [], m.active)]).filter fun s => s.2 != 0

end Metrics

end RouteSync
