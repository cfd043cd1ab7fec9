import RouteSync.Event
import RouteSync.Metrics

/-!
# The event queue

Published events wait in a bounded queue until the dispatcher takes them.  An event that finds the queue
full or closed is dropped.  The dispatcher takes events in the order of publication and hands each one
to every subscriber in the order of subscription.  What its `run` delivers depends on how it comes to its
end (`Pipeline.finish`).
-/

namespace RouteSync

structure EventQueue where
  capacity : Nat
  waiting : List ChangeEvent := []
  isOpen : Bool := true

namespace EventQueue

/-- A queue for at least one event. -/
def create (capacity : Nat) : EventQueue := { capacity := max capacity 1 }

/-- Whether the next event is accepted. -/
def hasRoom (q : EventQueue) : Bool := q.isOpen && decide (q.waiting.length < q.capacity)

def push (q : EventQueue) (e : ChangeEvent) : EventQueue := { q with waiting := q.waiting ++ [e] }

/-- Takes an event in or drops it, and counts it accordingly. -/
def offer (q : EventQueue) (m : Metrics) (e : ChangeEvent) : EventQueue × Metrics :=
  if q.hasRoom then (q.push e, m.add (.published e.group e.action) 1) else (q, m.add .dropped 1)

def close (q : EventQueue) : EventQueue := { q with isOpen := false }

/-- Closes the queue and forgets what waits in it. -/
def discard (q : EventQueue) : EventQueue := { q with waiting := [], isOpen := false }

end EventQueue

/-- A queue with the subscribers of its dispatcher, what they have received so far, and the metrics that
count publications. -/
structure Pipeline where
  queue : EventQueue
  subscribers : Nat
  delivered : List (Nat × ChangeEvent) := []
  metrics : Metrics := .zero

namespace Pipeline

def create (capacity subscribers : Nat) : Pipeline :=
  { queue := .create capacity, subscribers := subscribers }

def publish (p : Pipeline) (e : ChangeEvent) : Pipeline :=
  let (q, m) := p.queue.offer p.metrics e
  { p with queue := q, metrics := m }

def publishAll (p : Pipeline) (l : List ChangeEvent) : Pipeline := l.foldl publish p

/-- Hands one event to every subscriber. -/
def dispatch (p : Pipeline) (e : ChangeEvent) : Pipeline :=
  { p with delivered := p.delivered ++ (List.range p.subscribers).map fun i => (i, e) }

/-- Takes the event that has waited longest, if there is one. -/
def receive (p : Pipeline) : Pipeline :=
  match p.queue.waiting with
  | [] => p
  | e :: rest => { p with queue := { p.queue with waiting := rest } }.dispatch e

/-- Takes all waiting events. -/
def drain (p : Pipeline) : Pipeline := p.queue.waiting.foldl (fun p _ => p.receive) p

end Pipeline

/-- How a dispatcher comes to its end. -/
inductive PipelineEnd
  /-- All publishers are gone. -/
  | publishersGone
  /-- A shutdown is signalled, or whoever could signal it is gone. -/
  | shutdown
  /-- The dispatcher is dropped before it runs. -/
  | dispatcherGone
  /-- The dispatcher never runs. -/
  | never
  deriving DecidableEq, Repr

namespace Pipeline

/-- Runs the dispatcher to its end.  What waits is still delivered; a shutdown then closes the queue. -/
def finish (p : Pipeline) : PipelineEnd → Pipeline
  | .publishersGone => p.drain
  | .shutdown =>
    let p := p.drain
    { p with queue := p.queue.close }.drain
  | .dispatcherGone => { p with queue := p.queue.discard }
  | .never => p

end Pipeline

end RouteSync
