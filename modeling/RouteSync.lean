import RouteSync.Hub.Lifecycle
import RouteSync.Main
import RouteSync.Metrics.Exposition
import RouteSync.Node
import RouteSync.Settings.Loading
import RouteSync.Wire
import RouteSync.Proofs.Hub.Reconciling
import RouteSync.Proofs.Hub.Watching
import RouteSync.Proofs.Hub.Notifying
import RouteSync.Proofs.Store.Answers
import RouteSync.Proofs.Store.Interchange
import RouteSync.Proofs.Hub.Failing
import RouteSync.Proofs.Hub.Lifetimes
import RouteSync.Proofs.Json.RoundTrip
import RouteSync.Proofs.Hub.Instances
import RouteSync.Proofs.Hub.Agreement
import RouteSync.Proofs.Hub.OneTruth
import RouteSync.Proofs.Dispatching
import RouteSync.Proofs.Store.Ledger
import RouteSync.Proofs.Store.Anchored
import RouteSync.Proofs.Store.Insertion
import RouteSync.Proofs.Hub.Bindings
import RouteSync.Proofs.Hub.Isolation
import RouteSync.Proofs.Hub.Repeating
import RouteSync.Proofs.Hub.Retrying
import RouteSync.Proofs.Hub.Redelivery
import RouteSync.Proofs.Hub.Announcing
import RouteSync.Proofs.Hub.Sparing
import RouteSync.Proofs.Store.Uniqueness
import RouteSync.Proofs.Store.Separation
import RouteSync.Proofs.Hub.Attended
import RouteSync.Proofs.Hub.Effect
import RouteSync.Proofs.Wire
import RouteSync.Proofs.Settings.Precedence
import RouteSync.Proofs.Bootstrap
import RouteSync.Proofs.Json.Members
import RouteSync.Proofs.Payload.Renaming
import RouteSync.Proofs.Hub.Telling
import RouteSync.Proofs.Hub.GivingUp
import RouteSync.Proofs.Hub.Subscribing
import RouteSync.Proofs.Hub.Unfailing
import RouteSync.Proofs.Payload.Grammar
import RouteSync.Proofs.Hub.SameRecord
import RouteSync.Proofs.Hub.Counting
import RouteSync.Proofs.FlatObject
