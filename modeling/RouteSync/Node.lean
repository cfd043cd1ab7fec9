import RouteSync.Hub.Lifecycle
import RouteSync.Settings.Loading
import RouteSync.Settings.Validation
import RouteSync.Store.Opening

/-!
# A node

A node loads its settings, prepares its directories, opens its log and its store, and creates the
configured registrations; the first failure ends it.  It then serves until it is told to stop, and
removes the registrations again.
-/

namespace RouteSync

/-- A node that is up. -/
structure Node where
  settings : Settings
  hub : Hub

namespace Node

/-- The name of the log inside the log directory. -/
def logName : String := "discovery.log"

/-- Brings a node up in an environment. -/
def start (env : Environment) : OnFiles Node := do
  let settings ← .ofExcept .settings (Settings.load (← get) env)
  settings.validate
  .openAppend ((FilePath.read settings.logDirectory).append logName)
  let store ← settings.storage.open
  match Act.createAll settings.registrations (Hub.create settings.discovery store) with
  | .ok _ hub => return ⟨settings, hub⟩
  | .error e _ => throw e

/-- Takes a node down. -/
def stop (n : Node) : Hub :=
  match Act.removeAll n.settings.registrations n.hub with
  | .ok _ hub => hub
  | .error _ hub => hub

end Node

/-- How a run of the program ends. -/
inductive Ending
  /-- It was told to stop. -/
  | stopped
  | failed (e : Error)
  deriving DecidableEq, Repr

namespace Ending

def exitCode : Ending → Nat
  | .stopped => 0
  | .failed _ => 1

def output : Ending → String
  | .stopped => "Exiting program.\n"
  | .failed _ => ""

/-- What is reported about a failure. -/
def report? : Ending → Option String
  | .stopped => none
  | .failed e => some e.shown

end Ending

/-- A whole run: the node comes up, is told to stop, and goes down. -/
def Node.run (files : FileTree) (env : Environment) : FileTree × Ending :=
  match Node.start env files with
  | .ok _ files => (files, .stopped)
  | .error e files => (files, .failed e)

end RouteSync
