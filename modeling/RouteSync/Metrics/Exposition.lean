import RouteSync.Metrics

/-!
# The metrics page

The text in which metrics are shown to a monitoring system.  Families stand in the order of their names,
the samples of a family in the order of their label values.  A family with labels is left out as long as
none of its counters has been touched.
-/

namespace RouteSync

/-- A group of samples of one name. -/
structure MetricFamily where
  name : String
  help : String
  kind : String := "counter"
  deriving DecidableEq, Repr

namespace Metrics

/-- All families in the order of their names. -/
def families : List MetricFamily :=
  [⟨"active_discoveries", "discovery registrations currently cached", "gauge"⟩,
   ⟨"change_events_dropped",
     "change events dropped because the dispatch queue was full or closed", "counter"⟩,
   ⟨"change_events_published", "change events handed to the dispatcher", "counter"⟩,
   ⟨"reconcile_failures", "reconciliation passes aborted by an error", "counter"⟩,
   ⟨"reconcile_passes", "completed reconciliation passes", "counter"⟩,
   ⟨"registry_connector_lifecycle", "registry connector init/close calls", "counter"⟩,
   ⟨"upstreams_deleted", "upstream records deleted by discovery", "counter"⟩,
   ⟨"upstreams_inserted", "upstream records inserted by discovery", "counter"⟩]

/-- What all names begin with. -/
def namespaceMark : String := "discovery_"

/-- A sample: its labels, by name, and its value. -/
structure Sample where
  labels : List (String × String)
  value : Int
  deriving DecidableEq, Repr

/-- Whether the label values of a sample are smaller. -/
def Sample.before (a b : Sample) : Bool :=
  (a.labels.map Prod.snd).lex (b.labels.map Prod.snd) fun s t => decide (s < t)

/-- The samples of a family; the two families without labels always have one. -/
def samplesOf (m : Metrics) (f : MetricFamily) : List Sample :=
  if f.name = "active_discoveries" then [⟨[], m.active⟩]
  else if f.name = "change_events_dropped" then [⟨[], m.count .dropped⟩]
  else
    let touched := m.counters.entries.filter fun e => e.1.family == f.name
    let samples : List Sample := touched.map fun e => ⟨e.1.labels, e.2⟩
    samples.mergeSort fun a b => !b.before a

/-- A label value between its quotes. -/
def escapeLabel (s : String) : String :=
  String.ofList (s.toList.flatMap fun c =>
    if c = '\\' then ['\\', '\\']
    else if c = '"' then ['\\', '"']
    else if c = '\n' then ['\\', 'n']
    else [c])

def sampleLine (f : MetricFamily) (s : Sample) : String :=
  let labels := s.labels.map fun l => l.1 ++ "=\"" ++ escapeLabel l.2 ++ "\""
  let labels := if labels.isEmpty then "" else "\x7b" ++ ",".intercalate labels ++ "\x7d"
  namespaceMark ++ f.name ++ labels ++ " " ++ toString s.value ++ "\n"

def familyText (m : Metrics) (f : MetricFamily) : String :=
  match m.samplesOf f with
  | [] => ""
  | samples =>
    let name := namespaceMark ++ f.name
    s!"# HELP {name} {f.help}\n# TYPE {name} {f.kind}\n" ++ String.join (samples.map (sampleLine f))

/-- The whole page. -/
def page (m : Metrics) : String := String.join (families.map m.familyText)

/-- The paths at which the page is shown. -/
def isPagePath (path : String) : Bool := path == "/metrics" || path == "/metrics/"

end Metrics

end RouteSync
