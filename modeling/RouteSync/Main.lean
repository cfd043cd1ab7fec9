import RouteSync.Metrics.Exposition
import RouteSync.Node
import Std.Async.Signal
import Std.Http.Server

/-!
# The program

Runs a node on the machine.  The files that a node may look at are pictured as a file tree before it
starts, and what it made in the picture is made on the machine afterwards.  Then the node serves until
it is interrupted or terminated.
-/

open Std.Async Std.Http

namespace RouteSync.Program

/-- A name with its value, which begins after the first equals sign. -/
def assignment? (e : List Char) : Option (String × String) :=
  match e.span fun c => c != '=' with
  | (name, '=' :: value) => some (String.ofList name, String.ofList value)
  | _ => none

/-- The variables of this process, which the system gives with zero characters between them. -/
def environment : IO Environment := do
  let block ← IO.FS.readBinFile "/proc/self/environ"
  let text := (String.fromUTF8? block).getD ""
  return Table.ofList ((Text.splitAt '\x00' text.toList).filterMap assignment?)

def pathText (location : List String) : String := "/" ++ "/".intercalate location

/-- What stands at a location of the machine; what a directory holds is not looked at. -/
def probe (location : List String) : IO (Option FileNode) := do
  match ← (IO.FS.Handle.mk (pathText location) .read).toBaseIO with
  | .error _ => return none
  | .ok h =>
    match ← (h.read 1).toBaseIO with
    | .ok _ => return some (.file "")
    | .error _ => return some (.directory [])

/-- Adds what stands along a path to a picture of the machine. -/
def observe (t : FileTree) (p : FilePath) : IO FileTree := do
  let mut location := if p.absolute then [] else t.working
  let mut t := t
  for part in p.parts do
    if part == ".." then
      location := location.dropLast
    else if part != "." then
      location := location ++ [part]
      if (t.get? location).isNone then
        if let some n ← probe location then
          t := t.put location n
  return t

/-- Adds a file with its content to a picture of the machine. -/
def observeContent (t : FileTree) (p : FilePath) : IO FileTree := do
  let t ← observe t p
  match t.locate p, t.content? p with
  | .ok place, some _ =>
    try
      let content ← IO.FS.readFile (pathText place.location)
      return t.put place.location (.file content)
    catch _ => return t
  | _, _ => return t

/-- Pictures what a node may look at. -/
def picture (env : Environment) : IO FileTree := do
  let working := FilePath.read (← IO.currentDir).toString
  let mut t : FileTree := { root := [], working := working.parts, sealed := [["proc"]] }
  t ← observe t working
  if let some name := env.settingsFile? then
    t ← observeContent t (.read name)
    if let some p := ((FilePath.read name).within t.working).addExtension? tomlExtension then
      t ← observeContent t p
  if let .ok s := Settings.load t env then
    t ← observe t ((FilePath.read s.logDirectory).append Node.logName)
    let database := (FilePath.read s.storage.directory).append databaseName
    t ← observeContent t (database.append DatabaseNote.fileName)
    for name in [DatabaseNote.draftName, FileTree.dataName, FileTree.longValuesName] do
      t ← observe t (database.append name)
  return t

/-- Makes on the machine what has been added to a picture of it. -/
def realize (before after : FileTree) : IO Unit := do
  for (above, n) in FileNode.locatedBelow [] after.root do
    let location := above.reverse
    if (before.get? location).isNone then
      match n with
      | .directory _ => IO.FS.createDirAll (pathText location)
      | _ => discard (IO.FS.Handle.mk (pathText location) .append)

/-- The page that the metrics server shows. -/
structure MetricsPage where
  body : String

instance : Server.Handler MetricsPage where
  ResponseBody := Body.Full
  onRequest page request := do
    if Metrics.isPagePath (toString request.line.uri.path) then
      Response.ok.text page.body
    else Response.notFound.text ""

/-- Shows the metrics of a node; a node goes on without its metrics if they cannot be shown. -/
def showMetrics (n : Node) : IO Unit := do
  if n.settings.monitoring.enabled then
    let address : Std.Net.SocketAddress := .v4 ⟨.ofParts 0 0 0 0, UInt16.ofNat n.settings.monitoring.tcpPort⟩
    try
      discard (Async.block (Server.serve address (MetricsPage.mk n.hub.metrics.page)))
    catch e => IO.eprintln s!"metrics cannot be shown: {e}"

/-- Returns when the process is interrupted or terminated. -/
def waitForStop : IO Unit := do
  let interrupted ← Signal.Waiter.mk .sigint false
  let terminated ← Signal.Waiter.mk .sigterm false
  discard (IO.waitAny [← interrupted.wait, ← terminated.wait])
  interrupted.stop
  terminated.stop

/-- Runs a node from beginning to end. -/
def run : IO Ending := do
  let env ← environment
  let before ← picture env
  match Node.start env before with
  | .error e after =>
    realize before after
    return .failed e
  | .ok n after =>
    realize before after
    showMetrics n
    waitForStop
    let _ := n.stop
    return .stopped

end RouteSync.Program

def main : IO UInt32 := do
  let ending ← RouteSync.Program.run
  IO.print ending.output
  if let some report := ending.report? then
    IO.eprintln s!"Error: {report}"
  return UInt32.ofNat ending.exitCode
