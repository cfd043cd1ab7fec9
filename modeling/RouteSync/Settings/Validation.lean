import RouteSync.FileTree
import RouteSync.Settings.Basic

/-!
# Validating settings

Settings are checked part by part, and the first complaint counts.  Directories that a node needs are
made where they are missing; they stay when a later check fails.
-/

namespace RouteSync

open RouteSync.Text

def DiscoverySettings.check (s : DiscoverySettings) : Except InvalidConfig Unit :=
  if isBlank s.defaultListenerNode then .error .blankListenerNode
  else if s.lockStripes = 0 then .error .noLockStripes
  else if s.eventCapacity = 0 then .error .noEventCapacity
  else .ok ()

def MonitoringSettings.check (s : MonitoringSettings) : Except InvalidConfig Unit :=
  if !s.enabled then .ok ()
  else if s.tcpPort = 0 then .error .zeroMetricsPort
  else if s.tcpPort < 1024 then .error (.privilegedMetricsPort s.tcpPort)
  else .ok ()

/-- Every id is given and none twice; `seen` are the ids before these. -/
def checkIds (seen : List String) : List Registration → Except InvalidConfig Unit
  | [] => .ok ()
  | r :: rest =>
    if isBlank r.id then .error .blankRegistrationId
    else if seen.contains r.id then .error (.duplicateRegistration r.id)
    else checkIds (r.id :: seen) rest

/-- Makes a directory if nothing is there. -/
def OnFiles.ensureDirectory (name path : String) : OnFiles Unit := do
  if path = "" then
    throw (.settings (.emptyPath name))
  unless (← get).pathExists (.read path) do
    makeAll (fun e => .settings (.directory name path e)) (.read path)

/-- The directory of the embedded database, if that is in use. -/
def StorageSettings.prepare (s : StorageSettings) : OnFiles Unit :=
  match s.backend with
  | .memory => pure ()
  | .embedded => OnFiles.ensureDirectory "db_root_dir" s.directory

/-- Checks all parts of the settings and makes their directories. -/
def Settings.validate (s : Settings) : OnFiles Unit := do
  .ofExcept .invalid s.discovery.check
  s.storage.prepare
  .ofExcept .invalid s.monitoring.check
  .ensureDirectory "log_dir" s.logDirectory
  .ofExcept .invalid (checkIds [] s.registrations)

end RouteSync
