import RouteSync.Settings.Conversion
import RouteSync.Settings.Source

/-!
# Loading settings

The settings of the moment are overlaid with a file and then with the environment, so that the
environment has the last word.  `load` makes the settings with which a node begins, and `override` is the
operation `with_override_config` on settings that there are.
-/

namespace RouteSync.Settings

/-- The settings that some layers make up. -/
def ofLayers (l : List Layer) : Except SettingsError Settings := ofSetting (Setting.ofLayers l)

/-- Overlays settings with a file, if one is named, and with the environment. -/
def overlaid (s : Settings) (files : FileTree) (env : Environment) (file : Option String) :
    Except SettingsError Settings := do
  let current ← s.toLayer
  let fileLayers ← match file with
    | some name => do pure [← files.fileLayer name]
    | none => pure []
  ofLayers (current :: fileLayers ++ [env.layer])

/-- The settings of a node: the defaults, the file that the environment names, and the environment. -/
def load (files : FileTree) (env : Environment) : Except SettingsError Settings :=
  overlaid {} files env env.settingsFile?

/-- Overlays settings with the file of this name, and once more with the environment. -/
def override (s : Settings) (files : FileTree) (env : Environment) (name : String) :
    Except SettingsError Settings :=
  s.overlaid files env (some name)

end RouteSync.Settings
