import BlobCache.Session.Objects

/-!
# Sessions with the configuration

The settings in force can be shown as a configuration file would hold them, with the object
directory spelled out. A configuration file is only written over an older one by force.
-/

namespace BlobCache.Session

/-- Shows the settings in force. -/
def showSettings (s : Session) : Action Disk Bytes := do
  let text ← Action.ofExcept { s.settings with directory := some s.directory }.text
  return written (text ++ "\n")

/-- Writes a configuration file with the default settings. -/
def writeDefaults (path : Path) (force : Bool) : Action Disk Bytes := do
  if (← Action.get).contains path && !force then
    return written (Status.warn.line
      s!"Config already exists at {path.text} - Use --force to overwrite")
  else
    Settings.save path {}
    return written (Status.ok.line s!"Configuration initialized ({path.text})")

/-- Sees to the configuration, whose file is at `path`. -/
def config (s : Session) (path : Path) : Option ConfigAction → Action Disk Bytes
  | none => s.showSettings
  | some .showSettings => s.showSettings
  | some .showPath => return written (path.text ++ "\n")
  | some (.init force) => writeDefaults path force

end BlobCache.Session
