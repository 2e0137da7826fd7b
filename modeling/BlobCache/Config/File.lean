import BlobCache.Action
import BlobCache.Config.Settings
import BlobCache.Disk.Basic
import BlobCache.Text.Utf8

/-!
# Configuration files

Where the configuration file and the objects lie by default, and how settings are loaded and saved.
A missing file means the defaults. Nothing is written when the settings have no written form, so
an older file survives.

Of a document that is refused it is kept that it is, and in which file, but not where in it the
reader stopped: the reason of `CacheError.configInvalid` is the same text for all of them.
-/

namespace BlobCache

/-- The variables of the environment that matter. -/
structure Environment where
  /-- The home folder of the user. -/
  home : Option String := none
  /-- The folder for configuration files. -/
  configHome : Option String := none
  /-- The folder for data files. -/
  dataHome : Option String := none
  /-- The configuration file. -/
  configFile : Option String := none
  /-- The object directory. -/
  objectDir : Option String := none
  deriving DecidableEq, Repr

namespace Environment

/-- A base folder: the given one if it is absolute, else the one of this name below the home
folder. -/
def baseFolder (env : Environment) (given : Option String) (below : List String) : Path :=
  match given.filter fun text => Path.isAbsolute ⟨text⟩ with
  | some text => ⟨text⟩
  | none =>
    match env.home with
    | some home => below.foldl Path.join ⟨home⟩
    | none => ⟨"."⟩

/-- Where the configuration file is if nothing else is said. -/
def defaultConfigPath (env : Environment) : Path :=
  ((env.baseFolder env.configHome [".config"]).join "labelcache").join "config.toml"

/-- Where the objects are if nothing else is said. -/
def defaultObjectDir (env : Environment) : Path :=
  ((env.baseFolder env.dataHome [".local", "share"]).join "labelcache").join "objects"

end Environment

namespace Settings

/-- Where the objects are. -/
def objectDir (s : Settings) (env : Environment) : Path :=
  s.directory.getD env.defaultObjectDir

/-! ### Loading -/

/-- The settings in a file. The error does not say what is wrong with a document. -/
def loadFile (path : Path) : Action Disk Settings := do
  let unreadable (e : IoError) := CacheError.io ("reading config from " ++ path.text) e
  let bytes ← Action.ofExcept (((← Action.get).readFile path).mapError unreadable)
  match Utf8.decode bytes with
  | .error _ => Action.fail (unreadable (.other "stream did not contain valid UTF-8"))
  | .ok text =>
    match ofText? text with
    | some settings => return settings
    | none => Action.fail (.configInvalid path "TOML parse error")

/-- The settings in a file, or the default settings if there is no file. -/
def load (path : Path) : Action Disk Settings := do
  if (← Action.get).contains path then
    loadFile path
  else
    Action.log .debug "Config file not found, using defaults"
    return {}

/-! ### Saving -/

/-- Makes the folder of a file. -/
def makeParent (path : Path) : Action Disk Unit := do
  match path.parent? with
  | none => return ()
  | some parent =>
    let (disk, made) := (← Action.get).makeFolders parent
    Action.set disk
    Action.ofExcept (made.mapError (.configFolder parent))

/-- Saves settings in a file. -/
def save (path : Path) (settings : Settings) : Action Disk Unit := do
  makeParent path
  let text ← Action.ofExcept settings.text
  let unwritten (e : IoError) := CacheError.io ("writing config to " ++ path.text) e
  let written := (← Action.get).writeFile path (Utf8.encode text.toList)
  Action.set (← Action.ofExcept (written.mapError unwritten))
  Action.log .info ("Configuration saved to " ++ path.text)

end Settings

end BlobCache
