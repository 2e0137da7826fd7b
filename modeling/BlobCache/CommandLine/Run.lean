import BlobCache.CommandLine.Reading
import BlobCache.Report.LogText
import BlobCache.Session.Configuration

/-!
# Running invocations

An invocation loads its settings, lets its options override them and carries out its command. The
log is shown from the moment on at which the settings are known, which say how much of it; hence
what loading logs is never shown. A process ends with an exit code, and what goes wrong is said
on the standard error behind the log.
-/

namespace BlobCache

namespace Invocation

/-- How much of the log is shown. -/
def logLimit (i : Invocation) (settings : Settings) : LogLevel :=
  match i.verbosity with
  | 0 => if settings.verbose then .info else .warn
  | 1 => .info
  | _ => .debug

/-- Where the configuration file of an invocation is. -/
def configPath (i : Invocation) (env : Environment) : Path :=
  i.configFile.getD env.defaultConfigPath

/-- The settings of an invocation, given those that were loaded. -/
def override (i : Invocation) (settings : Settings) : Action Disk Settings :=
  match i.directory with
  | none => return settings
  | some directory => do
    Action.log .debug s!"Object directory overridden: {directory.text}"
    return { settings with directory }

/-- Carries out the command of an invocation. -/
def perform (i : Invocation) (s : Session) : Action Disk Bytes :=
  match i.command with
  | .add labels file => s.add ⟨labels⟩ file
  | .list label format => s.list label format
  | .cat key value => s.cat key value
  | .remove key value => s.remove key value
  | .stats => s.stats
  | .config action => s.config (i.configPath s.environment) action

/-- Runs an invocation. The result is what it writes to the standard output. -/
def run (i : Invocation) (environment : Environment) (input : Bytes) : Action Disk Bytes := do
  let loaded ← (Settings.load (i.configPath environment)).unlogged
  let work : Action Disk Bytes := do
    let settings ← i.override loaded
    i.perform { environment, input, settings }
  work.logUpTo (i.logLimit loaded)

end Invocation

namespace Outcome

variable {σ : Type}

/-- The exit code of a process. -/
def exitCode (o : Outcome σ Bytes) : Nat :=
  match o.result with
  | .ok _ => 0
  | .error _ => 1

/-- What a process writes to the standard output. -/
def output (o : Outcome σ Bytes) : Bytes :=
  match o.result with
  | .ok bytes => bytes
  | .error _ => []

/-- What is said about an error. -/
def complaint (e : CacheError) : String :=
  s!"Error: {e.message}\n" ++ ((e.hint?.map fun hint => s!"Hint: {hint}\n").getD "")

/-- What a process writes to the standard error. -/
def errorOutput (o : Outcome σ Bytes) : String :=
  logText o.log ++
    match o.result with
    | .ok _ => ""
    | .error e => complaint e

end Outcome

/-- What asking for the version of a command shows. -/
def versionText (name : String) : String :=
  name ++ " 0.1.0\n"

end BlobCache
