import BlobCache.Path

/-!
# Errors

`IoError` is a refusal by the disk. `CacheError` names the causes for which an operation of this
library fails; its wording, and the advice that some errors carry, are functions of the cause.
-/

namespace BlobCache

/-- Why the disk refuses an operation. -/
inductive IoError
  /-- There is no such file. -/
  | notFound
  /-- The file is there already. -/
  | alreadyExists
  /-- A file stands where a folder is needed. -/
  | notDirectory
  /-- A folder stands where a file is needed. -/
  | isDirectory
  /-- Another cause, given by its wording. -/
  | other (message : String)
  deriving DecidableEq, Repr

/-- The wording of a refusal. -/
def IoError.message : IoError → String
  | notFound => "No such file or directory (os error 2)"
  | alreadyExists => "File exists (os error 17)"
  | notDirectory => "Not a directory (os error 20)"
  | isDirectory => "Is a directory (os error 21)"
  | other message => message

/-- Why an operation fails. -/
inductive CacheError
  /-- The object directory cannot be used. -/
  | backendUnavailable (path : Path) (cause : IoError)
  /-- An object was not stored; without a cause, the store itself declined. -/
  | writeFailed (reason : String) (cause : Option IoError)
  /-- The body of an object cannot be had. -/
  | notAvailable (filename reason : String)
  /-- A file is not the file of an object. -/
  | malformedObject (filename reason : String)
  /-- An allowlist takes no further rule. -/
  | ruleRejected (reason : String)
  /-- A reference or an identifier was used against its contract. -/
  | integrity (reason : String)
  /-- No object has the label. -/
  | noEntry (key value : String)
  /-- A configuration file does not read as a configuration. -/
  | configInvalid (path : Path) (reason : String)
  /-- The folder of a configuration file cannot be made. -/
  | configFolder (path : Path) (cause : IoError)
  /-- A configuration has no written form. -/
  | configUnwritable (reason : String)
  /-- The disk refused an operation. -/
  | io (context : String) (cause : IoError)
  /-- The caller's data cannot be used. -/
  | invalidArgument (reason : String)
  deriving DecidableEq, Repr

namespace CacheError

/-- The wording of an error. -/
def message : CacheError → String
  | backendUnavailable path cause =>
    "Cache directory unavailable: " ++ path.text ++ ": " ++ cause.message
  | writeFailed reason _ => "Failed to store object: " ++ reason
  | notAvailable filename reason =>
    "Object body not available for " ++ filename ++ ": " ++ reason
  | malformedObject filename reason => "Malformed object file " ++ filename ++ ": " ++ reason
  | ruleRejected reason => "Sandbox rejected rule: " ++ reason
  | integrity reason => "Integrity violation: " ++ reason
  | noEntry key value => "No entry with " ++ key ++ "=" ++ value
  | configInvalid path reason => "Invalid configuration at " ++ path.text ++ ": " ++ reason
  | configFolder path cause =>
    "Failed to create config directory " ++ path.text ++ ": " ++ cause.message
  | configUnwritable reason => "TOML serialize error: " ++ reason
  | io context _ => "IO error: " ++ context
  | invalidArgument reason => "Invalid argument: " ++ reason

/-- What the user can do about an error. -/
def hint? : CacheError → Option String
  | backendUnavailable .. => some "Check that the cache directory is writable, or pass --dir"
  | writeFailed _ none => some "Remove unused entries or raise cache.capacity_hint"
  | configInvalid .. => some "Run: labelcache config init --force"
  | _ => none

/-- Whether the same call may succeed later. -/
def isRetryable : CacheError → Bool
  | writeFailed .. => true
  | notAvailable .. => true
  | _ => false

/-- Whether the error reports a broken contract. -/
def isIntegrity : CacheError → Bool
  | integrity _ => true
  | _ => false

end CacheError

end BlobCache
