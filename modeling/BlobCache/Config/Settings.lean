import BlobCache.Error
import BlobCache.Toml.Quotation
import BlobCache.Toml.Statement

/-!
# Settings

What a user can set, and the two forms of it: `Settings.text` is the TOML document that is written,
and `Settings.ofText?` reads a document. The reader knows two sections with two settings each. It
passes over everything else, takes the default for what is missing, and refuses a value of the
wrong type. A section may also be given as an array of its settings in order.
-/

namespace BlobCache

/-- What a user can set. -/
structure Settings where
  /-- Whether more is logged. -/
  verbose : Bool := false
  /-- The form of the log. -/
  logFormat : String := "text"
  /-- Where the objects are. -/
  directory : Option Path := none
  /-- How many objects the directory is meant for. -/
  capacityHint : Nat := 256
  deriving DecidableEq, Repr

namespace Settings

open Toml

/-! ### Writing -/

/-- The greatest number that a document can hold. -/
def greatestNumber : Nat := integerBound - 1

/-- The line that sets a directory. -/
def directoryLine : Option Path → List Char
  | none => []
  | some path => "directory = ".toList ++ quoted path.text.toList ++ ['\n']

/-- The document that sets these settings, without regard to whether it can hold the numbers. -/
def lines (s : Settings) : List Char :=
  "[general]\nverbose = ".toList ++ (if s.verbose then "true" else "false").toList ++
    "\nlog_format = ".toList ++ quoted s.logFormat.toList ++ "\n\n[cache]\n".toList ++
    directoryLine s.directory ++ "capacity_hint = ".toList ++ Nat.toDigits 10 s.capacityHint ++
    ['\n']

/-- The document that sets these settings. -/
def text (s : Settings) : Except CacheError String :=
  if s.capacityHint ≤ greatestNumber then .ok (String.ofList s.lines)
  else .error (.configUnwritable "out-of-range value for u64 type")

/-! ### Reading -/

/-- The values of a section's settings, as far as they are given. -/
def fields? (names : List String) : Value → Option (List (Option Value))
  | .table _ entries => some (names.map fun name => List.lookup name entries)
  | .array elements => some (names.mapIdx fun i _ => elements[i]?)
  | .tables elements => some (names.mapIdx fun i _ => (elements[i]?).map (.table {}))
  | .datetime => some (names.map fun _ => none)
  | _ => none

/-- The values of the settings of the section with this name. -/
def section? (entries : Entries) (name : String) (names : List String) :
    Option (List (Option Value)) :=
  match List.lookup name entries with
  | some value => fields? names value
  | none => some (names.map fun _ => none)

/-- A truth value, or the default if none is given. -/
def boolean? (default : Bool) : Option Value → Option Bool
  | none => some default
  | some (.boolean b) => some b
  | some _ => none

/-- A text, or the default if none is given. -/
def string? {α : Type} (default : α) (f : String → α) : Option Value → Option α
  | none => some default
  | some (.string s) => some (f s)
  | some _ => none

/-- A natural number, or the default if none is given. -/
def natural? (default : Nat) : Option Value → Option Nat
  | none => some default
  | some (.integer (.ofNat n)) => some n
  | some _ => none

/-- The settings in the entries of a document. -/
def ofEntries? (entries : Entries) : Option Settings := do
  let general ← section? entries "general" ["verbose", "log_format"]
  let cache ← section? entries "cache" ["directory", "capacity_hint"]
  match general, cache with
  | [verbose, logFormat], [directory, capacityHint] =>
    return {
      verbose := ← boolean? false verbose
      logFormat := ← string? "text" id logFormat
      directory := ← string? none (fun s => some ⟨s⟩) directory
      capacityHint := ← natural? 256 capacityHint }
  | _, _ => none

/-- The settings in a document. -/
def ofText? (s : List Char) : Option Settings :=
  (document? s).bind ofEntries?

end Settings

end BlobCache
