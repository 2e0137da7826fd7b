import BlobCache.Path

/-!
# Invocations

What a command line asks for: an `Invocation` is a `Command` together with the options that every
command takes. A command line that asks for nothing is halted instead: for the help text, for the
version, or because it is used wrongly.
-/

namespace BlobCache

/-- The form of a listing. -/
inductive ListFormat
  /-- A table for people. -/
  | table
  /-- A JSON document. -/
  | json
  /-- The bare names, one a line. -/
  | plain
  deriving DecidableEq, Repr

/-- The format of this name. -/
def ListFormat.ofName? : String → Option ListFormat
  | "table" => some table
  | "json" => some json
  | "plain" => some plain
  | _ => none

/-- What to do with the configuration. -/
inductive ConfigAction
  /-- Show the settings in force. -/
  | showSettings
  /-- Show where the configuration file is. -/
  | showPath
  /-- Write a configuration file with the default settings; with force, over an older one. -/
  | init (force : Bool)
  deriving DecidableEq, Repr

/-- What to do. -/
inductive Command
  /-- Store a file, or the standard input, under labels. -/
  | add (labels : List (String × String)) (file : Option Path)
  /-- List the objects with a label, or all objects. -/
  | list (label : Option (String × String)) (format : ListFormat)
  /-- Write the body of the first object with a label. -/
  | cat (key value : String)
  /-- Delete the objects with a label. -/
  | remove (key value : String)
  /-- Count the objects and their bytes. -/
  | stats
  /-- See to the configuration; by itself this shows the settings. -/
  | config (action : Option ConfigAction)
  deriving DecidableEq, Repr

/-- What a command line asks for. -/
structure Invocation where
  /-- What to do. -/
  command : Command
  /-- How much is to be logged. -/
  verbosity : Nat
  /-- The configuration file, if it is not the default one. -/
  configFile : Option Path
  /-- The object directory, if it is not the configured one. -/
  directory : Option Path
  deriving DecidableEq, Repr

/-! ### Labels -/

/-- Why an argument is not a label. -/
inductive LabelFault
  /-- Nothing separates a key from a value. -/
  | noSeparator (text : String)
  /-- The key is empty. -/
  | emptyKey (text : String)
  deriving DecidableEq, Repr

/-- The wording of a fault. -/
def LabelFault.message : LabelFault → String
  | noSeparator text => s!"invalid KEY=VALUE format: no '=' found in '{text}'"
  | emptyKey text => s!"invalid KEY=VALUE format: empty key in '{text}'"

/-- The label in an argument: its key ends before the first equals sign. -/
def readLabel (text : String) : Except LabelFault (String × String) :=
  let chars := text.toList
  match chars.dropWhile (· != '=') with
  | [] => .error (.noSeparator text)
  | _ :: value =>
    match chars.takeWhile (· != '=') with
    | [] => .error (.emptyKey text)
    | key => .ok (String.ofList key, String.ofList value)

/-! ### Halts -/

/-- How a command line is used wrongly. -/
inductive UsageError
  /-- It is empty. -/
  | empty
  /-- It names no command. -/
  | noCommand
  /-- It names a command that there is not. -/
  | unknownCommand
  /-- It has an option that there is not, or an argument too many. -/
  | unknownArgument
  /-- It lacks an option that the command needs. -/
  | missingArgument
  /-- An option has no value, or one that it does not take. -/
  | badValue
  /-- The value of a label option is no label. -/
  | badLabel (fault : LabelFault)
  /-- An option that takes no value has one. -/
  | unwantedValue
  /-- An option is repeated. -/
  | repeated
  deriving DecidableEq, Repr

/-- Why a command line asks for nothing to be done. -/
inductive Halt
  /-- It asks for the help text. -/
  | help
  /-- It asks for the version of a command, given by its full name. -/
  | version (name : String)
  /-- It is used wrongly. -/
  | usage (error : UsageError)
  deriving DecidableEq, Repr

/-- The exit code that tells the caller of a halt. -/
def Halt.exitCode : Halt → Nat
  | help => 0
  | version _ => 0
  | usage _ => 2

end BlobCache
