import BlobCache.CommandLine.Scan
import BlobCache.Config.File

/-!
# Reading the command line

`Invocation.ofWords` reads the sections of a command line one after the other and ends with an
invocation or with the halt that comes first.

* A value that stands in an argument of its own is looked at when something else follows on its
  level. Hence such a value at the end of a level is looked at only after the levels below have
  been read, and not at all if the scan halts behind it.
* An option that every level takes may stand on any level. The innermost one wins, and an option
  on any level wins over the environment, whose values are checked on each level that leaves the
  option open.
* What a command needs is asked for last.
-/

namespace BlobCache

/-- The options that every level takes, as far as they are given. -/
structure CommonOptions where
  /-- How much is to be logged. -/
  verbosity : Option Nat := none
  /-- The configuration file. -/
  configFile : Option Path := none
  /-- The object directory. -/
  directory : Option Path := none
  deriving DecidableEq, Repr

/-- The options of two levels; the inner ones win. -/
def CommonOptions.within (outer inner : CommonOptions) : CommonOptions where
  verbosity := inner.verbosity <|> outer.verbosity
  configFile := inner.configFile <|> outer.configFile
  directory := inner.directory <|> outer.directory

/-- What is given on a level. -/
structure Given where
  /-- The options that every level takes. -/
  common : CommonOptions := {}
  /-- The labels of a new object. -/
  labels : List (String × String) := []
  /-- The file of a new object. -/
  file : Option Path := none
  /-- The key to look for. -/
  key : Option String := none
  /-- The value to look for. -/
  value : Option String := none
  /-- The form of a listing. -/
  format : Option ListFormat := none
  /-- Whether an older file is overwritten. -/
  force : Bool := false
  deriving DecidableEq, Repr

/-- The greatest verbosity. -/
def greatestVerbosity : Nat := 255

namespace Given

/-- Fails with a wrong use. -/
def misuse {α : Type} (e : UsageError) : Except Halt α :=
  .error (.usage e)

/-- A value for something that has none yet. -/
def once {α : Type} (old : Option α) (new : Except Halt α) : Except Halt (Option α) :=
  match old with
  | some _ => misuse .repeated
  | none => new.map some

/-- The path in a value, which must not be empty. -/
def path (value : String) : Except Halt Path :=
  if value.isEmpty then misuse .badValue else .ok ⟨value⟩

/-- Counts an option without a value. -/
def applySwitch (level : Level) (g : Given) : Switch → Except Halt Given
  | .help => .error .help
  | .version => .error (.version level.name)
  | .verbose =>
    let count := min greatestVerbosity (g.common.verbosity.getD 0 + 1)
    .ok { g with common.verbosity := some count }
  | .force => if g.force then misuse .repeated else .ok { g with force := true }

/-- Takes a value. -/
def applySetting (g : Given) (s : Setting) (value : String) : Except Halt Given := do
  match s with
  | .configFile => return { g with common.configFile := ← once g.common.configFile (path value) }
  | .directory => return { g with common.directory := ← once g.common.directory (path value) }
  | .label =>
    match readLabel value with
    | .ok label => return { g with labels := g.labels ++ [label] }
    | .error fault => misuse (.badLabel fault)
  | .file => return { g with file := ← once g.file (path value) }
  | .key => return { g with key := ← once g.key (.ok value) }
  | .value => return { g with value := ← once g.value (.ok value) }
  | .format =>
    let format := match ListFormat.ofName? value with
      | some format => .ok format
      | none => misuse .badValue
    return { g with format := ← once g.format format }

/-- Takes what is said on a level. -/
def apply (level : Level) (g : Given) : Event → Except Halt Given
  | .switch s => g.applySwitch level s
  | .attached s value => g.applySetting s value
  | .separate s (some value) => g.applySetting s value
  | .separate _ none => misuse .badValue

/-- The key and the value to look for. -/
def label (g : Given) : Except Halt (String × String) :=
  match g.key, g.value with
  | some key, some value => .ok (key, value)
  | _, _ => misuse .missingArgument

/-- The key and the value to look for, which may be left out together. -/
def label? (g : Given) : Except Halt (Option (String × String)) :=
  match g.key, g.value with
  | none, none => .ok none
  | _, _ => g.label.map some

/-- The command that is given on the innermost level. -/
def command (env : Environment) (level : Level) (g : Given) : Except Halt Command := do
  match level with
  | .top =>
    let blank := decide (g.common = {}) && env.configFile.isNone && env.objectDir.isNone
    misuse (if blank then .empty else .noCommand)
  | .add => return .add g.labels g.file
  | .list => return .list (← g.label?) (g.format.getD .table)
  | .cat => let (key, value) ← g.label; return .cat key value
  | .remove => let (key, value) ← g.label; return .remove key value
  | .stats => return .stats
  | .config => return .config none
  | .configShow => return .config (some .showSettings)
  | .configPath => return .config (some .showPath)
  | .configInit => return .config (some (.init g.force))

end Given

/-- Checks the values that the environment gives to options that a level leaves open. -/
def Environment.check (env : Environment) (c : CommonOptions) : Except Halt Unit :=
  let isBad (given : Option Path) (inherited : Option String) : Bool :=
    given.isNone && inherited == some ""
  if isBad c.configFile env.configFile || isBad c.directory env.objectDir then
    .error (.usage .badValue)
  else .ok ()

namespace Section

/-- The events that count before anything else is read, and the one that waits, if any. -/
def split (s : Section) : List Event × List Event :=
  match s.events.getLast? with
  | some last => if last.isOpen then (s.events.dropLast, [last]) else (s.events, [])
  | none => ([], [])

/-- Reads a section and those below it. -/
def read (env : Environment) (halt : Option Halt) :
    Section → List Section → Except Halt (Command × CommonOptions)
  | s, [] => do
    let (counted, waiting) := s.split
    let given ← counted.foldlM (Given.apply s.level) {}
    match halt with
    | some h => .error h
    | none =>
      let given ← waiting.foldlM (Given.apply s.level) given
      env.check given.common
      return (← given.command env s.level, given.common)
  | s, next :: below => do
    let (counted, waiting) := s.split
    let given ← counted.foldlM (Given.apply s.level) {}
    let (command, inner) ← read env halt next below
    let given ← waiting.foldlM (Given.apply s.level) given
    env.check given.common
    return (command, given.common.within inner)

end Section

/-- What a command line asks for. -/
def Invocation.ofWords (env : Environment) (words : List String) : Except Halt Invocation := do
  let (first, below, halt) := sections words
  let (command, common) ← first.read env halt below
  return {
    command
    verbosity := common.verbosity.getD 0
    configFile := common.configFile <|> env.configFile.map (⟨·⟩)
    directory := common.directory <|> env.objectDir.map (⟨·⟩) }

end BlobCache
