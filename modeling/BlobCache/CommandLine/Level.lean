import BlobCache.CommandLine.Basic

/-!
# Levels of the command line

A command line goes from level to level: the outermost one ends where a command is named, and
some commands have commands of their own. Every level says which options it takes and which
commands it names. The options `-v`, `-c` and `-d`, and those for help and version, belong to
every level.
-/

namespace BlobCache

/-- A level of the command line. -/
inductive Level
  | top
  | add
  | list
  | cat
  | remove
  | stats
  | config
  | configShow
  | configPath
  | configInit
  deriving DecidableEq, Repr

/-- An option that takes no value. -/
inductive Switch
  | help
  | version
  | verbose
  | force
  deriving DecidableEq, Repr

/-- An option or an argument that has a value. -/
inductive Setting
  | configFile
  | directory
  | label
  | file
  | key
  | value
  | format
  deriving DecidableEq, Repr

/-- What an option stands for. -/
inductive Meaning
  | switch (s : Switch)
  | setting (s : Setting)
  deriving DecidableEq, Repr

/-- What the name of a command leads to. -/
inductive Turn
  /-- The level of the command. -/
  | level (l : Level)
  /-- The help text on the commands that are named next. -/
  | help
  deriving DecidableEq, Repr

namespace Level

/-- The full name of a level. -/
def name : Level → String
  | top => "labelcache"
  | add => "labelcache-add"
  | list => "labelcache-list"
  | cat => "labelcache-cat"
  | remove => "labelcache-remove"
  | stats => "labelcache-stats"
  | config => "labelcache-config"
  | configShow => "labelcache-config-show"
  | configPath => "labelcache-config-path"
  | configInit => "labelcache-config-init"

/-- What a one-letter option stands for. -/
def short? : Level → Char → Option Meaning
  | _, 'h' => some (.switch .help)
  | _, 'V' => some (.switch .version)
  | _, 'v' => some (.switch .verbose)
  | _, 'c' => some (.setting .configFile)
  | _, 'd' => some (.setting .directory)
  | add, 'l' => some (.setting .label)
  | list, 'k' | cat, 'k' | remove, 'k' => some (.setting .key)
  | list, 'f' => some (.setting .format)
  | configInit, 'f' => some (.switch .force)
  | _, _ => none

/-- What an option with a long name stands for. -/
def long? : Level → String → Option Meaning
  | _, "help" => some (.switch .help)
  | _, "version" => some (.switch .version)
  | _, "verbose" => some (.switch .verbose)
  | _, "config" => some (.setting .configFile)
  | _, "dir" => some (.setting .directory)
  | add, "label" => some (.setting .label)
  | list, "key" | cat, "key" | remove, "key" => some (.setting .key)
  | list, "value" | cat, "value" | remove, "value" => some (.setting .value)
  | list, "format" => some (.setting .format)
  | configInit, "force" => some (.switch .force)
  | _, _ => none

/-- What the name of a command leads to. -/
def turn? : Level → String → Option Turn
  | top, "add" => some (.level add)
  | top, "list" => some (.level list)
  | top, "cat" => some (.level cat)
  | top, "remove" => some (.level remove)
  | top, "stats" => some (.level stats)
  | top, "config" => some (.level config)
  | top, "help" => some .help
  | config, "show" => some (.level configShow)
  | config, "path" => some (.level configPath)
  | config, "init" => some (.level configInit)
  | config, "help" => some .help
  | _, _ => none

/-- Whether a level takes an argument that is not an option. -/
def takesFile : Level → Bool
  | add => true
  | _ => false

/-- What is wrong with an argument that a level does not take: where commands can be named, it is
taken for one. -/
def unexpected : Level → UsageError
  | top => .unknownCommand
  | config => .unknownCommand
  | _ => .unknownArgument

/-- What comes of asking for help on the commands that are named. -/
def helpOn : Level → List String → Halt
  | _, [] => .help
  | level, word :: rest =>
    match level.turn? word with
    | some (.level inner) => helpOn inner rest
    | some .help => if rest.isEmpty then .help else .usage .unknownCommand
    | none => .usage .unknownCommand

end Level

end BlobCache
