import BlobCache.CommandLine.Level

/-!
# Scanning the command line

`scan` cuts a command line into sections, one for each level that it goes through, and says which
options stand in them, without looking at any value yet.

* `--name=value` and `-nvalue` attach a value to an option; otherwise the next argument is the
  value, unless it looks like an option itself. One-letter options without values may share a dash.
* After `--` nothing is an option or a command any more.
* A scan halts at the first argument that no level takes.
-/

namespace BlobCache

/-- One thing that is said on the command line. -/
inductive Event
  /-- An option without a value. -/
  | switch (s : Switch)
  /-- An option with a value attached. -/
  | attached (s : Setting) (value : String)
  /-- An argument, or an option with the argument behind it; none if it lacks one. -/
  | separate (s : Setting) (value : Option String)
  deriving DecidableEq, Repr

/-- Whether an event could still be added to when the next argument is read. -/
def Event.isOpen : Event → Bool
  | separate .. => true
  | _ => false

/-- What a command line says on one level. -/
structure Section where
  /-- The level. -/
  level : Level
  /-- What is said, in order. -/
  events : List Event
  deriving DecidableEq, Repr

/-- What the rest of a command line says. -/
structure Scan where
  /-- What is said on the current level. -/
  events : List Event
  /-- The sections of the levels below. -/
  inner : List Section
  /-- What halts the scan in the last section. -/
  halt : Option Halt
  deriving DecidableEq, Repr

namespace Scan

/-- Nothing more is said. -/
def done : Scan := ⟨[], [], none⟩

/-- The scan halts. -/
def halted (h : Halt) : Scan := ⟨[], [], some h⟩

/-- The scan halts at a wrong use. -/
def wrong (e : UsageError) : Scan := halted (.usage e)

/-- Events that come before a scan. -/
def after (events : List Event) (s : Scan) : Scan :=
  { s with events := events ++ s.events }

/-- A scan on the level of a command, as seen from the level that names the command. -/
def within (level : Level) (s : Scan) : Scan :=
  ⟨[], ⟨level, s.events⟩ :: s.inner, s.halt⟩

end Scan

/-! ### Options -/

/-- How an argument with options ends. -/
inductive OptionEnd
  /-- It is complete. -/
  | complete
  /-- It wants the next argument as a value. -/
  | wants (s : Setting)
  /-- It is used wrongly. -/
  | wrong (e : UsageError)
  deriving DecidableEq, Repr

/-- Whether an argument looks like an option. A lone dash does not. -/
def isOption (word : String) : Bool :=
  match word.toList with
  | '-' :: _ :: _ => true
  | _ => false

/-- The one-letter options behind a dash. -/
def clusterEvents (level : Level) : List Char → List Event × OptionEnd
  | [] => ([], .complete)
  | c :: rest =>
    match level.short? c with
    | none => ([], .wrong .unknownArgument)
    | some (.switch s) =>
      let (events, ending) := clusterEvents level rest
      (.switch s :: events, ending)
    | some (.setting s) =>
      match rest with
      | [] => ([], .wants s)
      | '=' :: value => ([.attached s (String.ofList value)], .complete)
      | value => ([.attached s (String.ofList value)], .complete)

/-- The option behind two dashes. -/
def longEvents (level : Level) (chars : List Char) : List Event × OptionEnd :=
  let name := String.ofList (chars.takeWhile (· != '='))
  let value := (chars.dropWhile (· != '=')).tail?.map String.ofList
  match level.long? name, value with
  | none, _ => ([], .wrong .unknownArgument)
  | some (.switch s), none => ([.switch s], .complete)
  | some (.switch _), some _ => ([], .wrong .unwantedValue)
  | some (.setting s), some value => ([.attached s value], .complete)
  | some (.setting s), none => ([], .wants s)

/-- The options in an argument that looks like one. -/
def optionEvents (level : Level) (word : String) : List Event × OptionEnd :=
  match word.toList with
  | '-' :: '-' :: name => longEvents level name
  | '-' :: letters => clusterEvents level letters
  | _ => ([], .complete)

/-! ### Arguments -/

/-- Scans arguments that are neither options nor commands. -/
def scanOperands (level : Level) : Bool → List String → Scan
  | _, [] => .done
  | takesFile, word :: rest =>
    if takesFile then (scanOperands level false rest).after [.separate .file (some word)]
    else if (level.turn? word).isSome then .wrong .unknownArgument
    else .wrong level.unexpected

/-- Scans a command line from a level on; `takesFile` says whether the level still takes a file. -/
def scan : Level → Bool → List String → Scan
  | _, _, [] => .done
  | level, takesFile, word :: rest =>
    match level.turn? word with
    | some (.level inner) => (scan inner inner.takesFile rest).within inner
    | some .help => .halted (level.helpOn rest)
    | none =>
      if word = "--" then scanOperands level takesFile rest
      else if isOption word then
        match optionEvents level word with
        | (events, .complete) => (scan level takesFile rest).after events
        | (events, .wrong e) => (Scan.wrong e).after events
        | (events, .wants s) =>
          match rest with
          | [] => Scan.done.after (events ++ [.separate s none])
          | value :: others =>
            if isOption value then
              (scan level takesFile (value :: others)).after (events ++ [.separate s none])
            else
              (scan level takesFile others).after (events ++ [.separate s (some value)])
      else if takesFile then (scan level false rest).after [.separate .file (some word)]
      else .wrong level.unexpected

/-- The sections of a command line, outermost first, and what halts its scan. -/
def sections (words : List String) : Section × List Section × Option Halt :=
  let s := scan .top false words
  (⟨.top, s.events⟩, s.inner, s.halt)

end BlobCache
