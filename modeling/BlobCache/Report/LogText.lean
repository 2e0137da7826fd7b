import BlobCache.Action

/-!
# The text of a log

A log is shown up to a level of importance, one line a message. A message cannot control the
terminal that shows it: the characters that could are written as escapes.
-/

namespace BlobCache

namespace LogLevel

/-- Position of a level; more important levels come first. -/
def rank : LogLevel → Nat
  | error => 0
  | warn => 1
  | info => 2
  | debug => 3

/-- Whether messages of this level are shown when the log is shown up to `limit`. -/
def isShown (limit level : LogLevel) : Bool :=
  level.rank ≤ limit.rank

/-- The name of a level, five characters wide. -/
def label : LogLevel → String
  | error => "ERROR"
  | warn => " WARN"
  | info => " INFO"
  | debug => "DEBUG"

end LogLevel

namespace LogEvent

/-- Whether a character may control a terminal. Line breaks and tabs may not. -/
def isTerminalControl (c : Char) : Bool :=
  c ∈ ['\x07', '\x08', '\x0c', '\x1b', '\x7f'] || (0x80 ≤ c.toNat && c.toNat ≤ 0x9f)

/-- A character of a message. -/
def showChar (c : Char) : List Char :=
  if !isTerminalControl c then [c]
  else
    let digits := [Nat.digitChar (c.toNat / 16), Nat.digitChar (c.toNat % 16)]
    if c.toNat < 0x80 then '\\' :: 'x' :: digits
    else '\\' :: 'u' :: '\x7b' :: digits ++ ['\x7d']

/-- The line of a message. -/
def line (e : LogEvent) : String :=
  s!"{e.level.label} {String.ofList (e.message.toList.flatMap showChar)}\n"

end LogEvent

/-- The lines of a log. -/
def logText (log : List LogEvent) : String :=
  String.join (log.map LogEvent.line)

/-- Leaves out the messages that are not shown up to a level. -/
def Action.logUpTo {σ α : Type} (limit : LogLevel) (x : Action σ α) : Action σ α := fun s =>
  let o := x s
  { o with log := o.log.filter fun e => limit.isShown e.level }

/-- Leaves out all messages. -/
def Action.unlogged {σ α : Type} (x : Action σ α) : Action σ α := fun s =>
  let o := x s
  { o with log := [] }

end BlobCache
