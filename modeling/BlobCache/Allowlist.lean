import BlobCache.Error

/-!
# Allowlists of file operations

A process that is about to give up its rights lists beforehand the file operations that it will
still need. An `Allowlist` collects such rules, in order and up to an optional limit, and
`Allowlist.permits` looks an operation up; paths are compared by their steps.
-/

namespace BlobCache

/-- A kind of file operation. -/
inductive FileOp
  | read
  | stat
  | rename
  | unlink
  deriving DecidableEq, Repr

/-- The name of a kind of operation in messages. -/
def FileOp.name : FileOp → String
  | read => "open"
  | stat => "stat"
  | rename => "rename"
  | unlink => "unlink"

/-- A permission for one operation on one path. -/
structure Rule where
  /-- The permitted operation. -/
  op : FileOp
  /-- The path that it may act on. -/
  path : Path
  /-- Where a rename may lead. -/
  target : Option Path := none
  deriving DecidableEq, Repr

/-- Rules collected so far, and how many are taken at most. -/
structure Allowlist where
  /-- The rules, oldest first. -/
  rules : Array Rule := #[]
  /-- The greatest number of rules, if there is one. -/
  limit : Option Nat := none
  deriving DecidableEq, Repr

namespace Allowlist

/-- Whether the limit admits a further rule. -/
def hasRoom (a : Allowlist) : Bool :=
  match a.limit with
  | none => true
  | some limit => a.rules.size < limit

/-- The list with one more rule, unless its limit is reached. -/
def push (a : Allowlist) (rule : Rule) : Except CacheError Allowlist :=
  if a.hasRoom then .ok { a with rules := a.rules.push rule }
  else .error (.ruleRejected (rule.op.name ++ " " ++ rule.path.text ++ ": rule limit reached"))

/-- Permits an operation on a path. -/
def allow (a : Allowlist) (op : FileOp) (path : Path) : Except CacheError Allowlist :=
  a.push { op, path }

/-- Permits renaming `path` to `target`. -/
def allowRename (a : Allowlist) (path target : Path) : Except CacheError Allowlist :=
  a.push { op := .rename, path, target := some target }

/-- Whether some rule permits the operation on the path. -/
def permits (a : Allowlist) (op : FileOp) (path : Path) : Bool :=
  a.rules.any fun r => r.op == op && decide (r.path.SameFile path)

end Allowlist

end BlobCache
