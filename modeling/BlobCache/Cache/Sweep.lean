import BlobCache.Cache.Reference

/-!
# Sweeps

Two kinds of housekeeping go through the listed entries. `unmapIdle` drops the bodies that have
been idle for long enough and deletes nothing. `purge` deletes the retired entries: without force
only those that nobody but the cache holds, with force all of them, in which case their holders
keep an entry that is no longer listed and has no file. `sweep` does the one and then the other.

A sweep goes on over entries whose bookkeeping is inconsistent, and counts them.
-/

namespace BlobCache

/-- What a sweep did. -/
structure SweepReport where
  /-- Entries whose body was unmapped. -/
  unmapped : Nat := 0
  /-- Entries deleted, with their files. -/
  deleted : Nat := 0
  /-- Retired entries that were kept because someone holds them. -/
  retained : Nat := 0
  /-- Entries taken off the list whose file could not be deleted. -/
  failedRemovals : Nat := 0
  /-- Entries passed over because their bookkeeping is inconsistent. -/
  violations : Nat := 0
  deriving DecidableEq, Repr

instance : Add SweepReport where
  add a b :=
    { unmapped := a.unmapped + b.unmapped
      deleted := a.deleted + b.deleted
      retained := a.retained + b.retained
      failedRemovals := a.failedRemovals + b.failedRemovals
      violations := a.violations + b.violations }

namespace Cache

variable {β : Type}

/-- Treats entries one after the other and adds up what was done. -/
def sweepEach (treat : EntryId → Action (Cache β) SweepReport) :
    List EntryId → Action (Cache β) SweepReport
  | [] => pure {}
  | id :: ids => do
    let first ← treat id
    let others ← sweepEach treat ids
    return first + others

/-- Counts an inconsistency. -/
def inconsistency (message : String) : Action (Cache β) SweepReport := do
  Action.log .error ("integrity violation: " ++ message)
  return { violations := 1 }

/-- The complaint about a listed identifier that leads nowhere. -/
def freedMember (id : EntryId) : String :=
  s!"collection holds freed entry {id.text}"

/-- The complaint about a listed entry of another cache. -/
def foreignMember (id : EntryId) : String :=
  s!"entry {id.text} is listed but not owned"

/-- The complaint about a listed entry without references. -/
def unheldMember (id : EntryId) : String :=
  s!"entry {id.text} is listed with no references"

/-! ### Idle bodies -/

/-- Unmaps the body of a listed entry if it has been idle since `cutoff`. -/
def unmapOne (cutoff : Instant) (id : EntryId) : Action (Cache β) SweepReport := do
  let c ← Action.get
  match c.get? id with
  | none => inconsistency (freedMember id)
  | some e =>
    if 1 < e.references.count then return {}
    else if e.owner ≠ some c.id then inconsistency (foreignMember id)
    else if e.isIdleAt cutoff && e.isMapped then
      updateEntry id Entry.unmapped
      return { unmapped := 1 }
    else return {}

/-- Unmaps every body that only the cache holds and that has been idle since `cutoff`. -/
def unmapIdle (cutoff : Instant) : Action (Cache β) SweepReport := do
  let report ← sweepEach (unmapOne cutoff) (← Action.get).members
  if 0 < report.unmapped then
    Action.log .info s!"Unmapped {report.unmapped} idle entries"
  return report

/-! ### Retired entries -/

/-- What a purge does with a listed entry. -/
inductive Fate
  /-- It is not retired, and stays. -/
  | keep
  /-- It is retired, but someone holds it. -/
  | retain
  /-- It is deleted. -/
  | delete
  /-- It is passed over. -/
  | inconsistent (message : String)
  deriving DecidableEq, Repr

/-- The fate of a listed entry. -/
def fate (c : Cache β) (force : Bool) (id : EntryId) : Fate :=
  match c.get? id with
  | none => .inconsistent (freedMember id)
  | some e =>
    if !force && decide (1 < e.references.count) then
      if e.retired then .retain else .keep
    else if !force && e.owner != some c.id then .inconsistent (foreignMember id)
    else if !e.retired then .keep
    else if e.references.count = 0 then .inconsistent (unheldMember id)
    else .delete

/-- Counts the entries that a purge passes over. -/
def judge (force : Bool) (id : EntryId) : Action (Cache β) SweepReport := do
  match (← Action.get).fate force id with
  | .inconsistent message => inconsistency message
  | .retain => return { retained := 1 }
  | _ => return {}

/-- Deletes an entry that is off the list, and its file. -/
def discard [Backend β] (id : EntryId) : Action (Cache β) SweepReport := do
  match (← Action.get).get? id with
  | none => return {}
  | some e =>
    let violations := match ← (letGo id).attempt with
      | .ok _ => 0
      | .error _ => 1
    match ← (onBackend (Backend.remove e.filename)).attempt with
    | .ok () => return { deleted := 1, violations }
    | .error error =>
      Action.log .warn s!"Unable to remove {e.filename} from cache: {error.message}"
      return { failedRemovals := 1, violations }

/-- Deletes the retired entries; without force, only those that nobody but the cache holds. -/
def purge [Backend β] (force : Bool) : Action (Cache β) SweepReport := do
  let c ← Action.get
  let passed ← sweepEach (judge force) c.members
  let doomed := c.members.filter (c.fate force · == .delete)
  Action.modify fun c => { c with members := c.members.filter (!doomed.contains ·) }
  let removed ← sweepEach discard doomed
  let report := passed + removed
  if 0 < report.deleted then
    Action.log .info s!"Deleted {report.deleted} entries marked for removal"
  return report

/-- Unmaps the bodies that have been idle for `maxIdle`, then deletes the retired entries that
nobody holds. There is no such sweep if the moment from which on a body must have been idle is not
representable. -/
def sweep? [Backend β] (now : Instant) (maxIdle : Duration) :
    Option (Action (Cache β) SweepReport) :=
  (now.add? (-maxIdle)).map fun cutoff => do
    let unmapped ← unmapIdle cutoff
    let purged ← purge false
    return unmapped + purged

end Cache

end BlobCache
