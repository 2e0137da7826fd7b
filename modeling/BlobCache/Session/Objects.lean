import BlobCache.Cache.Open
import BlobCache.CommandLine.Basic
import BlobCache.Config.File
import BlobCache.Report.Listing

/-!
# Sessions with a cache

A session works on the objects of the configured directory. Each of its operations opens the cache
over the directory, does its work and closes the cache again, whether the work succeeds or not
(`withCache`). The result of an operation is what it writes to the standard output; an operation
that fails writes nothing.
-/

namespace BlobCache

/-- What an operation is given besides its arguments. -/
structure Session where
  /-- The environment. -/
  environment : Environment := {}
  /-- The standard input. -/
  input : Bytes := []
  /-- The settings. -/
  settings : Settings := {}
  deriving DecidableEq, Repr

namespace Session

/-- The bytes of a text that is written. -/
def written (text : String) : Bytes :=
  Utf8.encode text.toList

/-- Where the objects are. -/
def directory (s : Session) : Path :=
  s.settings.objectDir s.environment

/-- Runs an action on a cache, which takes the place of the disk that it lies on. -/
def onCache {α : Type} (cache : Cache ObjectStore) (x : Action (Cache ObjectStore) α) :
    Action Disk α := fun _ =>
  let o := x cache
  ⟨o.result, o.state.backend.disk, o.log⟩

/-- Runs an action on the configured cache, and closes the cache. -/
def withCache {α : Type} (s : Session) (x : Action (Cache ObjectStore) α) : Action Disk α := do
  let path := s.directory
  Action.log .debug s!"Opening cache at {path.text}"
  let cache ← Cache.openAt ⟨1⟩ path s.settings.capacityHint
  onCache cache (x.andFinally Cache.close)

/-- The contents of a file that is to be stored. -/
def contents (path : Path) : Action Disk Bytes := do
  let unreadable (e : IoError) := CacheError.io ("reading " ++ path.text) e
  Action.ofExcept (((← Action.get).readFile path).mapError unreadable)

-- The moment of a release starts an idle time, which nothing looks at before the cache is closed.

/-- Stores an object and writes its name. -/
def add (s : Session) (labels : Labels) (file : Option Path) :
    Action Disk Bytes := do
  let data ← match file with
    | some path => contents path
    | none => pure s.input
  s.withCache do
    let id ← Cache.add labels data
    let name := ((← Action.get).get? id).map (·.filename ++ "\n")
    let _ ← Cache.release .epoch id
    return written (name.getD "")

/-- A listing in a format. -/
def listing (format : ListFormat) (rows : List Row) : String :=
  match format with
  | .json => Listing.json rows
  | .plain => Listing.plain rows
  | .table =>
    if rows.isEmpty then Status.info.line "No objects stored" else Listing.table rows

/-- Lists the objects with a label; without one, all listed objects. -/
def list (s : Session) (label : Option (String × String))
    (format : ListFormat) : Action Disk Bytes :=
  s.withCache do
    let cache ← Action.get
    let ids := match label with
      | some (key, value) => cache.findAll (some key) value
      | none => cache.members
    let rows ← Cache.rows ids
    return written (listing format rows)

/-- Writes the body of the first object with a label. -/
def cat (s : Session) (key value : String) : Action Disk Bytes :=
  s.withCache do
    match (← Action.get).find? key value with
    | none => Action.fail (.noEntry key value)
    | some id =>
      let _ ← Cache.acquire id
      let body ← Cache.body id
      let _ ← Cache.release .epoch id
      return body

/-- Marks an object for deletion. -/
def mark (id : EntryId) : Action (Cache ObjectStore) Unit := do
  Action.log .debug s!"Marking {id.text} for removal"
  Cache.retire id

/-- What is written when objects were deleted. -/
def removalText (report : SweepReport) : String :=
  Status.ok.line s!"Removed {report.deleted} object(s)" ++
    if 0 < report.failedRemovals then
      Status.warn.line
        s!"{report.failedRemovals} file(s) could not be unlinked - Run with -v for details"
    else ""

/-- Deletes the objects with a label. -/
def remove (s : Session) (key value : String) : Action Disk Bytes :=
  s.withCache do
    let ids := (← Action.get).findAll (some key) value
    if ids.isEmpty then
      return written (Status.info.line s!"No objects with {key}={value}")
    else
      ids.forM mark
      return written (removalText (← Cache.purge false))

/-- Counts the objects and their bytes. -/
def stats (s : Session) : Action Disk Bytes :=
  s.withCache do
    let cache ← Action.get
    let usage ← Action.ofExcept cache.backend.usage
    return written (Status.heading "Cache" ++
      Status.item "directory" cache.backend.dir.path.text ++
      Status.item "entries" s!"{cache.size} / {cache.capacityHint}" ++
      Status.item "disk usage" (ByteSize.text usage))

end Session

end BlobCache
