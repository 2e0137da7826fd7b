import BlobCache.Backend.Basic
import BlobCache.Disk.Operation
import BlobCache.Labels.Header
import BlobCache.ObjectDir.Slot

/-!
# Object directories

An object directory keeps one object in each of a limited number of slots, the file of a slot
being the object's label header followed by its body. An `ObjectDir` remembers which slots are
taken; `ObjectStore` is an object directory together with the disk that it lies on, and is a
`Backend`.

* A new object takes the lowest free slot. It is written to a temporary file first and renamed at
  the end (`placement`), so a file under a slot's name is always complete.
* Reading trusts nothing but the name: the file may be missing, a folder, or malformed.
* A deleted object's slot is free even when the disk refuses to delete the file.

What storing and deleting do is written down once, for any device: `saveTidying` and `removeOn` take
the answers of the device to the steps that they ask for. `save` and `remove` are the calls on a
device that does as it is told.
-/

namespace BlobCache

/-- A directory of numbered objects. -/
structure ObjectDir where
  /-- Where it lies. -/
  path : Path
  /-- How many slots it has. -/
  limit : Nat
  /-- The slots that hold a file. -/
  slots : SlotSet
  deriving DecidableEq, Repr

namespace ObjectDir

/-- The file of a slot. -/
def slotPath (dir : ObjectDir) (slot : Nat) : Path :=
  dir.path.join (Slot.name slot)

/-- The file in which a slot's object is prepared. -/
def temporaryPath (dir : ObjectDir) (slot : Nat) : Path :=
  dir.path.join (Slot.temporaryName slot)

/-- Number of objects. -/
def fileCount (dir : ObjectDir) : Nat :=
  dir.slots.size

/-- The names of the objects, by ascending slot. -/
def filenames (dir : ObjectDir) : List String :=
  dir.slots.toList.map Slot.name

/-- The lowest free slot. -/
def freeSlot? (dir : ObjectDir) : Option Nat :=
  if dir.slots.firstGap < dir.limit then some dir.slots.firstGap else none

/-- The slots that the files of a folder take; names of another form are passed over. Since a folder
is listed as a whole or not at all, a listing that breaks off half way is not considered. -/
def scan (disk : Disk) (path : Path) : Except CacheError SlotSet :=
  match disk.readFolder path with
  | .ok names => .ok (SlotSet.ofList (names.filterMap Slot.ofName?))
  | .error e => .error (.io ("reading storage dir " ++ path.text) e)

/-- Opens the object directory at a path, making it if it is missing. It is closed to other users
of the machine, since objects may hold anything. -/
def openAt (path : Path) (limit : Nat) : Action Disk ObjectDir := do
  let unavailable (e : IoError) := CacheError.backendUnavailable path e
  let (disk, made) := (← Action.get).makeFolders path
  Action.set disk
  Action.ofExcept (made.mapError unavailable)
  let disk ← Action.ofExcept ((disk.setMode path 0o700).mapError unavailable)
  Action.set disk
  let node ← Action.ofExcept ((disk.stat path).mapError unavailable)
  match node with
  | .file _ => Action.fail (unavailable (.other "not a directory"))
  | .folder _ =>
    let slots ← Action.ofExcept (scan disk path)
    Action.log .debug
      s!"Opened storage dir {path.text} ({slots.size} files, limit {limit})"
    return { path, limit, slots }

/-- How the file of a slot is put in place: prepared under the temporary name and renamed once it
has reached the device. -/
def placement (dir : ObjectDir) (slot : Nat) (header data : Bytes) : List FileOperation :=
  let temporary := dir.temporaryPath slot
  [.create temporary, .append temporary header, .append temporary data, .sync temporary,
    .rename temporary (dir.slotPath slot)]

/-- Permits the operations on the files of one slot. -/
def registerSlot (dir : ObjectDir) (slot : Nat) : Action Allowlist Unit := do
  let path := dir.slotPath slot
  let temporary := dir.temporaryPath slot
  let permit (push : Allowlist → Except CacheError Allowlist) : Action Allowlist Unit := do
    Action.set (← Action.ofExcept (push (← Action.get)))
  permit (·.allow .read path)
  permit (·.allow .read temporary)
  permit (·.allow .stat path)
  permit (·.allow .stat temporary)
  permit (·.allow .unlink path)
  permit (·.allow .unlink temporary)
  permit (·.allowRename temporary path)

/-- Permits the operations on the files of `count` slots from `slot` on. -/
def registerFrom (dir : ObjectDir) : Nat → Nat → Action Allowlist Unit
  | 0, _ => pure ()
  | count + 1, slot => do
    dir.registerSlot slot
    dir.registerFrom count (slot + 1)

/-- Permits the operations on the files of every slot. -/
def register (dir : ObjectDir) : Action Allowlist Unit :=
  dir.registerFrom dir.limit 0

end ObjectDir

/-- An object directory and the disk that it lies on. -/
structure ObjectStore where
  /-- The directory. -/
  dir : ObjectDir
  /-- The disk. -/
  disk : Disk
  deriving DecidableEq, Repr

namespace ObjectStore

/-- Opens the object directory at a path, and keeps the disk with it. -/
def openAt (path : Path) (limit : Nat) : Action Disk ObjectStore := do
  let dir ← ObjectDir.openAt path limit
  return { dir, disk := ← Action.get }

/-- Reads the directory again, in case the folder was changed by someone else. -/
def rescan : Action ObjectStore Unit := do
  let s ← Action.get
  let slots ← Action.ofExcept (ObjectDir.scan s.disk s.dir.path)
  Action.set { s with dir := { s.dir with slots } }

/-- Number of bytes that the objects take on the disk. A file that is gone takes none. -/
def usage (s : ObjectStore) : Except CacheError Nat :=
  s.dir.slots.toList.foldlM (fun total slot =>
    let path := s.dir.slotPath slot
    match s.disk.stat path with
    | .ok node => .ok (total + node.size)
    | .error .notFound => .ok total
    | .error e => .error (.io ("stat " ++ path.text) e)) 0

/-! ### Storing -/

/-- Stores an object in the lowest free slot. When the file cannot be put in place, the temporary
file is taken away again. The device answers to the steps of putting the file in place with
`responses`, and to taking it away with `tidying`. -/
def saveTidying (responses : List Response) (tidying : Response) (labels : Labels) (data : Bytes) :
    Action ObjectStore String := do
  match labels.header with
  | .error e => Action.fail (.invalidArgument e.message)
  | .ok header =>
    let s ← Action.get
    match s.dir.freeSlot? with
    | none =>
      let reason := s!"storage directory {s.dir.path.text} full ({s.dir.limit} files)"
      Action.fail (.writeFailed reason none)
    | some slot =>
      match s.disk.perform (s.dir.placement slot header data) responses with
      | (disk, .error e) =>
        let tidied := (disk.removeFileOn (s.dir.temporaryPath slot) tidying).toOption.getD disk
        Action.set { s with disk := tidied }
        Action.fail (.writeFailed ("writing " ++ (s.dir.slotPath slot).text) (some e))
      | (disk, .ok ()) =>
        Action.set { dir := { s.dir with slots := s.dir.slots.insert slot }, disk }
        Action.log .debug s!"Stored {data.length} bytes as {slot}"
        return Slot.name slot

/-- Stores an object, on a device that answers as given and takes the temporary file away when
asked. -/
def saveOn (responses : List Response) (labels : Labels) (data : Bytes) :
    Action ObjectStore String :=
  saveTidying responses .comply labels data

/-- Stores an object in the lowest free slot. -/
def save (labels : Labels) (data : Bytes) : Action ObjectStore String :=
  saveOn [] labels data

/-! ### Reading -/

/-- The header and the body in the file of an object. -/
def read (s : ObjectStore) (filename : String) : Except CacheError (Bytes × Bytes) := do
  match Slot.ofName? filename with
  | none => .error (.malformedObject filename "not an object filename")
  | some slot =>
    let path := s.dir.slotPath slot
    match s.disk.stat path with
    | .error e => .error (.io ("opening " ++ path.text) e)
    | .ok (.folder _) => .error (.io ("mapping " ++ path.text) .isDirectory)
    | .ok (.file file) =>
      match file.cutAtZero? with
      | some parts => .ok parts
      | none => .error (.malformedObject filename "label header is not terminated")

/-- The object under a name. -/
def object (s : ObjectStore) (filename : String) : Except CacheError StoredObject := do
  let (header, body) ← s.read filename
  match Labels.ofHeader header with
  | .ok labels => .ok { labels, body }
  | .error fault => .error (.malformedObject filename (Labels.unreadableHeader fault))

/-- The body of the object under a name; the header is not looked at. -/
def body (s : ObjectStore) (filename : String) : Except CacheError Bytes := do
  let (_, body) ← s.read filename
  return body

/-! ### Deleting -/

/-- Deletes the object under a name, on a device that answers as given. -/
def removeOn (response : Response) (filename : String) : Action ObjectStore Unit := do
  match Slot.ofName? filename with
  | none => Action.fail (.malformedObject filename "not an object filename")
  | some slot =>
    let s ← Action.get
    let path := s.dir.slotPath slot
    let dir := { s.dir with slots := s.dir.slots.erase slot }
    match s.disk.removeFileOn path response with
    | .ok disk => Action.set { dir, disk }
    | .error .notFound =>
      Action.set { s with dir }
      Action.log .warn s!"Object {path.text} was already gone"
    | .error e =>
      Action.set { s with dir }
      Action.fail (.io ("removing " ++ path.text) e)

/-- Deletes the object under a name. -/
def remove (filename : String) : Action ObjectStore Unit :=
  removeOn .comply filename

instance : Backend ObjectStore where
  save := save
  list := do return (← Action.get).dir.filenames
  load name := do Action.ofExcept ((← Action.get).object name)
  loadBody name := do Action.ofExcept ((← Action.get).body name)
  remove := remove
  register := do
    let (s, _) ← Action.get
    s.dir.register.zoom (·.2) fun rules (s, _) => (s, rules)

end ObjectStore

end BlobCache
