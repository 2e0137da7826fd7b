import BlobCache.Bytes
import BlobCache.Error

/-!
# Disks

A disk is a tree of folders and files without links, kept as a list that gives a node to a
location, the list of names from the root. `Disk.find` follows the steps of a path as an operating
system does: every step starts from a folder, and a missing folder and a file in its place are
different refusals. The operations leave the disk as it is when they are refused.

The view of a disk is `Disk.node?`, and `node?_put` and `node?_erase` say what the two basic
changes do to it.

Left out are owners and times, which nobody here asks for, and names that are no text: every name on
a disk is a string of characters. A folder is listed as a whole or not at all (`Disk.readFolder`).
-/

namespace BlobCache

/-- A file or a folder. -/
inductive Node
  /-- A file and its contents. -/
  | file (data : Bytes)
  /-- A folder and its permission bits. -/
  | folder (mode : Nat)
  deriving DecidableEq, Repr

/-- The names that lead from the root to a node. -/
abbrev Location := List String

/-- Number of bytes that a node is said to take. -/
def Node.size : Node → Nat
  | file data => data.length
  | folder _ => 4096

/-- A tree of files and folders, seen from a working folder. -/
structure Disk where
  /-- The nodes with their locations. -/
  nodes : List (Location × Node)
  /-- Where relative paths start. -/
  workingFolder : Location := []
  deriving DecidableEq, Repr

namespace Disk

/-- The disk with nothing but a root folder. -/
def empty : Disk := { nodes := [([], .folder 0o755)] }

/-! ### Nodes by location -/

/-- The node at a location. -/
def node? (d : Disk) (loc : Location) : Option Node :=
  d.nodes.lookup loc

/-- The disk without a node at a location. -/
def erase (d : Disk) (loc : Location) : Disk :=
  { d with nodes := d.nodes.filter (·.1 != loc) }

/-- The disk with this node at a location. -/
def put (d : Disk) (loc : Location) (node : Node) : Disk :=
  { d with nodes := (loc, node) :: (d.erase loc).nodes }

@[simp]
theorem node?_erase (d : Disk) (loc l : Location) :
    (d.erase loc).node? l = if l = loc then none else d.node? l := by
  unfold erase node?
  induction d.nodes with
  | nil => simp
  | cons x xs ih =>
    obtain ⟨k, n⟩ := x
    by_cases hk : k = loc
    · subst hk
      by_cases hl : l = k
      · simpa [hl] using ih
      · simpa [List.lookup_cons, beq_eq_false_iff_ne.mpr hl, hl] using ih
    · by_cases hl : l = k
      · simp [hl, hk]
      · simpa [List.lookup_cons, beq_eq_false_iff_ne.mpr hl, hk] using ih

@[simp]
theorem node?_put (d : Disk) (loc l : Location) (node : Node) :
    (d.put loc node).node? l = if l = loc then some node else d.node? l := by
  have h := node?_erase d loc l
  unfold node? at h
  by_cases hl : l = loc
  · simp [node?, put, hl]
  · simp [node?, put, List.lookup_cons, beq_eq_false_iff_ne.mpr hl, h, hl]

/-- The names of the nodes directly below a location. -/
def childNames (d : Disk) (loc : Location) : List String :=
  d.nodes.filterMap fun (l, _) => if l.dropLast = loc then l.getLast? else none

/-! ### Following a path -/

/-- The location that one name leads to. -/
def step (loc : Location) (name : String) : Location :=
  if name = "." then loc else if name = ".." then loc.dropLast else loc ++ [name]

/-- Follows names from a location; each starts from a folder. -/
def follow (d : Disk) : Location → List String → Except IoError Location
  | loc, [] => .ok loc
  | loc, name :: names =>
    match d.node? loc with
    | some (.folder _) => d.follow (step loc name) names
    | some (.file _) => .error .notDirectory
    | none => .error .notFound

/-- Follows `names` from where the path starts. -/
def followFrom (d : Disk) (p : Path) (names : List String) : Except IoError Location :=
  if p.text = "" then .error .notFound
  else d.follow (if p.isAbsolute then [] else d.workingFolder) names

/-- The location that a path means; there need not be a node. -/
def find (d : Disk) (p : Path) : Except IoError Location :=
  d.followFrom p (if p.endsInSlash then p.steps ++ ["."] else p.steps)

/-- The node that a path leads to. -/
def stat (d : Disk) (p : Path) : Except IoError Node := do
  let loc ← d.find p
  match d.node? loc with
  | some node => return node
  | none => .error .notFound

/-- Whether a path leads to a node. -/
def contains (d : Disk) (p : Path) : Bool :=
  (d.stat p).toBool

/-- Whether a path leads to a folder. -/
def isFolder (d : Disk) (p : Path) : Bool :=
  match d.stat p with
  | .ok (.folder _) => true
  | _ => false

/-! ### Reading -/

/-- The contents of a file. -/
def readFile (d : Disk) (p : Path) : Except IoError Bytes := do
  match ← d.stat p with
  | .file data => return data
  | .folder _ => .error .isDirectory

/-- The names in a folder, in no particular order. -/
def readFolder (d : Disk) (p : Path) : Except IoError (List String) := do
  let loc ← d.find p
  match d.node? loc with
  | some (.folder _) => return d.childNames loc
  | some (.file _) => .error .notDirectory
  | none => .error .notFound

/-! ### Changing files -/

/-- Makes an empty file, or empties the file that is there. -/
def createFile (d : Disk) (p : Path) : Except IoError Disk := do
  let loc ← d.find p
  match d.node? loc with
  | some (.folder _) => .error .isDirectory
  | _ => return d.put loc (.file [])

/-- Writes behind the end of a file. -/
def appendFile (d : Disk) (p : Path) (data : Bytes) : Except IoError Disk := do
  let loc ← d.find p
  match d.node? loc with
  | some (.file old) => return d.put loc (.file (old ++ data))
  | some (.folder _) => .error .isDirectory
  | none => .error .notFound

/-- Makes a file with these contents, or replaces the contents of the file that is there. -/
def writeFile (d : Disk) (p : Path) (data : Bytes) : Except IoError Disk := do
  (← d.createFile p).appendFile p data

/-- Moves a file to another path, in place of a file that may be there. -/
def renameFile (d : Disk) (source target : Path) : Except IoError Disk := do
  let origin ← d.find source
  let goal ← d.find target
  match d.node? origin, d.node? goal with
  | none, _ => .error .notFound
  | some _, some (.folder _) => .error .isDirectory
  | some node, _ => return (d.erase origin).put goal node

/-- Takes a file out of its folder. -/
def removeFile (d : Disk) (p : Path) : Except IoError Disk := do
  let loc ← d.find p
  match d.node? loc with
  | some (.file _) => return d.erase loc
  | some (.folder _) => .error .isDirectory
  | none => .error .notFound

/-! ### Changing folders -/

/-- Makes a folder. -/
def makeFolder (d : Disk) (p : Path) : Except IoError Disk := do
  let loc ← d.followFrom p p.steps
  match d.node? loc with
  | some _ => .error .alreadyExists
  | none => return d.put loc (.folder 0o755)

/-- Sets the permission bits of a folder. -/
def setMode (d : Disk) (p : Path) (mode : Nat) : Except IoError Disk := do
  let loc ← d.find p
  match d.node? loc with
  | some (.folder _) => return d.put loc (.folder mode)
  | some (.file _) => return d
  | none => .error .notFound

/-- Makes the first folder of a list of which each lies in the next; where that one is missing too,
makes it first. A folder that is there already is as good as a new one. -/
def makeChain (d : Disk) : List Path → Disk × Except IoError Unit
  | [] => (d, .ok ())
  | p :: above =>
    if p.text = "" then (d, .ok ())
    else
      let settle (d : Disk) : Disk × Except IoError Unit :=
        match d.makeFolder p with
        | .ok d => (d, .ok ())
        | .error e => (d, if d.isFolder p then .ok () else .error e)
      match d.makeFolder p with
      | .error .notFound =>
        match d.makeChain above with
        | (d, .error e) => (d, .error e)
        | (d, .ok ()) => settle d
      | _ => settle d

/-- Makes a folder and the folders above it, as far as they are missing. A refusal leaves the
folders that were made before it. -/
def makeFolders (d : Disk) (p : Path) : Disk × Except IoError Unit :=
  d.makeChain p.ancestors

end Disk

end BlobCache
