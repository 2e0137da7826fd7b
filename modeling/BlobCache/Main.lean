import BlobCache.CommandLine.Run

/-!
# The program

The program takes from the machine what an invocation may look at: the files on the way to the
configuration, to the objects and to the file that is stored. It runs the invocation on them and
then gives the machine what the run has changed. Nothing is decided here.
-/

namespace BlobCache.Program

/-! ### Taking files from the machine -/

/-- The absolute path of a location. -/
def machinePath (loc : Location) : String :=
  "/" ++ "/".intercalate loc

/-- The file or the folder at a location of the machine. -/
def machineNode? (loc : Location) : IO (Option Node) := do
  let path := machinePath loc
  try
    let info ← (← IO.FS.realPath path).metadata
    match info.type with
    | .dir => return some (.folder 0o755)
    | _ => return some (.file (← IO.FS.readBinFile path).toList)
  catch _ => return none

/-- Takes the node at a location. -/
def takeNode (disk : Disk) (loc : Location) : IO Disk := do
  match disk.node? loc, ← machineNode? loc with
  | none, some node => return disk.put loc node
  | _, _ => return disk

/-- Takes the nodes on the way that a path goes. -/
def takePath (disk : Disk) (path : Path) : IO Disk := do
  let start := if path.isAbsolute then [] else disk.workingFolder
  let (disk, _) ← path.steps.foldlM (fun (disk, loc) name => do
    let loc := Disk.step loc name
    return (← takeNode disk loc, loc)) (disk, start)
  return disk

/-- Takes a folder with its files. -/
def takeFolder (disk : Disk) (path : Path) : IO Disk := do
  let disk ← takePath disk path
  match disk.find path with
  | .error _ => return disk
  | .ok loc =>
    try
      let below ← (← IO.FS.realPath (machinePath loc)).readDir
      below.foldlM (fun disk file => takeNode disk (loc ++ [file.fileName])) disk
    catch _ => return disk

/-- The disk of the machine, as far as an invocation may look at it. -/
def takeDisk (i : Invocation) (env : Environment) : IO Disk := do
  let here := Path.steps ⟨(← IO.currentDir).toString⟩
  let disk : Disk := { Disk.empty with workingFolder := here }
  let disk ← takePath disk ⟨machinePath here⟩
  let disk ← takePath disk (i.configPath env)
  let settings := ((Settings.load (i.configPath env)).run disk).result.toOption.getD {}
  let disk ← takeFolder disk (i.directory.getD (settings.objectDir env))
  match i.command with
  | .add _ (some file) => takePath disk file
  | _ => return disk

/-! ### Giving files to the machine -/

/-- Gives a new or changed node to the machine. -/
def giveNode (loc : Location) (node : Node) : IO Unit := do
  let path := machinePath loc
  match node with
  | .file data => IO.FS.writeBinFile path data.toByteArray
  | .folder mode =>
    IO.FS.createDirAll path
    if mode = 0o700 then
      IO.setAccessRights path { user := { read := true, write := true, execution := true } }

/-- Gives the machine what is different in a disk from what was taken. -/
def giveDisk (before after : Disk) : IO Unit := do
  let changed := after.nodes.filter fun (loc, node) => before.node? loc != some node
  for (loc, node) in changed.mergeSort (·.1.length ≤ ·.1.length) do
    giveNode loc node
  for (loc, _) in before.nodes do
    if (after.node? loc).isNone then
      IO.FS.removeFile (machinePath loc)

/-! ### The program -/

/-- The variables of the environment that matter. -/
def environment : IO Environment := do
  return {
    home := ← IO.getEnv "HOME"
    configHome := ← IO.getEnv "XDG_CONFIG_HOME"
    dataHome := ← IO.getEnv "XDG_DATA_HOME"
    configFile := ← IO.getEnv "LABELCACHE_CONFIG"
    objectDir := ← IO.getEnv "LABELCACHE_DIR" }

/-- The rest of a stream, behind what has been read of it. -/
partial def readAll (stream : IO.FS.Stream) (done : ByteArray) : IO ByteArray := do
  let piece ← stream.read 65536
  if piece.isEmpty then return done
  readAll stream (done ++ piece)

/-- The standard input, if an invocation stores it. -/
def input (i : Invocation) : IO Bytes := do
  match i.command with
  | .add _ none => return (← readAll (← IO.getStdin) .empty).toList
  | _ => return []

/-- What is said about an invocation that is halted. -/
def sayHalt : Halt → IO Unit
  | .help => IO.print "Usage: labelcache [OPTIONS] <add|list|cat|remove|stats|config>\n"
  | .version name => IO.print (versionText name)
  | .usage (.badLabel fault) => IO.eprintln s!"error: {fault.message}"
  | .usage _ => IO.eprintln "error: wrong usage; for more information, try '--help'."

/-- Runs an invocation on the machine. -/
def runOnMachine (i : Invocation) (env : Environment) : IO UInt32 := do
  let before ← takeDisk i env
  let o := i.run env (← input i) before
  giveDisk before o.state
  IO.eprint o.errorOutput
  let out ← IO.getStdout
  out.write o.output.toByteArray
  out.flush
  return UInt32.ofNat o.exitCode

end BlobCache.Program

/-- Runs the program on a command line. -/
def main (args : List String) : IO UInt32 := do
  let env ← BlobCache.Program.environment
  match BlobCache.Invocation.ofWords env args with
  | .ok i => BlobCache.Program.runOnMachine i env
  | .error h =>
    BlobCache.Program.sayHalt h
    return UInt32.ofNat h.exitCode
