import BlobCache.Disk.Basic

/-!
# Sequences of file operations

A file is put in place by several operations, and a crash or a failing device may cut the sequence
at any point. The sequence is therefore data: a list of `FileOperation`s, carried out one after the
other by `Disk.perform` on a device that may refuse any of them (`Response`), and that may have
written a part of the bytes when it refuses. Such a device may refuse to delete a file as well
(`Disk.removeFileOn`).
-/

namespace BlobCache

/-- An operation on files. -/
inductive FileOperation
  /-- Makes an empty file, or empties the file that is there. -/
  | create (path : Path)
  /-- Writes behind the end of a file. -/
  | append (path : Path) (data : Bytes)
  /-- Waits until a file has reached the device. -/
  | sync (path : Path)
  /-- Moves a file, in place of a file that may be there. -/
  | rename (source target : Path)
  deriving DecidableEq, Repr

/-- What the device makes of an operation. -/
inductive Response
  /-- It is carried out. -/
  | comply
  /-- It fails, after this many bytes if it writes any. -/
  | fail (written : Nat)
  deriving DecidableEq, Repr

/-- The refusal of a failing device. -/
def deviceFailure : IoError := .other "Input/output error (os error 5)"

namespace FileOperation

/-- Carries out an operation. -/
def apply (d : Disk) : FileOperation → Except IoError Disk
  | create path => d.createFile path
  | append path data => d.appendFile path data
  | sync path => (d.stat path).map fun _ => d
  | rename source target => d.renameFile source target

/-- The disk after an operation that failed when `written` bytes had been written. -/
def interrupted (d : Disk) (written : Nat) : FileOperation → Disk
  | append path data => ((d.appendFile path (data.take written)).toOption).getD d
  | _ => d

end FileOperation

/-- Takes a file out of its folder, on a device that answers as given. -/
def Disk.removeFileOn (d : Disk) (p : Path) : Response → Except IoError Disk
  | .comply => d.removeFile p
  | .fail _ => .error deviceFailure

/-- Carries out operations up to the first that fails. The responses tell what the device makes of
them, in order; when they have run out, it complies. -/
def Disk.perform (d : Disk) : List FileOperation → List Response → Disk × Except IoError Unit
  | [], _ => (d, .ok ())
  | op :: ops, responses =>
    match responses.head? with
    | some (.fail written) => (op.interrupted d written, .error deviceFailure)
    | _ =>
      match op.apply d with
      | .ok d => d.perform ops responses.tail
      | .error e => (d, .error e)

end BlobCache
