import ResumableUpload.LocalPath
import ResumableUpload.Source

/-!
# Local files

A `Disk` is a tree of directories and files, given by the paths of its nodes.  Paths are resolved
segment by segment from a working directory, as a system does it.  A `LocalFile` remembers a path
and the size that the file had when it was opened; every read looks at the disk as it is then, so
that a file which shrank or vanished fails instead of giving other bytes.
-/

namespace ResumableUpload

/-- What a path names. -/
inductive Disk.Node where
  | file (content : Bytes)
  | directory
deriving DecidableEq, Repr

/-- Nodes by their segments below the root, later ones first; the directories above a node exist. -/
structure Disk where
  nodes : List (List String × Disk.Node) := []
deriving Repr

/-- Why the system refuses a path. -/
inductive Disk.Fault where
  | missing
  | alreadyExists
  | notDirectory
  | isDirectory
deriving DecidableEq, Repr

/-- The wording of the system. -/
def Disk.Fault.message : Disk.Fault → String
  | .missing => "No such file or directory (os error 2)"
  | .alreadyExists => "File exists (os error 17)"
  | .notDirectory => "Not a directory (os error 20)"
  | .isDirectory => "Is a directory (os error 21)"

namespace Disk

/-- The node at a list of segments. -/
def node? (disk : Disk) (segments : List String) : Option Node :=
  match disk.nodes.lookup segments with
  | some node => some node
  | none =>
    if segments = [] || disk.nodes.any fun (path, _) => segments.isPrefixOf path then
      some .directory
    else none

/-- Walks from a directory along pieces of a path; an empty piece and `.` stay in the directory. -/
def walk (disk : Disk) (directory : List String) : List String → Except Fault (List String)
  | [] => .ok directory
  | piece :: rest =>
    if piece = "" ∨ piece = "." then disk.walk directory rest
    else if piece = ".." then disk.walk directory.dropLast rest
    else
      let next := directory ++ [piece]
      match rest, disk.node? next with
      | [], _ => .ok next
      | _ :: _, some .directory => disk.walk next rest
      | _ :: _, some (.file _) => .error .notDirectory
      | _ :: _, none => .error .missing

/-- The segments that a path leads to from a working directory; the last need not exist. -/
def locate (disk : Disk) (workingDirectory : List String) (path : String) :
    Except Fault (List String) :=
  match LocalPath.pieces path with
  | [""] => .error .missing
  | "" :: pieces => disk.walk [] pieces
  | pieces => disk.walk workingDirectory pieces

/-- The node that a path names. -/
def find (disk : Disk) (workingDirectory : List String) (path : String) : Except Fault Node := do
  match disk.node? (← disk.locate workingDirectory path) with
  | some node => .ok node
  | none => .error .missing

/-- The disk with a node put in the place of whatever was there. -/
def insert (disk : Disk) (segments : List String) (node : Node) : Disk :=
  ⟨(segments, node) :: disk.nodes.filter (·.1 != segments)⟩

/-- The disk without a file. -/
def erase (disk : Disk) (segments : List String) : Disk :=
  ⟨disk.nodes.filter (·.1 != segments)⟩

/-- The content of the file that a path names. -/
def fileContent (disk : Disk) (workingDirectory : List String) (path : String) :
    Except Fault Bytes := do
  match ← disk.find workingDirectory path with
  | .file content => .ok content
  | .directory => .error .isDirectory

/-- A path without the slashes at its end, unless it has nothing else. -/
def withoutFinalSlashes (path : String) : String :=
  match Text.trimSlashesRight path.toList with
  | [] => path
  | named => String.ofList named

/-- Writes a file into a directory that exists; a path that ends with a slash names no file. -/
def putFile (disk : Disk) (workingDirectory : List String) (path : String) (content : Bytes) :
    Except Fault Disk := do
  let named := withoutFinalSlashes path
  let segments ← disk.locate workingDirectory named
  match disk.node? segments with
  | some .directory => .error .isDirectory
  | _ => if named = path then .ok (disk.insert segments (.file content)) else .error .isDirectory

/-- Makes the directories along pieces of a path that do not exist. -/
def makeAlong (disk : Disk) (directory : List String) : List String → Except Fault Disk
  | [] => .ok disk
  | piece :: rest =>
    if piece = "" ∨ piece = "." then disk.makeAlong directory rest
    else if piece = ".." then disk.makeAlong directory.dropLast rest
    else
      let next := directory ++ [piece]
      match disk.node? next with
      | some .directory => disk.makeAlong next rest
      | some (.file _) => .error (if rest = [] then .alreadyExists else .notDirectory)
      | none => (disk.insert next .directory).makeAlong next rest

/-- Makes a directory with those above it. -/
def makeDirectories (disk : Disk) (workingDirectory : List String) (path : String) :
    Except Fault Disk :=
  match LocalPath.pieces path with
  | [""] => .ok disk
  | "" :: pieces => disk.makeAlong [] pieces
  | pieces => disk.makeAlong workingDirectory pieces

end Disk

/-- A file of the disk, with the size that it had when it was opened. -/
structure LocalFile where
  path : String
  size : Nat
deriving DecidableEq, Repr

namespace LocalFile

/-- Opens the regular file that a path names. -/
def openPath (disk : Disk) (workingDirectory : List String) (path : String) :
    Except ReadError LocalFile :=
  match disk.find workingDirectory path with
  | .error fault => .error (.io fault.message)
  | .ok .directory => .error (.invalidPath ("not a regular file: " ++ path))
  | .ok (.file content) => .ok ⟨path, content.length⟩

/-- Reads a range of the size at opening from the file as it is now. -/
def readRange (file : LocalFile) (now : Except Disk.Fault Bytes) (first last : Nat) :
    Except ReadError Bytes := do
  Source.checkRange first last file.size
  match now with
  | .error fault => .error (.io fault.message)
  | .ok content =>
    if first < last ∧ content.length < last then .error (.io "failed to fill whole buffer")
    else .ok (content.slice first last)

/-- The source that reads the file from a disk. -/
def source (file : LocalFile) (disk : Disk) (workingDirectory : List String) : Source where
  size := file.size
  read := file.readRange (disk.fileContent workingDirectory file.path)

end LocalFile

end ResumableUpload
