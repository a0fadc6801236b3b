import ResumableUpload.CommandLine.Failure
import ResumableUpload.LocalPath

/-!
# Where a local file goes

A local file keeps its name in the remote directory that the user gives.  Slashes around the
directory do not count, and without a directory the name stands alone.
-/

namespace ResumableUpload.CommandLine

/-- The remote path of a name in a directory. -/
def remotePath (directory name : String) : String :=
  match Text.trimSlashes directory.toList with
  | [] => name
  | trimmed => String.ofList (trimmed ++ '/' :: name.toList)

/-- The remote path of a local file in a directory. -/
def remotePathOf (directory file : String) : Except Failure String :=
  match LocalPath.fileName? file with
  | some name => .ok (remotePath directory name)
  | none => .error ⟨"no usable file name in " ++ file, []⟩

end ResumableUpload.CommandLine
