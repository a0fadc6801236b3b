import ResumableUpload.Text.Quoted
import ResumableUpload.Text.Segments

/-!
# Remote paths

A remote path is a text of segments separated by `/`, relative to the root of the endpoint.  `check`
accepts the paths that an upload may be queued under; `RemotePath.Fault` names why a path is
refused.
-/

namespace ResumableUpload.RemotePath

/-- Why a remote path is refused. -/
inductive Fault where
  | empty
  | absolute (path : String)
  | directory (path : String)
  | nul (path : String)
  | parent (path : String)
deriving DecidableEq, Repr

/-- The wording of a refusal. -/
def Fault.message : Fault → String
  | .empty => "empty path"
  | .absolute path => "absolute path not allowed: " ++ path
  | .directory path => "path names a directory: " ++ path
  | .nul path => "NUL byte in path: " ++ Text.quoted path
  | .parent path => "parent directory traversal not allowed: " ++ path

/-- The first reason to refuse a path, if there is one. -/
def fault? (path : String) : Option Fault :=
  let characters := path.toList
  if characters = [] then some .empty
  else if characters.head? = some '/' then some (.absolute path)
  else if characters.getLast? = some '/' then some (.directory path)
  else if '\x00' ∈ characters then some (.nul path)
  else if ['.', '.'] ∈ Text.segments characters then some (.parent path)
  else none

/-- Accepts a path that an upload may be queued under. -/
def check (path : String) : Except Fault Unit :=
  match fault? path with
  | some fault => .error fault
  | none => .ok ()

end ResumableUpload.RemotePath
