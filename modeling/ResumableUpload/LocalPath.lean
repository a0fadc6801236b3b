import ResumableUpload.Text.Segments

/-!
# Local paths

A local path is a text as the user gives it.  Empty segments and `.` lead nowhere; the name of the
file that a path names is the last segment that does, unless it is `..`.
-/

namespace ResumableUpload.LocalPath

/-- The segments of a path. -/
def pieces (path : String) : List String :=
  (Text.segments path.toList).map String.ofList

/-- Whether a segment leads anywhere. -/
def isStep (piece : String) : Bool :=
  piece != "" && piece != "."

/-- The name of the file that a path names. -/
def fileName? (path : String) : Option String :=
  match ((pieces path).filter isStep).getLast? with
  | some ".." => none
  | last => last

/-- The path of the directory that a path lies in; the root and the empty path lie in none. -/
def parent? (path : String) : Option String :=
  let before := (pieces path).reverse.dropWhile fun piece => !isStep piece
  if before = [] then none else some ("/".intercalate (before.drop 1).reverse)

/-- The path of a name in a directory. -/
def join (directory name : String) : String :=
  if directory = "" then name
  else if directory.toList.getLast? = some '/' then directory ++ name
  else directory ++ "/" ++ name

end ResumableUpload.LocalPath
