import ResumableUpload.Payload
import ResumableUpload.Source
import ResumableUpload.Text.Quoted

/-!
# Queue entries

An entry is one file on its way to a remote path: how much of it the endpoint has confirmed, whether
it may run, and the last message about it.  An entry rebuilt from the endpoint's listing has no file
and is paused until the file is added again.
-/

namespace ResumableUpload

/-- A queued upload. -/
structure Entry where
  file : Option FileHandle
  path : String
  size : Nat
  uploaded : Nat
  runnable : Bool
  message : String

/-- What a transfer tells about its entry. -/
structure Report where
  path : String
  uploaded : Nat
  runnable : Bool
  message : String
deriving DecidableEq, Repr

namespace Entry

/-- A new entry, ready to run from the first byte. -/
def ofFile (file : FileHandle) (path : String) : Entry where
  file := some file
  path := path
  size := file.size
  uploaded := 0
  runnable := true
  message := ""

/-- A paused entry for a partial upload that the endpoint holds. -/
def ofInfo (info : PartialInfo) : Entry where
  file := none
  path := info.path
  size := info.size
  uploaded := min info.uploaded info.size
  runnable := false
  message := ""

/-- Whether the entry may be given the transfer slot. -/
def isEligible (entry : Entry) : Bool :=
  entry.runnable && entry.uploaded < entry.size && entry.file.isSome

/-- The entry after its file was added again. -/
def resume (entry : Entry) (file : FileHandle) : Entry :=
  { entry with file := some file, runnable := true, message := "" }

/-- The entry after the caller paused it. -/
def pause (entry : Entry) : Entry :=
  { entry with runnable := false }

/-- The entry after a report; a report can pause an entry but not resume it. -/
def apply (entry : Entry) (report : Report) : Entry :=
  { entry with
    uploaded := report.uploaded
    runnable := entry.runnable && report.runnable
    message := report.message }

/-- The text of an entry for people who read logs. -/
def describe (entry : Entry) : String :=
  "UploadEntry \x7b file_path: " ++ Text.quoted entry.path ++
    ", size: " ++ toString entry.size ++
    ", uploaded: " ++ toString entry.uploaded ++
    ", runnable: " ++ (if entry.runnable then "true" else "false") ++
    ", err: " ++ Text.quoted entry.message ++
    ", has_file: " ++ (if entry.file.isSome then "true" else "false") ++ " \x7d"

end Entry

end ResumableUpload
