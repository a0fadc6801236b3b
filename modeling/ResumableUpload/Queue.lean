import ResumableUpload.Queue.Entry
import ResumableUpload.RemotePath
import ResumableUpload.UploadError

/-!
# The upload queue

The queue owns every entry, in the order in which they were added, and counts the reports it has
applied.  Entries are found by their remote path.  A `Snapshot` is what an executor sees of it.
-/

namespace ResumableUpload

/-- The entries in insertion order and the number of reports applied so far. -/
structure Queue where
  entries : List Entry := []
  reportsSeen : Nat := 0

/-- The queue as it was at one moment. -/
structure Snapshot where
  entries : List Entry := []
  reportsSeen : Nat := 0

/-- Why a file was not added. -/
inductive Queue.Refusal where
  | badPath (fault : RemotePath.Fault)
  | emptyFile (path : String)
  | sizeDiffers (path : String) (queued given : Nat)
  | full (entries : Nat)
deriving DecidableEq, Repr

/-- The wording of a refusal. -/
def Queue.Refusal.message : Queue.Refusal → String
  | .badPath fault => "invalid path: " ++ fault.message
  | .emptyFile path => "empty file cannot be uploaded: " ++ path
  | .sizeDiffers path queued given =>
    path ++ " is queued with " ++ toString queued ++ " bytes, got " ++ toString given ++
      "; delete it first"
  | .full entries => "upload queue is full (" ++ toString entries ++ " entries)"

namespace Queue

/-- The entry queued under a path. -/
def find? (queue : Queue) (path : String) : Option Entry :=
  queue.entries.find? (·.path == path)

/-- Changes the first entry queued under a path. -/
def modify (path : String) (change : Entry → Entry) : List Entry → List Entry
  | [] => []
  | entry :: rest =>
    if entry.path == path then change entry :: rest else entry :: modify path change rest

/-- The queue without the first entry of a path. -/
def erase (queue : Queue) (path : String) : Queue :=
  { queue with entries := queue.entries.eraseP (·.path == path) }

/-- Queues a file for a remote path, or resumes the entry that is queued under it. -/
def add (limit : Nat) (queue : Queue) (file : FileHandle) (path : String) :
    Except Refusal Queue :=
  match RemotePath.fault? path with
  | some fault => .error (.badPath fault)
  | none =>
    if file.size = 0 then .error (.emptyFile path)
    else
      match queue.find? path with
      | some entry =>
        if entry.size = file.size then
          .ok { queue with entries := modify path (·.resume file) queue.entries }
        else .error (.sizeDiffers path entry.size file.size)
      | none =>
        if limit ≤ queue.entries.length then .error (.full queue.entries.length)
        else .ok { queue with entries := queue.entries ++ [Entry.ofFile file path] }

/-- Pauses an entry; `none` if the path is not queued. -/
def stop? (queue : Queue) (path : String) : Option Queue :=
  match queue.find? path with
  | some _ => some { queue with entries := modify path Entry.pause queue.entries }
  | none => none

/-- Removes an entry; `none` if the path is not queued. -/
def delete? (queue : Queue) (path : String) : Option Queue :=
  match queue.find? path with
  | some _ => some (queue.erase path)
  | none => none

/-- Whether a listed upload is one that `restore` takes up, were there room. -/
def isRestorable (queue : Queue) (info : PartialInfo) : Bool :=
  (queue.find? info.path).isNone && info.size != 0 && !info.isComplete &&
    (RemotePath.fault? info.path).isNone

/--
Appends paused entries for listed uploads, in listing order, until the queue is full.  Returns the
queue with the number of entries appended.
-/
def restore (limit : Nat) (queue : Queue) : List PartialInfo → Queue × Nat
  | [] => (queue, 0)
  | info :: rest =>
    if queue.isRestorable info then
      if limit ≤ queue.entries.length then (queue, 0)
      else
        let extended := { queue with entries := queue.entries ++ [Entry.ofInfo info] }
        let (final, count) := restore limit extended rest
        (final, count + 1)
    else restore limit queue rest

/-- What an executor is told. -/
def snapshot (queue : Queue) : Snapshot :=
  ⟨queue.entries, queue.reportsSeen⟩

/--
Applies a report: an entry whose bytes are all confirmed leaves the queue, another one takes over
the report.  Every report counts as seen; a report for a path that is not queued changes nothing
else.
-/
def reconcile (queue : Queue) (report : Report) : Queue :=
  let counted := { queue with reportsSeen := queue.reportsSeen + 1 }
  match queue.find? report.path with
  | none => counted
  | some entry =>
    if entry.size ≤ report.uploaded then counted.erase report.path
    else { counted with entries := modify report.path (·.apply report) counted.entries }

end Queue

end ResumableUpload
