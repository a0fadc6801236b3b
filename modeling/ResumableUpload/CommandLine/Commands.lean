import ResumableUpload.CommandLine.Destination
import ResumableUpload.Disk
import ResumableUpload.Session.Drain

/-!
# Commands

What the commands do with a session.  Each brings the text that it prints, or fails.

An upload first takes up what the endpoint holds, so that files go on where they were left, then
queues every file and transfers the queue.  It fails if one of its files ends with a message.
-/

namespace ResumableUpload.CommandLine

/-- The directory that local paths begin in, and the files there. -/
structure Place where
  disk : Disk := {}
  workingDirectory : List String := []

/-- Opens a local file; `identity` tells it from other handles. -/
def Place.openFile (place : Place) (identity : Nat) (path : String) : Except Failure FileHandle :=
  match LocalFile.openPath place.disk place.workingDirectory path with
  | .ok file => .ok ⟨identity, file.source place.disk place.workingDirectory⟩
  | .error error => .error ((Failure.ofRead error).during ("opening " ++ path))

/-- Refuses a configuration that transfers cannot run with. -/
def checkConfig (config : Config) : Except Failure Unit :=
  match config.check with
  | .ok () => .ok ()
  | .error fault => .error (.ofUpload (.invalid fault.message))

/-- Queues local files for a remote directory in turn; returns their remote paths. -/
def queueFiles (place : Place) (directory : String) (session : Session) :
    (files : List String) → Session × Except Failure (List String)
  | [] => (session, .ok [])
  | file :: rest =>
    match remotePathOf directory file with
    | .error failure => (session, .error failure)
    | .ok path =>
      match place.openFile rest.length file with
      | .error failure => (session, .error failure)
      | .ok handle =>
        match session.add handle path with
        | (session, .error error) =>
          (session, .error ((Failure.ofUpload error).during ("queueing " ++ file)))
        | (session, .ok ()) =>
          match queueFiles place directory session rest with
          | (session, .ok paths) => (session, .ok (path :: paths))
          | (session, .error failure) => (session, .error failure)

/--
Makes a session ready for an upload: takes up what the endpoint holds, which may fail, and queues the
files.  Gives their remote paths.
-/
def prepare (place : Place) (session : Session) (files : List String) (directory : String) :
    Session × Except Failure (List String) :=
  match checkConfig session.config with
  | .error failure => (session, .error failure)
  | .ok () => queueFiles place directory session.restore.1 files

/-- The entries of given paths that ended with a message. -/
def failedEntries (entries : List Entry) (paths : List String) : List Entry :=
  entries.filter fun entry => paths.contains entry.path && entry.message != ""

/-- What an upload returns once no entry of its queue may run any more. -/
def verdict (entries : List Entry) (paths : List String) : Except Failure String :=
  let failed := (failedEntries entries paths).length
  if failed = 0 then .ok ""
  else .error ⟨toString failed ++ " of " ++ toString paths.length ++ " uploads failed", []⟩

/--
Uploads local files into a remote directory.  Here the uploads are transferred on the command's own
time, one after another, until no entry may run any more.  A command that leaves them to an executor in
the background and waits for it returns the same, in whatever order that goes (`ends_as_upload`).
-/
def upload (place : Place) (session : Session) (files : List String) (directory : String) :
    Session × Except Failure String :=
  match prepare place session files directory with
  | (session, .error failure) => (session, .error failure)
  | (session, .ok paths) =>
    let session := session.drain
    (session, verdict session.queue.entries paths)

/-- The line about a partial upload. -/
def infoLine (info : PartialInfo) : String :=
  info.path ++ "\t" ++ toString info.uploaded ++ "/" ++ toString info.size ++ " bytes\n"

/-- Lists the partial uploads that the endpoint holds. -/
def list (session : Session) : Session × Except Failure String :=
  match session.callList with
  | (session, .error error) => (session, .error (.ofTransport error))
  | (session, .ok response) =>
    if response.status = Status.ok then
      let infos := (response.body.getD {}).infos
      (session, .ok
        (if infos.isEmpty then "no partial uploads\n" else String.join (infos.map infoLine)))
    else (session, .error ⟨"endpoint answered " ++ toString response.status, []⟩)

/-- Has the endpoint discard a partial upload that it lists. -/
def delete (session : Session) (path : String) : Session × Except Failure String :=
  match checkConfig session.config with
  | .error failure => (session, .error failure)
  | .ok () =>
    match session.restore with
    | (session, .error error) => (session, .error (.ofUpload error))
    | (session, .ok _) =>
      match session.delete path with
      | (session, .ok ()) => (session, .ok ("deleted " ++ path ++ "\n"))
      | (session, .error error) =>
        (session, .error ((Failure.ofUpload error).during ("deleting " ++ path)))

end ResumableUpload.CommandLine
