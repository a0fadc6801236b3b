import ResumableUpload.Endpoint
import ResumableUpload.Executor

/-!
# A session

A session is a client at work: its queue and executor, and the endpoint that it talks to.  Adding,
pausing, discarding and restoring uploads are operations on it; discarding also tells the endpoint,
and restoring asks the endpoint what it still holds.
-/

namespace ResumableUpload

/-- A queue and an executor against an endpoint. -/
structure Session where
  config : Config
  queue : Queue := {}
  executor : Executor
  endpoint : Endpoint := {}
  /-- Answers to delete calls that are given before the endpoint is reached. -/
  deleteScript : List (Answer Unit) := []
  /-- Answers to list calls that are given before the endpoint is reached. -/
  listScript : List (Answer ListReply) := []
  /-- The answer to every call, if none gets through to the endpoint. -/
  cutOff : Option CannedAnswer := none

namespace Session

/-- A session of a configuration, with nothing queued. -/
def new (config : Config) (hosting : Hosting) (endpoint : Endpoint) : Session where
  config := config
  executor := { hosting := hosting, tuning := config.tuning }
  endpoint := endpoint

/-- Queues a file for a remote path, or resumes the upload that is queued under it. -/
def add (session : Session) (file : FileHandle) (path : String) :
    Session × Except UploadError Unit :=
  match session.queue.add session.config.maxQueued file path with
  | .ok queue => ({ session with queue := queue }, .ok ())
  | .error refusal => (session, .error (.invalid refusal.message))

/-- Pauses an upload; the executor learns of it with the next snapshot. -/
def stop (session : Session) (path : String) : Session × Except UploadError Unit :=
  match session.queue.stop? path with
  | some queue => ({ session with queue := queue }, .ok ())
  | none => (session, .error (.notFound path))

/-- Takes an upload out of the queue and leaves the endpoint alone. -/
def discard (session : Session) (path : String) : Session × Except UploadError Unit :=
  match session.queue.delete? path with
  | some queue => ({ session with queue := queue }, .ok ())
  | none => (session, .error (.notFound path))

/-- Makes a call of the endpoint; `reply` is the payload of an accepting answer that is canned. -/
def call {α : Type} (session : Session) (reply : Nat → α)
    (operation : Endpoint → Endpoint × Answer α) : Session × Answer α :=
  match session.cutOff with
  | some canned => (session, canned.answer reply)
  | none =>
    let (endpoint, answer) := operation session.endpoint
    ({ session with endpoint := endpoint }, answer)

/-- Calls the endpoint to open an upload. -/
def callCreate (session : Session) (path : String) (size : Nat) : Session × Answer CreateReply :=
  session.call (fun _ => ⟨path, size⟩) fun endpoint => endpoint.create path size

/-- Sends a chunk, which is on its way until it is answered. -/
def sendChunk (session : Session) (path content : String) (offset : Nat) : Session × ChunkCall :=
  match session.cutOff with
  | some canned => (session, ⟨path, content, offset, some canned⟩)
  | none =>
    let (endpoint, call) := session.endpoint.receiveChunk path content offset
    ({ session with endpoint := endpoint }, call)

/-- Receives the answer to a chunk that was sent. -/
def answerChunk (session : Session) (call : ChunkCall) : Session × Answer StatusReply :=
  let (endpoint, answer) := session.endpoint.answerChunk call
  ({ session with endpoint := endpoint }, answer)

/-- Calls the endpoint to ask how far an upload is. -/
def callStatus (session : Session) (path : String) : Session × Answer StatusReply :=
  session.call (fun offset => ⟨path, offset, 0⟩) fun endpoint => endpoint.status path

/-- Calls the endpoint to delete a partial upload. -/
def callDelete (session : Session) (path : String) : Session × Answer Unit :=
  match session.deleteScript with
  | answer :: rest => ({ session with deleteScript := rest }, answer)
  | [] => session.call (fun _ => ()) fun endpoint => endpoint.delete path

/-- Calls the endpoint to list its partial uploads. -/
def callList (session : Session) : Session × Answer ListReply :=
  match session.listScript with
  | answer :: rest => ({ session with listScript := rest }, answer)
  | [] => session.call (fun _ => {}) Endpoint.list

/-- Takes an upload out of the queue and has the endpoint discard what it holds of it. -/
def delete (session : Session) (path : String) : Session × Except UploadError Unit :=
  match session.discard path with
  | (session, .error error) => (session, .error error)
  | (session, .ok ()) =>
    match session.callDelete path with
    | (session, .error error) => (session, .error (.transport error))
    | (session, .ok response) =>
      if response.status = Status.ok then (session, .ok ())
      else (session, .error (.rejected response.status ("delete " ++ path)))

/-- Queues paused entries for listed uploads and tells how many. -/
def restoreFrom (session : Session) (infos : List PartialInfo) : Session × Nat :=
  let (queue, count) := session.queue.restore session.config.maxQueued infos
  ({ session with queue := queue }, count)

/-- Queues paused entries for what the endpoint holds and tells how many. -/
def restore (session : Session) : Session × Except UploadError Nat :=
  match session.callList with
  | (session, .error error) => (session, .error (.transport error))
  | (session, .ok response) =>
    if response.status = Status.ok then
      let (session, count) := session.restoreFrom (response.body.getD {}).infos
      (session, .ok count)
    else (session, .error (.rejected response.status "list uploadings"))

/-- Applies a report; tells whether the path was queued. -/
def reconcile (session : Session) (report : Report) : Session × Bool :=
  ({ session with queue := session.queue.reconcile report },
    (session.queue.find? report.path).isSome)

end Session

end ResumableUpload
