import ResumableUpload.Base64
import ResumableUpload.Config
import ResumableUpload.Payload
import ResumableUpload.Queue.Entry
import ResumableUpload.UploadError

/-!
# The transfer of one file

An `Engine` brings one file to the endpoint: it opens the upload, sends chunk after chunk, and ends
with one final report.  The chunk length grows after every accepted chunk and shrinks after every
retryable failure; the offset only ever comes from the endpoint.

The engine is a state machine.  Its `Phase` says what it does next: call the endpoint, read the
file, report, wait, or look whether it was told to stop.  Each `after…` function is the transition
on what that brought, so that whoever drives the engine decides what happens in between.
-/

namespace ResumableUpload

/-- How a transfer ended. -/
inductive Outcome where
  | finished
  | stopped
  | failed (error : UploadError)
deriving DecidableEq, Repr

/-- The message of the final report; empty if all went well. -/
def Outcome.message : Outcome → String
  | .finished => ""
  | .stopped => UploadError.stopped.message
  | .failed error => error.message

/-- What an engine does next. -/
inductive Engine.Phase where
  /-- Nothing; it was not started. -/
  | idle
  /-- Makes the create call of this attempt. -/
  | creating (attempt : Nat)
  /-- Waits before the attempt after this one. -/
  | pausingCreate (attempt : Nat)
  /-- Looks whether all is sent, and whether it was told to stop. -/
  | checking
  /-- Reads the next chunk. -/
  | reading
  /-- Sends the chunk that it read. -/
  | sending (content : String)
  /-- Reports an accepted chunk. -/
  | accepted
  /-- Reports a chunk that is to be sent again. -/
  | refused (reason : String)
  /-- Waits before it asks how far the endpoint is. -/
  | backingOff
  /-- Asks how far the endpoint is. -/
  | resyncing
  /-- Makes the final report. -/
  | concluding (outcome : Outcome)
  /-- Nothing; it has made its final report. -/
  | ended (outcome : Outcome)
deriving DecidableEq, Repr

/-- The stage of a transfer as an observer names it. -/
inductive Engine.Stage where
  | idle
  | uploading
  | backingOff
  | finished
  | stopped
  | error
deriving DecidableEq, Repr

/-- The transfer of one file. -/
structure Engine where
  tuning : Tuning
  path : String
  file : FileHandle
  offset : Nat
  chunkLength : Nat
  stopRequested : Bool := false
  phase : Engine.Phase := .idle

/-- Where a chunk that starts at `offset` ends. -/
def chunkEnd (offset length size : Nat) : Nat :=
  min (offset + length) size

namespace Engine

/-- An engine that goes on where `uploaded` bytes are confirmed. -/
def new (tuning : Tuning) (path : String) (file : FileHandle) (uploaded : Nat) : Engine where
  tuning := tuning
  path := path
  file := file
  offset := min uploaded file.size
  chunkLength := tuning.pace.start

/-- The size of the file. -/
def size (engine : Engine) : Nat :=
  engine.file.size

/-- The stage that an outcome leads to. -/
def Stage.ofOutcome : Outcome → Stage
  | .finished => .finished
  | .stopped => .stopped
  | .failed _ => .error

/-- Whether nothing follows a stage. -/
def Stage.isTerminal : Stage → Bool
  | .finished | .stopped | .error => true
  | .idle | .uploading | .backingOff => false

/-- The stage of an engine. -/
def stage (engine : Engine) : Stage :=
  match engine.phase with
  | .idle | .creating _ | .pausingCreate _ => .idle
  | .checking | .reading | .sending _ | .accepted => .uploading
  | .refused _ | .backingOff | .resyncing => .backingOff
  | .concluding outcome | .ended outcome => .ofOutcome outcome

/-- The outcome of an engine that has ended. -/
def outcome? (engine : Engine) : Option Outcome :=
  match engine.phase with
  | .ended outcome => some outcome
  | _ => none

/-- Whether the engine has made its final report. -/
def hasEnded (engine : Engine) : Bool :=
  engine.outcome?.isSome

/-- The engine at the beginning of a run. -/
def start (engine : Engine) : Engine :=
  { engine with phase := .creating 1 }

/-- The engine told to stop before its next chunk. -/
def requestStop (engine : Engine) : Engine :=
  { engine with stopRequested := true }

/-- The engine about to fail. -/
def fail (engine : Engine) (error : UploadError) : Engine :=
  { engine with phase := .concluding (.failed error) }

/-- Takes over the offset that the endpoint gave, held to the size of the file. -/
def adopt (engine : Engine) (uploaded : Nat) : Engine :=
  { engine with offset := min uploaded engine.size }

/-- After the answer to a create call: go on, give up, or try again below the limit. -/
def afterCreate (engine : Engine) (attempt : Nat) (answer : Answer CreateReply) : Engine :=
  match engine.tuning.policy.classifyCreate answer with
  | .success _ => { engine with phase := .checking }
  | .fatal status => engine.fail (.rejected status "create rejected")
  | .retryable reason =>
    if attempt < engine.tuning.createLimit then { engine with phase := .pausingCreate attempt }
    else engine.fail (.createFailed engine.tuning.createLimit reason)

/-- After the wait between two create calls. -/
def afterCreatePause (engine : Engine) (attempt : Nat) : Engine :=
  { engine with phase := .creating (attempt + 1) }

/-- Before each chunk: finish if all is sent, else stop if told so. -/
def check (engine : Engine) : Engine :=
  if engine.offset < engine.size then
    if engine.stopRequested then { engine with phase := .concluding .stopped }
    else { engine with phase := .reading }
  else { engine with phase := .concluding .finished }

/-- Where the next chunk ends. -/
def chunkLast (engine : Engine) : Nat :=
  chunkEnd engine.offset engine.chunkLength engine.size

/-- After the bytes of the next chunk were read. -/
def afterRead (engine : Engine) (bytes : Except ReadError Bytes) : Engine :=
  match bytes with
  | .ok bytes => { engine with phase := .sending (Base64.encode bytes) }
  | .error error => engine.fail (.unreadable error)

/-- After a chunk was accepted: adopt the offset, lengthen the chunks, report unless all is sent. -/
def accept (engine : Engine) (uploaded : Nat) : Engine :=
  let adopted := engine.adopt uploaded
  { adopted with
    chunkLength := engine.tuning.pace.grow engine.chunkLength
    phase := if adopted.offset < adopted.size then .accepted else .checking }

/-- After a chunk failed in a way that may pass: shorten the chunks, or stall at the floor. -/
def retreat (engine : Engine) (reason : String) : Engine :=
  if engine.chunkLength ≤ engine.tuning.pace.floor then engine.fail .stalled
  else
    { engine with
      chunkLength := engine.tuning.pace.shrink engine.chunkLength
      phase := .refused reason }

/-- After the answer to a chunk call. -/
def afterChunk (engine : Engine) (answer : Answer StatusReply) : Engine :=
  match engine.tuning.policy.classify answer with
  | .success reply => engine.accept reply.uploaded
  | .fatal status => engine.fail (.rejected status "chunk rejected")
  | .retryable reason => engine.retreat reason

/-- After the wait that follows a failed chunk. -/
def afterBackOff (engine : Engine) : Engine :=
  { engine with phase := .resyncing }

/-- After the answer to a status call; without an offset the engine keeps its own. -/
def afterStatus (engine : Engine) (answer : Answer StatusReply) : Engine :=
  match engine.tuning.policy.classify answer with
  | .success reply => { engine.adopt reply.uploaded with phase := .checking }
  | .fatal status => engine.fail (.rejected status "status query rejected")
  | .retryable _ => { engine with phase := .checking }

/-- The report that the engine makes next. -/
def report? (engine : Engine) : Option Report :=
  match engine.phase with
  | .accepted => some ⟨engine.path, engine.offset, true, ""⟩
  | .refused reason => some ⟨engine.path, engine.offset, true, reason⟩
  | .concluding outcome => some ⟨engine.path, engine.offset, false, outcome.message⟩
  | _ => none

/-- After a report was made. -/
def afterReport (engine : Engine) : Engine :=
  match engine.phase with
  | .accepted => { engine with phase := .checking }
  | .refused _ => { engine with phase := .backingOff }
  | .concluding outcome => { engine with phase := .ended outcome }
  | _ => engine

end Engine

end ResumableUpload
