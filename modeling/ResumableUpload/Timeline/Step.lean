import ResumableUpload.Session

/-!
# Steps and records of a timeline

A timeline is driven by steps: operations of the session, direct calls of the endpoint, and the
passing of time.  Observers run steps of their own when something happens for the n-th time.  What
each step brought is a `Record`.
-/

namespace ResumableUpload.Timeline

/-- What an observer can wait for. -/
inductive Occasion where
  | create
  | chunk
  | status
  | report
  | callback
  | event
deriving DecidableEq, Repr

/-- The operations whose answers can be canned. -/
inductive Scripted where
  | create (answer : CannedAnswer)
  | chunk (answer : CannedAnswer)
  | status (answer : CannedAnswer)
  | delete (answer : Answer Unit)
  | list (answer : Answer ListReply)

/-- One thing to do. -/
inductive Step where
  | add (path : String) (file : Except ReadError FileHandle)
  | stop (path : String)
  | discard (path : String)
  | delete (path : String)
  | restore
  | restoreFrom (infos : List PartialInfo)
  | tick (times : Nat)
  | spawnTick
  | reconcile (report : Report)
  | event (event : ExecutorEvent)
  | start
  | destroy
  | shutdown
  | send (snapshots : Except ReadError (List Snapshot))
  | spawnSend (snapshot : Except ReadError Snapshot)
  | cancel
  | advance (duration : Nat)
  | script (answer : Scripted)
  | seed (path : String) (size : Nat) (data : Bytes)
  | panic
  | completed (path : String)
  | pending (path : String)
  | chunkOffsets
  | callCreate (path : String) (size : Nat)
  | callChunk (path content : String) (offset : Nat)
  | callStatus (path : String)
  | callDelete (path : String)
  | callList

/-- What a step brought. -/
inductive StepResult where
  | ok
  | refused (error : UploadError)
  | unreadable (error : ReadError)
  | count (number : Nat)
  | bytes (content : Option Bytes)
  | length (number : Option Nat)
  | offsets (chunks : List (String × Nat))
  | created (answer : Answer CreateReply)
  | status (answer : Answer StatusReply)
  | deleted (answer : Answer Unit)
  | listed (answer : Answer ListReply)
  | panicked

/-- Steps to run when an occasion comes for the n-th time. -/
structure Observer where
  occasion : Occasion
  turn : Nat
  steps : List Step

/-- An observer that has run its steps. -/
structure Observation where
  occasion : Occasion
  turn : Nat
  results : List StepResult

/-- What came out of a step, besides its result only what is new since the record before. -/
structure Record where
  result : StepResult
  calls : List EndpointCall
  reports : List Report
  callbacks : List (List Entry)
  events : List ExecutorEvent
  sent : List Snapshot
  observations : List Observation
  queue : List Entry

end ResumableUpload.Timeline
