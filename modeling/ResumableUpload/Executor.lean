import ResumableUpload.Engine
import ResumableUpload.Queue

/-!
# The executor

An executor looks at snapshots of the queue and lets one engine at a time hold the *slot*.  In the
background it keeps waiting snapshots in a bounded queue, and events for whoever listens; inline it
handles a snapshot when it is sent, and the engine runs on the sender's time.

The operations here are the atomic moves of an executor: taking in a snapshot, handling one,
noticing that an engine ended, freeing the slot, shutting down.  In which order they happen is left
to whoever runs them.  An engine that was told to stop keeps the slot until it has ended, so two
engines never transfer at once; and no engine starts from a snapshot taken before every report of
earlier engines was applied.
-/

namespace ResumableUpload

/-- Where engines run. -/
inductive Hosting where
  | background
  | inline
deriving DecidableEq, Repr

/-- Whether an engine still runs, and if not, how it came to rest. -/
inductive Fate where
  | running
  | returned
  | panicked
deriving DecidableEq, Repr

/-- An engine that was started. -/
structure Run where
  engine : Engine
  fate : Fate := .running
  /-- Whether its end was noticed, which frees the slot of a background executor. -/
  noticed : Bool := false

/-- What a background executor tells its listener. -/
inductive ExecutorEvent where
  | progress (report : Report)
  | failure (message : String)
deriving DecidableEq, Repr

/-- An executor with every engine that it started, in order. -/
structure Executor where
  hosting : Hosting
  tuning : Tuning
  runs : List Run := []
  /-- The number of the run that holds the slot. -/
  holder : Option Nat := none
  /-- Path and file of an engine that panicked, which is not started again by itself. -/
  failed : Option (String × Nat) := none
  /-- How many reports all engines have made. -/
  emitted : Nat := 0
  /-- Snapshots that wait to be handled. -/
  requests : List Snapshot := []
  /-- Events that wait to be delivered. -/
  events : List ExecutorEvent := []
  /-- Whether the executor was told to shut down. -/
  shutDown : Bool := false
  /-- Whether it handles no more snapshots. -/
  closed : Bool := false

/-- The first entry that may be given the slot, with its file. -/
def Snapshot.next? (snapshot : Snapshot) : Option (Entry × FileHandle) :=
  snapshot.entries.findSome? fun entry =>
    if entry.isEligible then entry.file.map fun file => (entry, file) else none

/-- Whether a path is still to be transferred. -/
def Snapshot.wants (snapshot : Snapshot) (path : String) : Bool :=
  snapshot.entries.any fun entry => entry.path == path && entry.runnable

namespace Executor

/-- How many snapshots may wait. -/
def requestDepth : Nat := 4

/-- The run that holds the slot. -/
def holder? (executor : Executor) : Option Run :=
  executor.holder.bind fun index => executor.runs[index]?

/-- Changes one run. -/
def modifyRun (executor : Executor) (index : Nat) (change : Run → Run) : Executor :=
  { executor with runs := executor.runs.modify index change }

/-- Changes the engine of one run. -/
def modifyEngine (executor : Executor) (index : Nat) (change : Engine → Engine) : Executor :=
  executor.modifyRun index fun run => { run with engine := change run.engine }

/-- The engine of one run. -/
def engine? (executor : Executor) (index : Nat) : Option Engine :=
  (executor.runs[index]?).map (·.engine)

/-- Tells the engine that holds the slot to stop. -/
def stopHolder (executor : Executor) : Executor :=
  match executor.holder with
  | some index => executor.modifyEngine index Engine.requestStop
  | none => executor

/-- Frees the slot of an engine whose end was noticed, and remembers the file if it panicked. -/
def reap (executor : Executor) : Executor :=
  match executor.holder? with
  | some run =>
    if run.noticed then
      { executor with
        holder := none
        failed :=
          if run.fate = .panicked then some (run.engine.path, run.engine.file.identity)
          else executor.failed }
    else executor
  | none => executor

/-- Whether the engine that holds the slot may keep it. -/
def keeps (snapshot : Snapshot) (path : String) : Bool :=
  match snapshot.next? with
  | some (entry, _) => entry.path == path
  | none => snapshot.wants path

/-- Gives the slot to a new engine for an entry. -/
def launch (executor : Executor) (entry : Entry) (file : FileHandle) : Executor :=
  let engine := (Engine.new executor.tuning entry.path file entry.uploaded).start
  { executor with
    runs := executor.runs ++ [⟨engine, .running, false⟩]
    holder := some executor.runs.length }

/--
Fills a free slot from a snapshot.  A file that panicked is passed over until another entry or
another file comes first, and a snapshot that is older than the last report starts nothing.
-/
def fill (executor : Executor) (snapshot : Snapshot) : Executor × Option Nat :=
  match snapshot.next? with
  | none => (executor, none)
  | some (entry, file) =>
    if executor.failed = some (entry.path, file.identity) then (executor, none)
    else
      let executor := { executor with failed := none }
      if snapshot.reportsSeen < executor.emitted then (executor, none)
      else (executor.launch entry file, some executor.runs.length)

/--
Handles one snapshot.  Returns the number of the run that it started, if it started one.  While an
engine holds the slot nothing starts; it is told to stop unless the snapshot still puts it first.
-/
def sync (executor : Executor) (snapshot : Snapshot) : Executor × Option Nat :=
  let executor := executor.reap
  match executor.holder? with
  | some run =>
    if run.engine.stopRequested || keeps snapshot run.engine.path then (executor, none)
    else (executor.stopHolder, none)
  | none => executor.fill snapshot

/-- Lets a snapshot wait, if there is room and the executor still handles snapshots. -/
def enqueue (executor : Executor) (snapshot : Snapshot) : Executor :=
  if executor.closed || requestDepth ≤ executor.requests.length then executor
  else { executor with requests := executor.requests ++ [snapshot] }

/-- Handles the oldest waiting snapshot. -/
def handleNext (executor : Executor) : Executor × Option Nat :=
  match executor.requests with
  | [] => (executor, none)
  | snapshot :: rest => { executor with requests := rest }.sync snapshot

/-- Counts a report; in the background it waits for delivery. -/
def emit (executor : Executor) (report : Report) : Executor :=
  let counted := { executor with emitted := executor.emitted + 1 }
  match executor.hosting with
  | .background => { counted with events := counted.events ++ [.progress report] }
  | .inline => counted

/-- An engine came to rest. -/
def settle (executor : Executor) (index : Nat) (fate : Fate) : Executor :=
  executor.modifyRun index fun run => { run with fate := fate }

/-- Notices that a background engine came to rest; a panic becomes an event. -/
def notice (executor : Executor) (index : Nat) : Executor :=
  match executor.runs[index]? with
  | none => executor
  | some run =>
    let executor := executor.modifyRun index fun run => { run with noticed := true }
    if run.fate = .panicked then
      let message := (UploadError.executor "task panicked").message
      { executor with events := executor.events ++ [.failure message] }
    else executor

/-- Frees the slot after an inline engine returned. -/
def release (executor : Executor) (path : String) : Executor :=
  match executor.holder? with
  | some run => if run.engine.path == path then { executor with holder := none } else executor
  | none => executor

/-- Takes the oldest waiting event. -/
def takeEvent (executor : Executor) : Option (ExecutorEvent × Executor) :=
  match executor.events with
  | [] => none
  | event :: rest => some (event, { executor with events := rest })

/-- Tells a background executor to shut down; an inline one ignores it. -/
def requestShutdown (executor : Executor) : Executor :=
  match executor.hosting with
  | .background => { executor with shutDown := true }
  | .inline => executor

/-- Stops handling snapshots: what waits is dropped and the engine in the slot is told to stop. -/
def close (executor : Executor) : Executor :=
  { executor.stopHolder with holder := none, requests := [], closed := true }

end Executor

end ResumableUpload
