import ResumableUpload.Timeline.Step

/-!
# Timelines

A timeline runs a session deterministically on a virtual clock.  Its threads are stacks of frames; a
thread runs until it has to wait for the clock or for another thread, and threads that become ready
run in the order in which they did.  The clock moves only when no thread is ready.

This module holds the state of a timeline and what observers and listeners do to it.
-/

namespace ResumableUpload

/-- What a timeline runs. -/
inductive Timeline.Subject where
  /-- An endpoint alone. -/
  | endpoint
  /-- One engine on its own. -/
  | engine
  /-- An executor; `heard` tells whether someone listens to its events. -/
  | executor (heard : Bool)
  /-- A whole session; `heard` tells whether someone listens to changes of the queue. -/
  | session (heard : Bool)
  /-- A session whose snapshots are only noted. -/
  | manual (heard : Bool)
deriving DecidableEq, Repr

/-- One level of what a thread is doing; the first frame of a thread is the innermost. -/
inductive Timeline.Frame where
  /-- Drives an engine; `announced` once the observers of its next call have run. -/
  | drive (run : Nat) (announced : Bool)
  /-- Waits for the clock. -/
  | await (due : Nat)
  /-- Waits until a chunk call of an engine is answered. -/
  | answer (run : Nat) (call : ChunkCall) (due : Nat)
  /-- Waits until a chunk call made by a step is answered. -/
  | answerStep (call : ChunkCall) (due : Nat)
  /-- Runs the steps of an observer, or of no one, and gathers their results. -/
  | steps (observer : Option (Timeline.Occasion × Nat)) (rest : List Timeline.Step)
    (results : List Timeline.StepResult)
  /-- Sends the queue to the executor so many times. -/
  | ticks (times : Nat)
  /-- Sends given snapshots to the executor. -/
  | sends (snapshots : List Snapshot)
  /-- Handles snapshots as they come in. -/
  | work
  /-- Delivers events as they come in. -/
  | dispatch
  /-- Waits for the end of an engine. -/
  | supervise (run : Nat)
  /-- Sends the queue to the executor at every interval, the next time when `due`. -/
  | metronome (due : Option Nat)

/-- A thread: its frames, and when the clock is to wake it. -/
structure Timeline.Thread where
  frames : List Timeline.Frame
  wake : Option Nat := none

/-- What happened since the last record. -/
structure Timeline.Log where
  callsShown : Nat := 0
  reports : List Report := []
  callbacks : List (List Entry) := []
  events : List ExecutorEvent := []
  sent : List Snapshot := []
  observations : List Timeline.Observation := []

/-- A session on a virtual clock. -/
structure Timeline where
  subject : Timeline.Subject
  session : Session
  clock : Nat := 0
  /-- How long a chunk call takes. -/
  chunkDelay : Nat := 0
  observers : List Timeline.Observer := []
  /-- How often each occasion has come. -/
  seen : List Timeline.Occasion := []
  threads : List Timeline.Thread := []
  /-- The threads that are ready to run, first to last. -/
  ready : List Nat := []
  /-- The thread of the running metronome. -/
  ticker : Option Nat := none
  log : Timeline.Log := {}
  /-- What the last step brought. -/
  result : Timeline.StepResult := .ok

namespace Timeline

/-- The thread that runs the steps of the timeline itself. -/
def mainThread : Nat := 0

/-- Changes one thread. -/
def modifyThread (timeline : Timeline) (thread : Nat) (change : Thread → Thread) : Timeline :=
  { timeline with threads := timeline.threads.modify thread change }

/-- Puts other frames in the place of a thread's. -/
def setFrames (timeline : Timeline) (thread : Nat) (frames : List Frame) : Timeline :=
  timeline.modifyThread thread fun _ => ⟨frames, none⟩

/-- The frames of a thread. -/
def frames (timeline : Timeline) (thread : Nat) : List Frame :=
  match timeline.threads[thread]? with
  | some thread => thread.frames
  | none => []

/-- Makes a thread ready, unless it is. -/
def awaken (timeline : Timeline) (thread : Nat) : Timeline :=
  if timeline.ready.contains thread then timeline
  else { timeline with ready := timeline.ready ++ [thread] }

/-- Makes the threads ready whose innermost frame is chosen. -/
def awakenWhere (timeline : Timeline) (chosen : Frame → Bool) : Timeline :=
  let waiting := timeline.threads.zipIdx.filterMap fun (thread, index) =>
    match thread.frames with
    | frame :: _ => if chosen frame then some index else none
    | [] => none
  waiting.foldl awaken timeline

/-- Makes the thread ready that handles snapshots. -/
def awakenWorker (timeline : Timeline) : Timeline :=
  timeline.awakenWhere fun
    | .work => true
    | _ => false

/-- Makes the thread ready that delivers events. -/
def awakenDispatcher (timeline : Timeline) : Timeline :=
  timeline.awakenWhere fun
    | .dispatch => true
    | _ => false

/-- Makes the thread ready that waits for the end of an engine. -/
def awakenSupervisor (timeline : Timeline) (run : Nat) : Timeline :=
  timeline.awakenWhere fun
    | .supervise other => other == run
    | _ => false

/-- Starts a thread, which is ready at once. -/
def spawn (timeline : Timeline) (frames : List Frame) : Timeline :=
  { timeline with
    threads := timeline.threads ++ [⟨frames, none⟩]
    ready := timeline.ready ++ [timeline.threads.length] }

/-- A timeline in which nothing has happened; in the background two threads wait for work. -/
def new (subject : Subject) (session : Session) (chunkDelay : Nat) (observers : List Observer) :
    Timeline :=
  let hosted : List Thread :=
    match subject, session.executor.hosting with
    | .executor _, .background | .session _, .background => [⟨[.dispatch], none⟩, ⟨[.work], none⟩]
    | _, _ => []
  { subject := subject
    session := session
    chunkDelay := chunkDelay
    observers := observers
    threads := ⟨[], none⟩ :: hosted }

/-- Changes the session. -/
def modifySession (timeline : Timeline) (change : Session → Session) : Timeline :=
  { timeline with session := change timeline.session }

/-- Changes the executor. -/
def modifyExecutor (timeline : Timeline) (change : Executor → Executor) : Timeline :=
  timeline.modifySession fun session => { session with executor := change session.executor }

/-- Changes one engine. -/
def modifyEngine (timeline : Timeline) (run : Nat) (change : Engine → Engine) : Timeline :=
  timeline.modifyExecutor fun executor => executor.modifyEngine run change

/-- Changes the log. -/
def modifyLog (timeline : Timeline) (change : Log → Log) : Timeline :=
  { timeline with log := change timeline.log }

/--
An occasion comes.  The observer that waits for it at this turn, if there is one, gets a frame on
top of `frames`.
-/
def occur (timeline : Timeline) (occasion : Occasion) (frames : List Frame) :
    Timeline × List Frame :=
  let seen := occasion :: timeline.seen
  let turn := seen.count occasion
  let timeline := { timeline with seen := seen }
  match timeline.observers.find? fun observer =>
      observer.occasion = occasion && observer.turn = turn with
  | some observer => (timeline, .steps (some (occasion, turn)) observer.steps [] :: frames)
  | none => (timeline, frames)

/-- Applies a report to the queue and tells the listener of the session. -/
def reconcile (timeline : Timeline) (report : Report) (frames : List Frame) :
    Timeline × List Frame :=
  let (session, known) := timeline.session.reconcile report
  let timeline := { timeline with session := session }
  let heard :=
    match timeline.subject with
    | .session heard | .manual heard => heard
    | _ => false
  if known && heard then
    let timeline := timeline.modifyLog fun log =>
      { log with callbacks := log.callbacks ++ [session.queue.entries] }
    timeline.occur .callback frames
  else (timeline, frames)

/-- Hands an event of the executor to whoever listens. -/
def deliver (timeline : Timeline) (event : ExecutorEvent) (frames : List Frame) :
    Timeline × List Frame :=
  match timeline.subject with
  | .executor true =>
    let timeline := timeline.modifyLog fun log => { log with events := log.events ++ [event] }
    timeline.occur .event frames
  | .session _ | .manual _ =>
    match event with
    | .progress report => timeline.reconcile report frames
    | .failure _ => (timeline, frames)
  | _ => (timeline, frames)

/-- An engine makes a report: in the background it waits for delivery, else it is heard at once. -/
def emit (timeline : Timeline) (report : Report) (frames : List Frame) : Timeline × List Frame :=
  match timeline.subject with
  | .engine =>
    let timeline := timeline.modifyLog fun log => { log with reports := log.reports ++ [report] }
    timeline.occur .report frames
  | _ =>
    let timeline := timeline.modifyExecutor (·.emit report)
    match timeline.session.executor.hosting with
    | .background => (timeline.awakenDispatcher, frames)
    | .inline => timeline.deliver (.progress report) frames

end Timeline

end ResumableUpload
