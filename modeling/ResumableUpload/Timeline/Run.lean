import ResumableUpload.Timeline.Act

/-!
# Running a timeline

`move` does the next bit of one thread's work.  `settle` lets threads run in the order in which they
became ready, and moves the clock to the next moment at which one wakes as long as the timeline's
own steps wait for it.  `play` does a list of steps and records what each one brought.
-/

namespace ResumableUpload.Timeline

/-- How a thread goes on after a bit of work. -/
inductive Progress where
  /-- It goes on with these frames. -/
  | continue (frames : List Frame)
  /-- It waits with these frames, until the clock reaches `wake` if that is given. -/
  | wait (frames : List Frame) (wake : Option Nat)
  /-- It is torn down. -/
  | panic

/-- Hands a result to the steps that wait for it. -/
def giveResult (result : StepResult) : List Frame → List Frame
  | .steps observer rest results :: frames => .steps observer rest (results ++ [result]) :: frames
  | frames => frames

/-- Sends one snapshot to the executor of a timeline. -/
def send (timeline : Timeline) (snapshot : Snapshot) (frames : List Frame) :
    Timeline × List Frame :=
  match timeline.subject, timeline.session.executor.hosting with
  | .manual _, _ =>
    (timeline.modifyLog fun log => { log with sent := log.sent ++ [snapshot] }, frames)
  | _, .background =>
    ((timeline.modifyExecutor (·.enqueue snapshot)).awakenWorker, frames)
  | _, .inline =>
    let (executor, started) := timeline.session.executor.sync snapshot
    let timeline := timeline.modifyExecutor fun _ => executor
    match started with
    | some run => (timeline, .drive run false :: frames)
    | none => (timeline, frames)

/-- An engine has ended: in the background its supervisor is told, inline the slot is free. -/
def conclude (timeline : Timeline) (run : Nat) (engine : Engine) : Timeline :=
  let timeline := timeline.modifyExecutor (·.settle run .returned)
  match timeline.session.executor.hosting with
  | .background => timeline.awakenSupervisor run
  | .inline => timeline.modifyExecutor (·.release engine.path)

/-- Lets an engine wait before its next call; here a wait is as long as it may be. -/
def pause (timeline : Timeline) (frames : List Frame) : List Frame :=
  let longest := timeline.session.config.backoffMax
  if longest = 0 then frames else .await (timeline.clock + longest) :: frames

/-- Announces the next call of an engine to the observers. -/
def announce (timeline : Timeline) (occasion : Occasion) (run : Nat) (frames : List Frame) :
    Timeline × Progress :=
  let (timeline, frames) := timeline.occur occasion (.drive run true :: frames)
  (timeline, .continue frames)

/-- Changes the engine and goes on driving it. -/
def driveOn (timeline : Timeline) (run : Nat) (change : Engine → Engine) (frames : List Frame) :
    Timeline × Progress :=
  (timeline.modifyEngine run change, .continue (.drive run false :: frames))

/-- Takes over the session after a call that an engine made, and gives the engine the answer. -/
def afterCall (timeline : Timeline) (run : Nat) (frames : List Frame) {α : Type}
    (call : Session × Answer α) (change : Answer α → Engine → Engine) : Timeline × Progress :=
  { timeline with session := call.1 }.driveOn run (change call.2) frames

/-- Does the next bit of work of an engine. -/
def drive (timeline : Timeline) (run : Nat) (announced : Bool) (engine : Engine)
    (frames : List Frame) : Timeline × Progress :=
  let session := timeline.session
  match engine.phase with
  | .idle => (timeline, .continue frames)
  | .ended _ => (timeline.conclude run engine, .continue frames)
  | .creating attempt =>
    if announced then
      timeline.afterCall run frames (session.callCreate engine.path engine.size)
        fun answer engine => engine.afterCreate attempt answer
    else timeline.announce .create run frames
  | .pausingCreate attempt =>
    timeline.driveOn run (·.afterCreatePause attempt) frames |> fun (timeline, _) =>
      (timeline, .continue (timeline.pause (.drive run false :: frames)))
  | .checking => timeline.driveOn run Engine.check frames
  | .reading =>
    let bytes := engine.file.source.read engine.offset engine.chunkLast
    timeline.driveOn run (·.afterRead bytes) frames
  | .sending content =>
    if announced then
      let (session, call) := session.sendChunk engine.path content engine.offset
      ({ timeline with session := session },
        .continue (.answer run call (timeline.clock + timeline.chunkDelay) :: frames))
    else timeline.announce .chunk run frames
  | .accepted | .refused _ | .concluding _ =>
    match engine.report? with
    | some report =>
      let timeline := timeline.modifyEngine run Engine.afterReport
      let (timeline, frames) := timeline.emit report (.drive run false :: frames)
      (timeline, .continue frames)
    | none => (timeline, .continue frames)
  | .backingOff =>
    timeline.driveOn run Engine.afterBackOff frames |> fun (timeline, _) =>
      (timeline, .continue (timeline.pause (.drive run false :: frames)))
  | .resyncing =>
    if announced then
      timeline.afterCall run frames (session.callStatus engine.path)
        fun answer engine => engine.afterStatus answer
    else timeline.announce .status run frames

/-- The steps of an observer, or of the timeline, are all done. -/
def finishSteps (timeline : Timeline) (observer : Option (Occasion × Nat))
    (results : List StepResult) : Timeline :=
  match observer with
  | some (occasion, turn) =>
    timeline.modifyLog fun log =>
      { log with observations := log.observations ++ [⟨occasion, turn, results⟩] }
  | none => { timeline with result := results.getLast?.getD .ok }

/-- When a metronome that was due at `due` is due again: a late one starts over. -/
def nextBeat (clock due period : Nat) : Nat :=
  if due + 5 < clock then clock + period else due + period

/-- Does the next bit of work of a thread whose innermost frame is given. -/
def move (timeline : Timeline) (thread : Nat) (frame : Frame) (frames : List Frame) :
    Timeline × Progress :=
  match frame with
  | .drive run announced =>
    match timeline.session.executor.engine? run with
    | some engine => timeline.drive run announced engine frames
    | none => (timeline, .continue frames)
  | .await due =>
    if due ≤ timeline.clock then (timeline, .continue frames)
    else (timeline, .wait (.await due :: frames) (some due))
  | .answer run call due =>
    if due ≤ timeline.clock then
      timeline.afterCall run frames (timeline.session.answerChunk call)
        fun answer engine => engine.afterChunk answer
    else (timeline, .wait (.answer run call due :: frames) (some due))
  | .answerStep call due =>
    if due ≤ timeline.clock then
      let (session, answer) := timeline.session.answerChunk call
      ({ timeline with session := session }, .continue (giveResult (.status answer) frames))
    else (timeline, .wait (.answerStep call due :: frames) (some due))
  | .steps observer rest results =>
    match rest with
    | [] => (timeline.finishSteps observer results, .continue frames)
    | step :: rest =>
      match timeline.act step with
      | (timeline, .done result inner) =>
        (timeline, .continue (inner ++ .steps observer rest (results ++ [result]) :: frames))
      | (timeline, .later inner) =>
        (timeline, .continue (inner ++ .steps observer rest results :: frames))
      | (timeline, .panic) => (timeline, .panic)
  | .ticks times =>
    match times with
    | 0 => (timeline, .continue frames)
    | times + 1 =>
      let (timeline, frames) :=
        timeline.send timeline.session.queue.snapshot (.ticks times :: frames)
      (timeline, .continue frames)
  | .sends snapshots =>
    match snapshots with
    | [] => (timeline, .continue frames)
    | snapshot :: rest =>
      let (timeline, frames) := timeline.send snapshot (.sends rest :: frames)
      (timeline, .continue frames)
  | .work =>
    let executor := timeline.session.executor
    if executor.closed then (timeline, .continue frames)
    else if executor.shutDown then
      (timeline.modifyExecutor (·.close), .continue frames)
    else if executor.requests = [] then (timeline, .wait (.work :: frames) none)
    else
      let (executor, started) := executor.handleNext
      let timeline := timeline.modifyExecutor fun _ => executor
      match started with
      | some run =>
        ((timeline.spawn [.drive run false]).spawn [.supervise run],
          .continue (.work :: frames))
      | none => (timeline, .continue (.work :: frames))
  | .dispatch =>
    match timeline.session.executor.takeEvent with
    | none => (timeline, .wait (.dispatch :: frames) none)
    | some (event, executor) =>
      let (timeline, frames) :=
        (timeline.modifyExecutor fun _ => executor).deliver event (.dispatch :: frames)
      (timeline, .continue frames)
  | .supervise run =>
    match timeline.session.executor.runs[run]? with
    | none => (timeline, .continue frames)
    | some state =>
      if state.fate = .running then (timeline, .wait (.supervise run :: frames) none)
      else
        ((timeline.modifyExecutor (·.notice run)).awakenDispatcher, .continue frames)
  | .metronome due =>
    let period := timeline.session.config.tickInterval
    if timeline.ticker != some thread then (timeline, .continue frames)
    else
      match due with
      | none =>
        let due := timeline.clock + period
        (timeline, .wait (.metronome (some due) :: frames) (some due))
      | some due =>
        if due ≤ timeline.clock then
          let next := nextBeat timeline.clock due period
          (timeline, .continue (.ticks 1 :: .metronome (some next) :: frames))
        else (timeline, .wait (.metronome (some due) :: frames) (some due))

/-- The engine that a frame drives. -/
def Frame.driven? : Frame → Option Nat
  | .drive run _ | .answer run _ _ => some run
  | _ => none

/-- The engines that a thread drives. -/
def drivenRuns (frames : List Frame) : List Nat :=
  frames.filterMap Frame.driven?

/-- Tears a thread down: the engines that it drives have panicked. -/
def tearDown (timeline : Timeline) (thread : Nat) : Timeline :=
  let runs := drivenRuns (timeline.frames thread)
  let timeline := timeline.setFrames thread []
  let timeline := runs.foldl
    (fun timeline run =>
      (timeline.modifyExecutor (·.settle run .panicked)).awakenSupervisor run) timeline
  if thread = mainThread then { timeline with result := .panicked } else timeline

/-- The next moment at which a thread wakes, with the thread. -/
def nextWake? (timeline : Timeline) : Option (Nat × Nat) :=
  timeline.threads.zipIdx.foldl
    (fun earliest (thread, index) =>
      match thread.wake, earliest with
      | some wake, some (soonest, chosen) =>
        if wake < soonest then some (wake, index) else some (soonest, chosen)
      | some wake, none => some (wake, index)
      | none, earliest => earliest)
    none

/-- Whether the timeline's own steps are still under way. -/
def isBusy (timeline : Timeline) : Bool :=
  !(timeline.frames mainThread).isEmpty

/--
Lets the running thread, or else the next one, do a bit of work; `none` when all have come to rest.
-/
def advance (timeline : Timeline) (running : Option Nat) : Option (Timeline × Option Nat) :=
  match running with
  | some thread =>
    match timeline.frames thread with
    | [] => some (timeline, none)
    | frame :: frames =>
      match timeline.move thread frame frames with
      | (timeline, .continue frames) => some (timeline.setFrames thread frames, some thread)
      | (timeline, .wait frames wake) =>
        some (timeline.modifyThread thread fun _ => ⟨frames, wake⟩, none)
      | (timeline, .panic) => some (timeline.tearDown thread, none)
  | none =>
    match timeline.ready with
    | thread :: rest => some ({ timeline with ready := rest }, some thread)
    | [] =>
      match timeline.nextWake? with
      | none => none
      | some (wake, thread) =>
        if timeline.isBusy || wake ≤ timeline.clock then
          some ({ timeline with clock := max wake timeline.clock }, some thread)
        else none

/-- Runs for at most `fuel` bits of work, until all threads have come to rest. -/
def runFor (timeline : Timeline) (running : Option Nat) : (fuel : Nat) → Timeline
  | 0 => timeline
  | fuel + 1 =>
    match timeline.advance running with
    | some (timeline, running) => timeline.runFor running fuel
    | none => timeline

/-- After so many bits of work a run counts as one that never comes to rest. -/
def patience : Nat := Nat.pow 10 9

/-- Runs until all threads have come to rest. -/
def settle (timeline : Timeline) : Timeline :=
  timeline.runFor none patience

/-- Has the timeline's own thread work off some frames. -/
def perform (timeline : Timeline) (frames : List Frame) : Timeline :=
  ((timeline.setFrames mainThread frames).awaken mainThread).settle

/-- What is new since the last record, and the timeline with nothing new. -/
def takeRecord (timeline : Timeline) : Record × Timeline :=
  let log := timeline.log
  let calls := timeline.session.endpoint.calls
  ({ result := timeline.result
     calls := calls.drop log.callsShown
     reports := log.reports
     callbacks := log.callbacks
     events := log.events
     sent := log.sent
     observations := log.observations
     queue := timeline.session.queue.entries },
    { timeline with log := { callsShown := calls.length } })

/-- Does one step, lets everything come to rest, and records what was new. -/
def doStep (timeline : Timeline) (step : Step) : Record × Timeline :=
  (timeline.perform [.steps none [step] []]).takeRecord

/-- Does the steps in turn. -/
def play (timeline : Timeline) : List Step → List Record × Timeline
  | [] => ([], timeline)
  | step :: rest =>
    let (record, timeline) := timeline.doStep step
    let (records, timeline) := timeline.play rest
    (record :: records, timeline)

end ResumableUpload.Timeline
