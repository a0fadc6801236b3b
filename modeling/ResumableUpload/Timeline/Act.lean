import ResumableUpload.Timeline.Basic

/-!
# What steps do

Most steps are done at once and give a result.  A step that takes time, or that makes a listener
run, leaves frames behind which the thread has to work off first.
-/

namespace ResumableUpload.Timeline

/-- What a step leads to: a result, with frames to work off before the step after it. -/
inductive Effect where
  | done (result : StepResult) (frames : List Frame)
  /-- The result comes from the frames. -/
  | later (frames : List Frame)
  /-- The thread is torn down. -/
  | panic

/-- The result of an operation that can be refused. -/
def StepResult.ofExcept : Except UploadError Unit → StepResult
  | .ok () => .ok
  | .error error => .refused error

/-- Does something with the session at once. -/
def withSession (timeline : Timeline) (operation : Session × StepResult) : Timeline × Effect :=
  ({ timeline with session := operation.1 }, .done operation.2 [])

/-- Does something with the endpoint at once. -/
def withEndpoint (timeline : Timeline) (operation : Endpoint × StepResult) : Timeline × Effect :=
  (timeline.modifySession fun session => { session with endpoint := operation.1 },
    .done operation.2 [])

/-- Starts the metronome, unless it runs. -/
def startTicker (timeline : Timeline) : Timeline :=
  match timeline.ticker with
  | some _ => timeline
  | none =>
    { timeline.spawn [.metronome none] with ticker := some timeline.threads.length }

/-- Stops the metronome. -/
def stopTicker (timeline : Timeline) : Timeline :=
  match timeline.ticker with
  | some thread => { timeline with ticker := none }.awaken thread
  | none => timeline

/-- Shuts the executor down. -/
def shutdownExecutor (timeline : Timeline) : Timeline :=
  (timeline.modifyExecutor (·.requestShutdown)).awakenWorker

/-- Puts a canned answer behind those that wait. -/
def addScript (session : Session) : Scripted → Session
  | .create answer =>
    { session with endpoint.createScript := session.endpoint.createScript ++ [answer] }
  | .chunk answer =>
    { session with endpoint.chunkScript := session.endpoint.chunkScript ++ [answer] }
  | .status answer =>
    { session with endpoint.statusScript := session.endpoint.statusScript ++ [answer] }
  | .delete answer => { session with deleteScript := session.deleteScript ++ [answer] }
  | .list answer => { session with listScript := session.listScript ++ [answer] }

/-- Does one step. -/
def act (timeline : Timeline) : Step → Timeline × Effect
  | .add path file =>
    match file with
    | .error error => (timeline, .done (.unreadable error) [])
    | .ok file =>
      let (session, result) := timeline.session.add file path
      timeline.withSession (session, .ofExcept result)
  | .stop path =>
    let (session, result) := timeline.session.stop path
    timeline.withSession (session, .ofExcept result)
  | .discard path =>
    let (session, result) := timeline.session.discard path
    timeline.withSession (session, .ofExcept result)
  | .delete path =>
    let (session, result) := timeline.session.delete path
    timeline.withSession (session, .ofExcept result)
  | .restore =>
    match timeline.session.restore with
    | (session, .ok count) => timeline.withSession (session, .count count)
    | (session, .error error) => timeline.withSession (session, .refused error)
  | .restoreFrom infos =>
    let (session, count) := timeline.session.restoreFrom infos
    timeline.withSession (session, .count count)
  | .tick times => (timeline, .done .ok [.ticks times])
  | .spawnTick => (timeline.spawn [.ticks 1], .done .ok [])
  | .reconcile report =>
    let (timeline, frames) := timeline.reconcile report []
    (timeline, .done .ok frames)
  | .event event =>
    let (timeline, frames) := timeline.deliver event []
    (timeline, .done .ok frames)
  | .start => (timeline.startTicker, .done .ok [])
  | .destroy => (timeline.stopTicker, .done .ok [])
  | .shutdown => (timeline.stopTicker.shutdownExecutor, .done .ok [])
  | .send snapshots =>
    match snapshots with
    | .error error => (timeline, .done (.unreadable error) [])
    | .ok snapshots => (timeline, .done .ok [.sends snapshots])
  | .spawnSend snapshot =>
    match snapshot with
    | .error error => (timeline, .done (.unreadable error) [])
    | .ok snapshot => (timeline.spawn [.sends [snapshot]], .done .ok [])
  | .cancel => (timeline.modifyEngine 0 Engine.requestStop, .done .ok [])
  | .advance duration => (timeline, .done .ok [.await (timeline.clock + duration)])
  | .script answer => (timeline.modifySession (addScript · answer), .done .ok [])
  | .seed path size data =>
    timeline.withEndpoint (timeline.session.endpoint.seed path size data, .ok)
  | .panic => (timeline, .panic)
  | .completed path => (timeline, .done (.bytes (timeline.session.endpoint.completed? path)) [])
  | .pending path =>
    (timeline, .done (.length (timeline.session.endpoint.pendingLength? path)) [])
  | .chunkOffsets => (timeline, .done (.offsets timeline.session.endpoint.chunkOffsets) [])
  | .callCreate path size =>
    let (endpoint, answer) := timeline.session.endpoint.create path size
    timeline.withEndpoint (endpoint, .created answer)
  | .callChunk path content offset =>
    let (endpoint, call) := timeline.session.endpoint.receiveChunk path content offset
    (timeline.modifySession fun session => { session with endpoint := endpoint },
      .later [.answerStep call (timeline.clock + timeline.chunkDelay)])
  | .callStatus path =>
    let (endpoint, answer) := timeline.session.endpoint.status path
    timeline.withEndpoint (endpoint, .status answer)
  | .callDelete path =>
    let (endpoint, answer) := timeline.session.endpoint.delete path
    timeline.withEndpoint (endpoint, .deleted answer)
  | .callList =>
    let (endpoint, answer) := timeline.session.endpoint.list
    timeline.withEndpoint (endpoint, .listed answer)

end ResumableUpload.Timeline
