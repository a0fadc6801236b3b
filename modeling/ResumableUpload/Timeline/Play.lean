import ResumableUpload.Timeline.Run

/-!
# What timelines are played with

A timeline of a session, of an executor, of an endpoint alone, or of one engine that is run by the
caller, as often as asked.
-/

namespace ResumableUpload.Timeline

/-- The endpoint, canned answers and observers that a timeline is set up with. -/
structure Scene where
  config : Config := {}
  chunkDelay : Nat := 0
  endpoint : Endpoint := {}
  deleteScript : List (Answer Unit) := []
  listScript : List (Answer ListReply) := []
  observers : List Observer := []

/-- The session of a scene. -/
def Scene.session (scene : Scene) (hosting : Hosting) : Session :=
  { Session.new scene.config hosting scene.endpoint with
    deleteScript := scene.deleteScript
    listScript := scene.listScript }

/-- The timeline of a scene. -/
def Scene.timeline (scene : Scene) (subject : Subject) (hosting : Hosting) : Timeline :=
  Timeline.new subject (scene.session hosting) scene.chunkDelay scene.observers

/-- The timeline of one engine, which holds no slot. -/
def Scene.engineTimeline (scene : Scene) (engine : Engine) : Timeline :=
  (scene.timeline .engine .inline).modifyExecutor fun executor =>
    { executor with runs := [⟨engine, .running, false⟩] }

/-- The engine of such a timeline. -/
def engine? (timeline : Timeline) : Option Engine :=
  timeline.session.executor.engine? 0

/-- Runs the engine of such a timeline to its end. -/
def runEngine (timeline : Timeline) : Record × Timeline :=
  ((timeline.modifyEngine 0 Engine.start).perform [.drive 0 false]).takeRecord

end ResumableUpload.Timeline
