import ResumableUpload.Proofs.Executor.Effects
import ResumableUpload.Proofs.Timeline.Frames

/-!
# A bit of work is a move of the scheduler

Each bit of work that a thread of a timeline does is a move of the scheduler of its session, or two of
them, or none, and leaves all frames with what they rely on (`Timeline.Carries`).
-/

namespace ResumableUpload

namespace Timeline

variable {timeline middle next : Timeline} {frame : Frame} {frames others : List Frame} {run : Nat}

/-- To wake threads changes only which of them are ready. -/
theorem foldl_awaken
    (waiting : List Nat)
    (timeline : Timeline) :
    ∃ ready, waiting.foldl awaken timeline = { timeline with ready := ready } := by
  induction waiting generalizing timeline with
  | nil => exact ⟨timeline.ready, rfl⟩
  | cons thread rest later =>
      rw [List.foldl_cons]
      unfold awaken
      split
      case isTrue => exact later timeline
      case isFalse => exact later _

/-! ## What a bit of work leads to -/

/-- The scheduler of a session has moved, no thread has, and frames have what they rely on. -/
structure Carries (timeline next : Timeline) (frames : List Frame) : Prop where
  threads : next.threads = timeline.threads
  follows : timeline.session.Follows next.session
  attends : next.Attends frames

namespace Carries

theorem refl (attends : timeline.Attends frames) : Carries timeline timeline frames :=
  ⟨rfl, .refl _, attends⟩

theorem trans
    (before : Carries timeline middle frames)
    (after : Carries middle next others) :
    Carries timeline next others :=
  ⟨after.threads.trans before.threads, before.follows.trans after.follows, after.attends⟩

theorem imp
    (carries : Carries timeline next frames)
    (attends : next.Attends frames → next.Attends others) :
    Carries timeline next others :=
  ⟨carries.threads, carries.follows, attends carries.attends⟩

/-- What a timeline has seen, logs and has ready to run does not matter. -/
theorem congr
    (carries : Carries timeline middle frames)
    (subject : next.subject = middle.subject)
    (observers : next.observers = middle.observers)
    (threads : next.threads = middle.threads)
    (session : next.session = middle.session) :
    Carries timeline next frames where
  threads := threads.trans carries.threads
  follows := session ▸ carries.follows
  attends := by
    have executor : next.session.executor = middle.session.executor := congrArg _ session
    exact carries.attends.of_runs subject observers (congrArg _ executor) (congrArg _ executor)

theorem awakenWhere
    (carries : Carries timeline next frames)
    (chosen : Frame → Bool) :
    Carries timeline (next.awakenWhere chosen) frames := by
  unfold Timeline.awakenWhere
  dsimp only
  obtain ⟨_, awoken⟩ := foldl_awaken _ next
  rw [awoken]
  exact carries.congr rfl rfl rfl rfl

/-- An observer whose occasion has come has its steps done first. -/
theorem occur
    (carries : Carries timeline next (frames ++ others))
    (occasion : Occasion) :
    Carries timeline (next.occur occasion frames).1 ((next.occur occasion frames).2 ++ others) := by
  unfold Timeline.occur
  dsimp only
  split
  case h_1 observer found =>
      have steps := carries.attends.observed observer (List.mem_of_find?_eq_some found)
      refine (carries.imp fun attends => ?_).congr rfl rfl rfl rfl
      exact attends.cons_free steps rfl rfl
  case h_2 => exact carries.congr rfl rfl rfl rfl

/-- A report that is applied is heard by the listener of the session. -/
theorem reconcile
    {report : Report}
    (carries :
      Carries timeline { next with session := (next.session.reconcile report).1 }
        (frames ++ others)) :
    Carries timeline (next.reconcile report frames).1
      ((next.reconcile report frames).2 ++ others) := by
  unfold Timeline.reconcile
  dsimp only
  split
  case isTrue =>
      refine occur ?_ .callback
      exact carries.congr rfl rfl rfl rfl
  case isFalse => exact carries

/-- A call that leaves the executor alone. -/
theorem of_calls
    {session : Session}
    (attends : timeline.Attends frames)
    (calls : timeline.session.Calls session) :
    Carries timeline { timeline with session := session } frames where
  threads := rfl
  follows := calls.follows
  attends := by
    have executor : session.executor = timeline.session.executor := calls.executor
    exact attends.of_runs rfl rfl (congrArg _ executor) (congrArg _ executor)

theorem of_endpoint
    (attends : timeline.Attends frames)
    (endpoint : Endpoint) :
    Carries timeline { timeline with session := { timeline.session with endpoint := endpoint } }
      frames :=
  of_calls attends (.of_eq rfl rfl rfl)

/-- What the executor does by itself, bringing no report. -/
theorem of_step
    {move : Executor.Move}
    {executor : Executor}
    (own : Scheduler.isWork move = true)
    (silent : move.report? timeline.session.executor.hosting = none)
    (step : Executor.Step timeline.session.executor move executor)
    (attends : (timeline.modifyExecutor fun _ => executor).Attends frames) :
    Carries timeline (timeline.modifyExecutor fun _ => executor) frames where
  threads := rfl
  follows := by
    have follows := Session.Follows.work own step
    rw [silent] at follows
    exact follows
  attends := attends

/-- An engine does something that is no report, and is driven on. -/
theorem act
    {state : Run}
    {act : Engine.Act}
    {change : Engine → Engine}
    (attends : timeline.Attends (frame :: frames))
    (drives : frame.driven? = some run)
    (found : timeline.session.executor.runs[run]? = some state)
    (running : state.fate = .running)
    (step : Engine.Step state.engine act (change state.engine))
    (quiet : act.report? = none) :
    Carries timeline (timeline.modifyEngine run change) (.drive run false :: frames) := by
  have acted := Executor.Step.act found running step
  have unheard :
      (timeline.session.executor.modifyEngine run fun _ => change state.engine).hear act =
        timeline.session.executor.modifyEngine run change := by
    rw [Executor.modifyEngine_congr found change]
    cases act with
    | report => cases quiet
    | _ => rfl
  have silent :
      (Executor.Move.act run act).report? timeline.session.executor.hosting = none := by
    cases act with
    | report => cases quiet
    | _ => rfl
  rw [unheard] at acted
  exact of_step rfl silent acted (attends.driven_on drives change rfl rfl rfl rfl)

/-- A report that is delivered is applied to the queue. -/
theorem deliver
    {event : ExecutorEvent}
    {report : Report}
    {heard : Bool}
    (whole : next.subject = .session heard)
    (delivered : event = .progress report)
    (carries :
      Carries timeline { next with session := (next.session.reconcile report).1 }
        (frames ++ others)) :
    Carries timeline (next.deliver event frames).1 ((next.deliver event frames).2 ++ others) := by
  unfold Timeline.deliver
  rw [whole, delivered]
  exact carries.reconcile

/-- An engine makes a report, which waits in the background and is else applied at once. -/
theorem report
    {state : Run}
    {report : Report}
    (attends : timeline.Attends (frame :: (frames ++ others)))
    (drives : frame.driven? = some run)
    (found : timeline.session.executor.runs[run]? = some state)
    (running : state.fate = .running)
    (made : state.engine.report? = some report) :
    let reported :=
      (timeline.modifyEngine run Engine.afterReport).emit report (.drive run false :: frames)
    Carries timeline reported.1 (reported.2 ++ others) := by
  obtain ⟨heard, whole⟩ := attends.whole
  have follows := Session.Follows.work rfl (.act found running (.report made))
  rw [← Executor.modifyEngine_congr found Engine.afterReport] at follows
  let after := timeline.modifyEngine run Engine.afterReport
  have emitted := Executor.emit_eq after.session.executor report
  have hosting :
      (after.session.executor.emit report).hosting = timeline.session.executor.hosting := by
    rw [emitted]
    rfl
  have runs : (after.session.executor.emit report).runs = after.session.executor.runs := by
    rw [emitted]
  unfold Timeline.emit
  rw [show (timeline.modifyEngine run Engine.afterReport).subject = .session heard from whole]
  dsimp only
  split
  case h_1 hosted =>
      rw [hosting.symm.trans hosted] at follows
      have carries :
          Carries timeline (after.modifyExecutor (·.emit report))
            (.drive run false :: (frames ++ others)) :=
        ⟨rfl, follows, attends.driven_on drives Engine.afterReport rfl rfl hosting runs⟩
      exact carries.awakenWhere _
  case h_2 hosted =>
      rw [hosting.symm.trans hosted] at follows
      refine deliver whole rfl ?_
      exact ⟨rfl, follows, attends.driven_on drives Engine.afterReport rfl rfl hosting runs⟩

/-- A call of an engine that is answered at once. -/
theorem answered
    {state : Run}
    {act : Engine.Act}
    {change : Engine → Engine}
    {session : Session}
    (attends : timeline.Attends (frame :: frames))
    (drives : frame.driven? = some run)
    (found : timeline.session.executor.runs[run]? = some state)
    (running : state.fate = .running)
    (step : Engine.Step state.engine act (change state.engine))
    (quiet : act.report? = none)
    (calls : timeline.session.Calls session) :
    Carries timeline ({ timeline with session := session }.modifyEngine run change)
      (.drive run false :: frames) := by
  have called := of_calls attends calls
  exact called.trans
    (Carries.act called.attends drives (calls.executor ▸ found) running step quiet)

end Carries

/-- As `Carries`, but threads may have been started, each with frames of its own. -/
inductive Spawns (timeline next : Timeline) (frames : List Frame) : Prop where
  | mk (spawned : List (List Frame))
      (threads : next.threads = timeline.threads ++ spawned.map (⟨·, none⟩))
      (follows : timeline.session.Follows next.session)
      (attends : next.Attends (frames ++ spawned.flatten))

theorem Carries.spawns (carries : Carries timeline next frames) : Spawns timeline next frames := by
  refine .mk [] ?_ carries.follows ?_
  · rw [List.map_nil, List.append_nil]
    exact carries.threads
  · rw [List.flatten_nil, List.append_nil]
    exact carries.attends

/-- How a thread goes on after a bit of work, beside the frames of all others. -/
inductive Goes (timeline : Timeline) (others : List Frame) : Timeline × Progress → Prop where
  | on {next : Timeline} {frames : List Frame}
      (spawns : Spawns timeline next (frames ++ others)) :
      Goes timeline others (next, .continue frames)
  | waits {frames : List Frame} (wake : Option Nat)
      (attends : timeline.Attends (frames ++ others)) :
      Goes timeline others (timeline, .wait frames wake)
  | breaks : Goes timeline others (timeline, .panic)

theorem Carries.goes (carries : Carries timeline next (frames ++ others)) :
    Goes timeline others (next, .continue frames) :=
  .on carries.spawns

/-- What is left to be done gets what it relies on, if nothing else has happened. -/
theorem Attends.goes (attends : timeline.Attends (frames ++ others)) :
    Goes timeline others (timeline, .continue frames) :=
  (Carries.refl attends).goes

/-! ## Engines -/

/-- A wait comes before what it lets wait. -/
theorem Carries.pause
    (carries : Carries timeline next (frames ++ others))
    (middle : Timeline) :
    Carries timeline next (middle.pause frames ++ others) := by
  unfold Timeline.pause
  dsimp only
  split
  case isTrue => exact carries
  case isFalse => exact carries.imp fun attends => attends.cons_free trivial rfl rfl

theorem Carries.conclude
    {state : Run}
    {announced : Bool}
    (attends : timeline.Attends (.drive run announced :: frames))
    (found : timeline.session.executor.runs[run]? = some state)
    (running : state.fate = .running)
    (ended : state.engine.hasEnded = true) :
    Carries timeline (timeline.conclude run state.engine) frames := by
  have step := Executor.Step.finish found running ended
  unfold Executor.conclude at step
  unfold Timeline.conclude
  dsimp only
  split
  case h_1 hosted =>
      rw [show timeline.session.executor.hosting = .background from hosted] at step
      refine awakenWhere (of_step rfl rfl step ?_) _
      exact attends.settled rfl .returned rfl rfl rfl rfl
  case h_2 hosted =>
      rw [show timeline.session.executor.hosting = .inline from hosted] at step
      refine of_step rfl rfl step ?_
      obtain ⟨_, released⟩ :=
        Executor.release_frame (timeline.session.executor.settle run .returned) state.engine.path
      refine attends.settled rfl .returned rfl rfl ?_ ?_
      · exact (congrArg Executor.hosting released).trans rfl
      · exact (congrArg Executor.runs released).trans rfl

/-- Whatever an engine does next, with what comes of it, is done by the executor too. -/
theorem goes_of_drive
    {state : Run}
    {announced : Bool}
    (attends : timeline.Attends (.drive run announced :: (frames ++ others)))
    (found : timeline.session.executor.runs[run]? = some state)
    (running : state.fate = .running) :
    Goes timeline others (timeline.drive run announced state.engine frames) := by
  have driving : timeline.Attends ((.drive run true :: frames) ++ others) :=
    attends.replace attends.head rfl rfl
  unfold Timeline.drive
  dsimp only
  cases phase : state.engine.phase with
  | idle => exact attends.tail.goes
  | ended outcome =>
      refine (Carries.conclude attends found running ?_).goes
      simp only [Engine.hasEnded, Engine.outcome?, phase, Option.isSome_some]
  | creating attempt =>
      dsimp only
      split
      case isTrue =>
          exact (Carries.answered attends rfl found running (.create phase _) rfl
            (.call _ _ _)).goes
      case isFalse => exact ((Carries.refl driving).occur .create).goes
  | pausingCreate attempt =>
      have acts : Carries timeline (timeline.modifyEngine run (·.afterCreatePause attempt)) _ :=
        .act attends rfl found running (.retryCreate phase) rfl
      exact (acts.pause _).goes
  | checking => exact (Carries.act attends rfl found running (.check phase) rfl).goes
  | reading => exact (Carries.act attends rfl found running (.read phase _) rfl).goes
  | sending content =>
      dsimp only
      split
      case isTrue =>
          have calls := Session.Calls.sendChunk timeline.session state.engine.path content
            state.engine.offset
          refine ((Carries.of_calls attends calls).imp fun calling => ?_).goes
          exact calling.replace ⟨state, calls.executor ▸ found, running, content, phase⟩ rfl rfl
      case isFalse => exact ((Carries.refl driving).occur .chunk).goes
  | accepted | refused reason | concluding outcome =>
      dsimp only
      split
      case h_1 report made => exact (Carries.report attends rfl found running made).goes
      case h_2 => exact attends.tail.goes
  | backingOff =>
      have acts : Carries timeline (timeline.modifyEngine run Engine.afterBackOff) _ :=
        .act attends rfl found running (.backOff phase) rfl
      exact (acts.pause _).goes
  | resyncing =>
      dsimp only
      split
      case isTrue =>
          exact (Carries.answered attends rfl found running (.status phase _) rfl
            (.call _ _ _)).goes
      case isFalse => exact ((Carries.refl driving).occur .status).goes

end Timeline

end ResumableUpload
