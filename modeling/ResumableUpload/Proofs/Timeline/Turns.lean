import ResumableUpload.Proofs.Timeline.Moves

/-!
# What the threads of a timeline do

The steps of users and observers are operations of the session, or leave frames behind
(`Timeline.acts_of_isCall`).  Sending a snapshot, handling one, noticing the end of an engine and
delivering an event are moves of the executor.  With what engines do these are all bits of work that a
thread can do (`Timeline.goes_of_move`).
-/

namespace ResumableUpload.Timeline

variable {timeline next : Timeline} {frame : Frame} {frames others : List Frame}

/-! ## Snapshots -/

/-- An engine that has not been started is nobody's. -/
theorem Attends.fresh (attends : timeline.Attends frames) :
    timeline.session.executor.runs.length ∉ drivenRuns frames ∧
      timeline.session.executor.runs.length ∉ watchedRuns frames := by
  constructor
  · intro member
    obtain ⟨frame, member, drives⟩ := List.mem_filterMap.mp member
    obtain ⟨_, found, _⟩ := (attends.relies frame member).running drives
    exact Nat.lt_irrefl _ (List.getElem?_eq_some_iff.mp found).1
  · intro member
    obtain ⟨frame, member, watches⟩ := List.mem_filterMap.mp member
    have relies := attends.relies frame member
    cases frame with
    | supervise run =>
        cases watches
        obtain ⟨_, _, found, _⟩ := relies
        exact Nat.lt_irrefl _ (List.getElem?_eq_some_iff.mp found).1
    | _ => cases watches

/-- To handle a snapshot leaves the engines that were started alone. -/
theorem Attends.synced
    {executor : Executor}
    (attends : timeline.Attends frames)
    (hosting : executor.hosting = timeline.session.executor.hosting)
    (runs : executor.runs = timeline.session.executor.runs)
    (snapshot : Snapshot) :
    (timeline.modifyExecutor fun _ => (executor.sync snapshot).1).Attends frames :=
  attends.keeps rfl rfl ((Executor.frame_sync executor snapshot).1.trans hosting)
    (fun _ _ => .trans (.of_runs runs) (Executor.keeps_sync (fun _ => rfl) snapshot))
    (fun _ _ => .trans (.of_runs runs) (Executor.keeps_sync (fun _ => rfl) snapshot))

/-- An engine that is started is driven. -/
theorem Attends.started
    {executor : Executor}
    {snapshot : Snapshot}
    {index : Nat}
    (attends : timeline.Attends frames)
    (hosting : executor.hosting = timeline.session.executor.hosting)
    (runs : executor.runs = timeline.session.executor.runs)
    (started : (executor.sync snapshot).2 = some index) :
    (timeline.modifyExecutor fun _ => (executor.sync snapshot).1).Attends
      (.drive index false :: frames) := by
  obtain ⟨newest, run, found, running, _⟩ := Executor.run_of_started started
  refine (attends.synced hosting runs snapshot).cons ⟨run, found, running⟩ ?_ nofun
  rintro _ ⟨⟩
  exact newest ▸ runs ▸ attends.fresh.1

/-- In the background its end is waited for as well. -/
theorem Attends.started_watched
    {executor : Executor}
    {snapshot : Snapshot}
    {index : Nat}
    (attends : timeline.Attends frames)
    (hosting : executor.hosting = timeline.session.executor.hosting)
    (runs : executor.runs = timeline.session.executor.runs)
    (hosted : timeline.session.executor.hosting = .background)
    (started : (executor.sync snapshot).2 = some index) :
    (timeline.modifyExecutor fun _ => (executor.sync snapshot).1).Attends
      (frames ++ [.drive index false, .supervise index]) := by
  obtain ⟨newest, run, found, _, unnoticed⟩ := Executor.run_of_started started
  have hosted : (executor.sync snapshot).1.hosting = .background :=
    (Executor.frame_sync executor snapshot).1.trans (hosting.trans hosted)
  have watched :
      (timeline.modifyExecutor fun _ => (executor.sync snapshot).1).Attends
        (.supervise index :: .drive index false :: frames) := by
    refine (attends.started hosting runs started).cons ⟨hosted, run, found, unnoticed⟩ nofun ?_
    rintro _ ⟨⟩
    exact newest ▸ runs ▸ attends.fresh.2
  have moved :
      ([Frame.drive index false, .supervise index] ++ frames).Perm
        (frames ++ [Frame.drive index false, .supervise index]) :=
    List.perm_append_comm
  exact watched.perm (.trans (.swap _ _ frames) moved)

/-- A snapshot of the queue is sent: it waits, or is handled and may start an engine. -/
theorem Carries.send (attends : timeline.Attends (frames ++ others)) :
    let sent := timeline.send timeline.session.queue.snapshot frames
    Carries timeline sent.1 (sent.2 ++ others) := by
  obtain ⟨heard, whole⟩ := attends.whole
  have follows := Session.Follows.send timeline.session
  unfold Executor.receive at follows
  unfold Timeline.send
  rw [whole]
  cases hosted : timeline.session.executor.hosting with
  | background =>
      rw [hosted] at follows
      obtain ⟨_, waiting⟩ :=
        Executor.enqueue_frame timeline.session.executor timeline.session.queue.snapshot
      have hosting :
          (timeline.session.executor.enqueue timeline.session.queue.snapshot).hosting =
            timeline.session.executor.hosting := by
        rw [waiting]
      have runs :
          (timeline.session.executor.enqueue timeline.session.queue.snapshot).runs =
            timeline.session.executor.runs := by
        rw [waiting]
      have sent :
          Carries timeline (timeline.modifyExecutor (·.enqueue timeline.session.queue.snapshot))
            (frames ++ others) :=
        ⟨rfl, follows, attends.of_runs rfl rfl hosting runs⟩
      exact sent.awakenWhere _
  | inline =>
      rw [hosted] at follows
      dsimp only
      split
      case h_1 index started =>
          exact ⟨rfl, follows, attends.started rfl rfl started⟩
      case h_2 => exact ⟨rfl, follows, attends.synced rfl rfl _⟩

/-- The worker handles the snapshot that has waited longest, and lets a new engine run by itself. -/
theorem goes_of_work
    {thread : Nat}
    (attends : timeline.Attends (.work :: (frames ++ others))) :
    Goes timeline others (timeline.move thread .work frames) := by
  have hosted : timeline.session.executor.hosting = .background := attends.head
  unfold move
  dsimp only
  split
  case isTrue => exact attends.tail.goes
  case isFalse working =>
      split
      case isTrue asked =>
          refine (Carries.of_step rfl rfl (.close hosted asked) ?_).goes
          refine attends.tail.keeps rfl rfl (Executor.hosting_stopHolder _) ?_ ?_
          · intro run _
            exact .trans (Executor.keeps_stopHolder fun _ => rfl) (.of_runs rfl)
          · intro run _
            exact .trans (Executor.keeps_stopHolder fun _ => rfl) (.of_runs rfl)
      case isFalse =>
          split
          case isTrue => exact .waits none attends
          case isFalse =>
              have follows := Session.Follows.work rfl (.handle hosted (Bool.eq_false_iff.mpr working))
              cases waiting : timeline.session.executor.requests with
              | nil => contradiction
              | cons snapshot rest =>
                  obtain ⟨taken, hosting, runs, handled⟩ :
                      ∃ taken : Executor,
                        taken.hosting = timeline.session.executor.hosting ∧
                          taken.runs = timeline.session.executor.runs ∧
                            timeline.session.executor.handleNext = taken.sync snapshot :=
                    ⟨{ timeline.session.executor with requests := rest }, rfl, rfl,
                      by simp only [Executor.handleNext, waiting]⟩
                  rw [handled] at follows ⊢
                  split
                  case h_1 run started =>
                      have watched := attends.started_watched hosting runs hosted started
                      refine .on (.mk [[.drive run false], [.supervise run]] ?_ follows ?_)
                      · exact List.append_assoc _ _ _
                      · exact watched.of_runs rfl rfl rfl rfl
                  case h_2 =>
                      exact Carries.goes ⟨rfl, follows, attends.synced hosting runs snapshot⟩

/-! ## Events -/

/-- The end of an engine is noticed once the engine has come to rest. -/
theorem goes_of_supervise
    {thread run : Nat}
    (attends : timeline.Attends (.supervise run :: (frames ++ others))) :
    Goes timeline others (timeline.move thread (.supervise run) frames) := by
  obtain ⟨hosted, state, found, unnoticed⟩ := attends.head
  unfold move
  dsimp only
  rw [found]
  dsimp only
  split
  case isTrue => exact .waits none attends
  case isFalse atRest =>
      obtain ⟨_, noticed⟩ := Executor.notice_frame found
      refine (Carries.awakenWhere ?_ _).goes
      refine Carries.of_step rfl rfl (.notice hosted found atRest unnoticed) ?_
      refine attends.modified (fun state => { state with noticed := true }) (.inr fun _ => rfl)
        (.inl rfl) rfl rfl ?_ ?_
      · exact (congrArg Executor.hosting noticed).trans rfl
      · exact (congrArg Executor.runs noticed).trans rfl

/-- Of a failure nobody hears who listens to a session. -/
theorem deliver_failure
    {heard : Bool}
    {message : String}
    (whole : timeline.subject = .session heard) :
    timeline.deliver (.failure message) frames = (timeline, frames) := by
  unfold deliver
  rw [whole]

/-- The oldest event is delivered; if it is a report, that is applied to the queue. -/
theorem goes_of_dispatch
    {thread : Nat}
    (attends : timeline.Attends (.dispatch :: (frames ++ others))) :
    Goes timeline others (timeline.move thread .dispatch frames) := by
  obtain ⟨heard, whole⟩ := attends.whole
  unfold move
  dsimp only
  split
  case h_1 => exact .waits none attends
  case h_2 event executor taken =>
      have follows := Session.Follows.work rfl (.deliver taken)
      have still : (timeline.modifyExecutor fun _ => executor).subject = .session heard := whole
      have rest :
          (timeline.modifyExecutor fun _ => executor).Attends (.dispatch :: frames ++ others) := by
        obtain ⟨_, _, rfl⟩ := Executor.takeEvent_eq_some taken
        exact attends.of_runs rfl rfl rfl rfl
      cases event with
      | progress report =>
          refine (Carries.deliver still rfl ?_).goes
          exact ⟨rfl, follows, rest.of_runs rfl rfl rfl rfl⟩
      | failure message =>
          rw [deliver_failure still]
          exact Carries.goes ⟨rfl, follows, rest⟩

/-! ## Steps -/

/-- What a step leads to, before the frames that come after it. -/
inductive Acts (timeline : Timeline) (frames : List Frame) : Timeline × Effect → Prop where
  | done {next : Timeline} {inner : List Frame} (result : StepResult)
      (spawns : Spawns timeline next (inner ++ frames)) :
      Acts timeline frames (next, .done result inner)
  | later {next : Timeline} {inner : List Frame}
      (carries : Carries timeline next (inner ++ frames)) :
      Acts timeline frames (next, .later inner)
  | panic : Acts timeline frames (timeline, .panic)

theorem Carries.acts
    (carries : Carries timeline next frames)
    (result : StepResult) :
    Acts timeline frames (next, .done result []) :=
  .done result carries.spawns

theorem acts_withSession
    {operation : Session × StepResult}
    (attends : timeline.Attends frames)
    (calls : timeline.session.Calls operation.1) :
    Acts timeline frames (timeline.withSession operation) :=
  (Carries.of_calls attends calls).acts operation.2

theorem acts_withEndpoint
    (attends : timeline.Attends frames)
    (operation : Endpoint × StepResult) :
    Acts timeline frames (timeline.withEndpoint operation) :=
  (Carries.of_endpoint attends operation.1).acts operation.2

/-- A thread that is started has work that relies on nothing. -/
theorem acts_of_spawned
    (frame : Frame)
    (attends : timeline.Attends frames)
    (relies : frame.Relies timeline.session.executor)
    (driven : frame.driven? = none)
    (watched : frame.watched? = none)
    (session : next.session = timeline.session)
    (subject : next.subject = timeline.subject)
    (observers : next.observers = timeline.observers)
    (threads : next.threads = timeline.threads ++ [⟨[frame], none⟩]) :
    Acts timeline frames (next, .done .ok []) := by
  have begun := (attends.cons_free relies driven watched).perm (List.perm_append_singleton _ _).symm
  have executor : next.session.executor = timeline.session.executor := congrArg _ session
  exact .done .ok (.mk [[frame]] threads (session ▸ .refl _)
    (begun.of_runs subject observers (congrArg _ executor) (congrArg _ executor)))

theorem Carries.stopTicker (carries : Carries timeline next frames) :
    Carries timeline next.stopTicker frames := by
  unfold Timeline.stopTicker
  split
  case h_1 thread _ =>
      unfold awaken
      split <;> exact carries.congr rfl rfl rfl rfl
  case h_2 => exact carries

theorem Carries.shutdownExecutor (carries : Carries timeline next frames) :
    Carries timeline next.shutdownExecutor frames := by
  have frame :
      next.session.executor.requestShutdown.hosting = next.session.executor.hosting ∧
        next.session.executor.requestShutdown.runs = next.session.executor.runs := by
    obtain ⟨_, asked⟩ := Executor.requestShutdown_frame next.session.executor
    rw [asked]
    exact ⟨rfl, rfl⟩
  refine carries.trans (Carries.awakenWhere ?_ _)
  exact .of_step rfl rfl .shutDown (carries.attends.of_runs rfl rfl frame.1 frame.2)

theorem acts_of_isCall
    {step : Step}
    (attends : timeline.Attends frames)
    (call : step.isCall = true) :
    Acts timeline frames (timeline.act step) := by
  have still := Carries.refl attends
  cases step with
  | add path file =>
      cases file with
      | error error => exact still.acts _
      | ok file => exact acts_withSession attends (.add _ file path)
  | stop path => exact acts_withSession attends (.stop _ path)
  | discard path => exact acts_withSession attends (.discard _ path)
  | delete path => exact acts_withSession attends (.delete _ path)
  | restore =>
      have calls := Session.Calls.restore timeline.session
      unfold act
      dsimp only
      split
      case h_1 session count restored =>
          rw [restored] at calls
          exact acts_withSession attends calls
      case h_2 session error refused =>
          rw [refused] at calls
          exact acts_withSession attends calls
  | restoreFrom infos => exact acts_withSession attends (.restoreFrom _ infos)
  | tick times =>
      have ticking : timeline.Attends (.ticks times :: frames) :=
        attends.cons_free trivial rfl rfl
      exact .done .ok (Carries.refl ticking).spawns
  | spawnTick => exact acts_of_spawned (.ticks 1) attends trivial rfl rfl rfl rfl rfl rfl
  | start =>
      unfold act startTicker
      dsimp only
      split
      case h_1 => exact still.acts .ok
      case h_2 => exact acts_of_spawned (.metronome none) attends trivial rfl rfl rfl rfl rfl rfl
  | destroy => exact still.stopTicker.acts .ok
  | shutdown => exact still.stopTicker.shutdownExecutor.acts .ok
  | advance duration =>
      have waiting : timeline.Attends (.await (timeline.clock + duration) :: frames) :=
        attends.cons_free trivial rfl rfl
      exact .done .ok (Carries.refl waiting).spawns
  | script answer =>
      have calls : timeline.session.Calls (addScript timeline.session answer) := by
        cases answer <;> exact .of_eq rfl rfl rfl
      exact (Carries.of_calls attends calls).acts .ok
  | seed path size data => exact acts_withEndpoint attends _
  | panic => exact .panic
  | completed | pending | chunkOffsets => exact still.acts _
  | callCreate | callStatus | callDelete | callList => exact acts_withEndpoint attends _
  | callChunk path content offset =>
      have called := Carries.of_endpoint attends
        (timeline.session.endpoint.receiveChunk path content offset).1
      exact .later (called.imp fun attends => attends.cons_free trivial rfl rfl)
  | reconcile | event | send | spawnSend | cancel => cases call

/-- The next step is done, and what it leaves behind comes before the steps after it. -/
theorem goes_of_steps
    {thread : Nat}
    {observer : Option (Occasion × Nat)}
    {step : Step}
    {rest : List Step}
    {results : List StepResult}
    (attends : timeline.Attends (.steps observer (step :: rest) results :: (frames ++ others))) :
    Goes timeline others (timeline.move thread (.steps observer (step :: rest) results) frames) := by
  obtain ⟨call, calls⟩ := List.forall_mem_cons.mp attends.head
  have acts := acts_of_isCall attends.tail call
  -- Where the frame of the remaining steps stands does not matter to what it relies on.
  have later : ∀ {next : Timeline} {inner : List Frame} (results : List StepResult)
      {spawned : List Frame},
      next.Attends (inner ++ (frames ++ others) ++ spawned) →
        next.Attends (inner ++ .steps observer rest results :: frames ++ others ++ spawned) := by
    intro next inner results spawned attends
    have relies : (Frame.steps observer rest results).Relies next.session.executor := calls
    refine (attends.cons_free relies rfl rfl).perm ?_
    simp only [List.append_assoc, List.cons_append]
    exact List.perm_middle.symm
  unfold move
  dsimp only
  generalize timeline.act step = acted at acts ⊢
  cases acts with
  | done result spawns =>
      obtain ⟨spawned, threads, follows, attends⟩ := spawns
      exact .on (.mk spawned threads follows (later _ attends))
  | later carries =>
      obtain ⟨spawned, threads, follows, attends⟩ := carries.spawns
      exact .on (.mk spawned threads follows (later _ attends))
  | panic => exact .breaks

/-! ## All bits of work -/

theorem Attends.giveResult
    (attends : timeline.Attends (frames ++ others))
    (result : StepResult) :
    timeline.Attends (giveResult result frames ++ others) := by
  unfold Timeline.giveResult
  split
  case h_1 => exact attends.replace attends.head rfl rfl
  case h_2 => exact attends

/-- Whatever a thread does next is done by its scheduler too. -/
theorem goes_of_move
    {thread : Nat}
    (attends : timeline.Attends (frame :: (frames ++ others))) :
    Goes timeline others (timeline.move thread frame frames) := by
  cases frame with
  | drive run announced =>
      obtain ⟨state, found, running⟩ := attends.head
      have engine : timeline.session.executor.engine? run = some state.engine :=
        congrArg (Option.map Run.engine) found
      unfold move
      dsimp only
      rw [engine]
      exact goes_of_drive attends found running
  | await due =>
      unfold move
      dsimp only
      split
      case isTrue => exact attends.tail.goes
      case isFalse => exact .waits (some due) attends
  | answer run call due =>
      obtain ⟨state, found, running, content, phase⟩ := attends.head
      unfold move
      dsimp only
      split
      case isTrue =>
          exact (Carries.answered attends rfl found running (.chunk phase _) rfl
            (.answerChunk _ call)).goes
      case isFalse => exact .waits (some due) attends
  | answerStep call due =>
      unfold move
      dsimp only
      split
      case isTrue =>
          have answered := Carries.of_endpoint attends.tail
            (timeline.session.endpoint.answerChunk call).1
          exact (answered.imp fun attends => attends.giveResult _).goes
      case isFalse => exact .waits (some due) attends
  | steps observer rest results =>
      cases rest with
      | nil =>
          refine (Carries.congr (.refl attends.tail) ?_ ?_ ?_ ?_).goes <;>
            cases observer <;> rfl
      | cons step rest => exact goes_of_steps attends
  | ticks times =>
      cases times with
      | zero => exact attends.tail.goes
      | succ times =>
          have ticking : timeline.Attends ((.ticks times :: frames) ++ others) :=
            attends.replace trivial rfl rfl
          exact (Carries.send ticking).goes
  | sends snapshots => exact attends.head.elim
  | work => exact goes_of_work attends
  | dispatch => exact goes_of_dispatch attends
  | supervise run => exact goes_of_supervise attends
  | metronome due =>
      have beating : ∀ due, timeline.Attends ((.metronome due :: frames) ++ others) :=
        fun _ => attends.replace trivial rfl rfl
      have ticking : ∀ due, timeline.Attends ((.ticks 1 :: .metronome due :: frames) ++ others) :=
        fun due => (beating due).cons_free trivial rfl rfl
      unfold move
      dsimp only
      split
      case isTrue => exact attends.tail.goes
      case isFalse =>
          split
          case h_1 => exact .waits _ (beating _)
          case h_2 =>
              split
              case isTrue => exact (ticking _).goes
              case isFalse => exact .waits _ (beating _)

end ResumableUpload.Timeline
