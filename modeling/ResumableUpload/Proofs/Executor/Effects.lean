import ResumableUpload.Proofs.Executor.Slot

/-!
# What a move changes

For the queue an executor is the engines that are at work, the snapshots that wait, the reports that
were not delivered yet and the number of reports made.  `Effect` says for each move what becomes of
these, so that a property of them need not know how an executor keeps its slot.
-/

namespace ResumableUpload

/-- The first entry that may be given the slot is one of the snapshot, and it has its file. -/
theorem Snapshot.next?_eq_some
    {snapshot : Snapshot}
    {entry : Entry}
    {file : FileHandle}
    (first : snapshot.next? = some (entry, file)) :
    entry ∈ snapshot.entries ∧ entry.isEligible = true ∧ entry.file = some file := by
  obtain ⟨other, member, chosen⟩ := List.exists_of_findSome?_eq_some first
  split at chosen
  case isTrue eligible =>
      obtain ⟨held, found, same⟩ := Option.map_eq_some_iff.mp chosen
      cases same
      exact ⟨member, eligible, found⟩
  case isFalse => cases chosen

/-- A snapshot wants the path that it puts first. -/
theorem Snapshot.wants_of_next?
    {snapshot : Snapshot}
    {entry : Entry}
    {file : FileHandle}
    {path : String}
    (first : snapshot.next? = some (entry, file))
    (here : entry.path = path) :
    snapshot.wants path = true := by
  obtain ⟨member, eligible, _⟩ := Snapshot.next?_eq_some first
  simp only [Entry.isEligible, Bool.and_eq_true] at eligible
  apply List.any_eq_true.mpr
  exact ⟨entry, member, by simp [here, eligible]⟩

namespace Executor

variable {executor next : Executor} {move : Move}

/-- An engine that was started and still has something to do. -/
def AtWork (executor : Executor) (engine : Engine) : Prop :=
  ∃ (index : Nat) (run : Run),
    executor.runs[index]? = some run ∧ run.fate = .running ∧ run.engine = engine ∧
      engine.hasEnded = false

/-- The engine of this run still has something to do. -/
def Working (executor : Executor) (index : Nat) (engine : Engine) : Prop :=
  ∃ run : Run,
    executor.runs[index]? = some run ∧ run.fate = .running ∧ run.engine = engine ∧
      engine.hasEnded = false

/-- The reports that were not delivered yet. -/
def undelivered (executor : Executor) : List Report :=
  executor.events.filterMap fun
    | .progress report => some report
    | .failure _ => none

/-- The snapshot that an executor handles in a move. -/
inductive Handles (executor : Executor) : Move → Snapshot → Prop where
  | inlined {snapshot : Snapshot} (inlined : executor.hosting = .inline) :
      Handles executor (.send snapshot) snapshot
  | queued {snapshot : Snapshot} {rest : List Snapshot}
      (hosted : executor.hosting = .background)
      (waiting : executor.requests = snapshot :: rest) :
      Handles executor .handle snapshot

theorem Handles.isAct
    {snapshot : Snapshot}
    (handles : executor.Handles move snapshot) :
    move.isAct = false := by
  cases handles <;> rfl

/-- What a move does to the engines at work, the waiting snapshots and the reports. -/
inductive Effect (executor : Executor) : Move → Executor → Prop where
  /-- No engine does anything; some may have come to rest, and snapshots may be dropped. -/
  | calm {move : Move} {next : Executor}
      (engines : ∀ {engine : Engine}, next.AtWork engine → executor.AtWork engine)
      (requests : next.requests <:+ executor.requests)
      (undelivered : next.undelivered = executor.undelivered)
      (emitted : next.emitted = executor.emitted)
      (silent : move.report? executor.hosting = none)
      (still : move.isAct = false) :
      Effect executor move next
  /-- A snapshot begins to wait. -/
  | received {snapshot : Snapshot} {next : Executor}
      (engines : ∀ {engine : Engine}, next.AtWork engine → executor.AtWork engine)
      (requests : next.requests = executor.requests ++ [snapshot])
      (undelivered : next.undelivered = executor.undelivered)
      (emitted : next.emitted = executor.emitted) :
      Effect executor (.send snapshot) next
  /-- A snapshot tells the engine at work to stop. -/
  | stopped {move : Move} {next : Executor} {snapshot : Snapshot}
      (handles : executor.Handles move snapshot)
      (engines :
        ∀ {engine : Engine}, next.AtWork engine →
          ∃ before,
            executor.AtWork before ∧ engine = before.requestStop ∧
              keeps snapshot before.path = false)
      (requests : next.requests <:+ executor.requests)
      (undelivered : next.undelivered = executor.undelivered)
      (emitted : next.emitted = executor.emitted)
      (silent : move.report? executor.hosting = none) :
      Effect executor move next
  /-- A snapshot starts an engine. -/
  | started {move : Move} {next : Executor} {snapshot : Snapshot} {entry : Entry}
      {file : FileHandle}
      (handles : executor.Handles move snapshot)
      (idle : ∀ {engine : Engine}, ¬ executor.AtWork engine)
      (first : snapshot.next? = some (entry, file))
      (current : executor.emitted ≤ snapshot.reportsSeen)
      (engines :
        ∀ {engine : Engine}, next.AtWork engine →
          engine = (Engine.new executor.tuning entry.path file entry.uploaded).start)
      (requests : next.requests <:+ executor.requests)
      (undelivered : next.undelivered = executor.undelivered)
      (emitted : next.emitted = executor.emitted)
      (silent : move.report? executor.hosting = none) :
      Effect executor move next
  /-- The engine at work does something other than to report. -/
  | acted {index : Nat} {act : Engine.Act} {before after : Engine} {next : Executor}
      (found : executor.engine? index = some before)
      (working : executor.AtWork before)
      (step : Engine.Step before act after)
      (silent : act.report? = none)
      (engines : ∀ {engine : Engine}, next.AtWork engine → engine = after)
      (requests : next.requests = executor.requests)
      (undelivered : next.undelivered = executor.undelivered)
      (emitted : next.emitted = executor.emitted)
      (quiet : (Move.act index act).report? executor.hosting = none) :
      Effect executor (.act index act) next
  /-- The engine at work makes a report. -/
  | reported {index : Nat} {report : Report} {before after : Engine} {next : Executor}
      (found : executor.engine? index = some before)
      (working : executor.AtWork before)
      (step : Engine.Step before (.report report) after)
      (engines : ∀ {engine : Engine}, next.AtWork engine → engine = after)
      (requests : next.requests = executor.requests)
      (undelivered :
        next.undelivered =
          match executor.hosting with
          | .background => executor.undelivered ++ [report]
          | .inline => executor.undelivered)
      (emitted : next.emitted = executor.emitted + 1) :
      Effect executor (.act index (.report report)) next
  /-- The oldest report is delivered. -/
  | delivered {report : Report} {next : Executor}
      (engines : ∀ {engine : Engine}, next.AtWork engine → executor.AtWork engine)
      (requests : next.requests = executor.requests)
      (undelivered : executor.undelivered = report :: next.undelivered)
      (emitted : next.emitted = executor.emitted) :
      Effect executor (.deliver (.progress report)) next
  /-- The executor closes: what waits is dropped and the engine at work is told to stop. -/
  | closed {next : Executor}
      (engines :
        ∀ {engine : Engine}, next.AtWork engine →
          ∃ before,
            executor.AtWork before ∧ (engine = before ∨ engine = before.requestStop))
      (requests : next.requests = [])
      (undelivered : next.undelivered = executor.undelivered)
      (emitted : next.emitted = executor.emitted) :
      Effect executor .close next

/-- After one more report was made, what waits is that or waited before. -/
theorem mem_of_reported
    {hosting : Hosting}
    {before after : List Report}
    {report made : Report}
    (waiting :
      after =
        match hosting with
        | .background => before ++ [made]
        | .inline => before)
    (member : report ∈ after) :
    report ∈ before ∨ report = made := by
  rw [waiting] at member
  split at member
  · simpa using member
  · exact .inl member

theorem Move.made?_eq_none
    (still : move.isAct = false) :
    move.made? = none := by
  cases move with
  | act => cases still
  | _ => rfl

/-! ## Which snapshots wait -/

/-- The snapshots that wait after a move; they are handled in the order in which they came. -/
def waitingAfter (executor : Executor) : Move → List Snapshot
  | .send snapshot =>
    match executor.hosting with
    | .background => (executor.enqueue snapshot).requests
    | .inline => executor.requests
  | .handle => executor.requests.tail
  | .close => []
  | _ => executor.requests

/-- Whatever waits after a move did so before, or it was just sent. -/
theorem mem_waitingAfter
    {snapshot : Snapshot}
    (member : snapshot ∈ executor.waitingAfter move) :
    snapshot ∈ executor.requests ∨ move = .send snapshot := by
  cases move with
  | send sent =>
      unfold waitingAfter enqueue at member
      dsimp only at member
      split at member
      · split at member
        · exact .inl member
        · rcases List.mem_append.mp member with earlier | last
          · exact .inl earlier
          · exact .inr (congrArg Move.send (List.mem_singleton.mp last).symm)
      · exact .inl member
  | handle => exact .inl (List.mem_of_mem_tail member)
  | close => cases member
  | act | panic | finish | notice | deliver | shutDown => exact .inl member

/-- Whether the executor is closed after a move. -/
def closedAfter (executor : Executor) : Move → Bool
  | .close => true
  | _ => executor.closed

theorem frame_sync
    (executor : Executor)
    (snapshot : Snapshot) :
    (executor.sync snapshot).1.hosting = executor.hosting ∧
      (executor.sync snapshot).1.requests = executor.requests ∧
      (executor.sync snapshot).1.closed = executor.closed := by
  have synced := synced_sync executor snapshot
  generalize (executor.sync snapshot).1 = next at synced ⊢
  cases synced with
  | quiet => exact ⟨rfl, rfl, rfl⟩
  | started => exact ⟨rfl, rfl, rfl⟩
  | stopped =>
      obtain ⟨_, stopped⟩ := stopHolder_frame executor
      rw [stopped]
      exact ⟨rfl, rfl, rfl⟩

/-- Only what is sent, handled or dropped changes which snapshots wait. -/
theorem Step.frame (step : Step executor move next) :
    next.hosting = executor.hosting ∧ next.requests = executor.waitingAfter move ∧
      next.closed = executor.closedAfter move := by
  cases step with
  | send snapshot =>
      unfold receive waitingAfter
      cases hosting : executor.hosting with
      | background =>
          obtain ⟨_, waiting⟩ := enqueue_frame executor snapshot
          dsimp only
          rw [waiting]
          exact ⟨hosting, rfl, rfl⟩
      | inline =>
          have synced := frame_sync executor snapshot
          exact ⟨synced.1.trans hosting, synced.2⟩
  | handle =>
      unfold handleNext waitingAfter
      cases waiting : executor.requests with
      | nil => exact ⟨rfl, waiting, rfl⟩
      | cons snapshot rest => exact frame_sync _ snapshot
  | @act index _ act engine =>
      obtain ⟨_, _, heard⟩ := hear_frame (executor.modifyEngine index fun _ => engine) act
      rw [heard]
      exact ⟨rfl, rfl, rfl⟩
  | panic => exact ⟨rfl, rfl, rfl⟩
  | @finish index run =>
      obtain ⟨_, concluded⟩ := conclude_frame executor index run.engine.path
      rw [concluded]
      exact ⟨rfl, rfl, rfl⟩
  | notice _ found =>
      obtain ⟨_, noticed⟩ := notice_frame found
      rw [noticed]
      exact ⟨rfl, rfl, rfl⟩
  | deliver taken =>
      obtain ⟨_, _, rfl⟩ := takeEvent_eq_some taken
      exact ⟨rfl, rfl, rfl⟩
  | shutDown =>
      obtain ⟨_, asked⟩ := requestShutdown_frame executor
      rw [asked]
      exact ⟨rfl, rfl, rfl⟩
  | close => exact ⟨hosting_stopHolder executor, rfl, rfl⟩

theorem Step.hosting_eq (step : Step executor move next) :
    next.hosting = executor.hosting :=
  step.frame.1

theorem hosting_of_steps
    {moves : List Move}
    (run : Trace Step executor moves next) :
    next.hosting = executor.hosting := by
  induction run with
  | refl => rfl
  | snoc _ last same => exact last.hosting_eq.trans same

theorem Step.still_closed
    (step : Step executor move next)
    (closed : executor.closed = true) :
    next.closed = true := by
  rw [step.frame.2.2]
  unfold closedAfter
  split
  · rfl
  · exact closed

/-! ## The order of reports -/

/-- An inline executor delivers a report as it is made. -/
def Direct (executor : Executor) : Prop :=
  executor.hosting = .inline → executor.undelivered = []

/-- Reports are delivered in the order in which they are made. -/
theorem Effect.reports
    (effect : Effect executor move next)
    (direct : executor.Direct) :
    executor.undelivered ++ move.made?.toList =
      (move.report? executor.hosting).toList ++ next.undelivered := by
  cases effect with
  | calm _ _ undelivered _ silent still =>
      rw [Move.made?_eq_none still, silent, undelivered]
      exact List.append_nil _
  | received _ _ undelivered =>
      rw [undelivered]
      exact List.append_nil _
  | stopped handles _ _ undelivered _ silent =>
      rw [Move.made?_eq_none handles.isAct, silent, undelivered]
      exact List.append_nil _
  | started handles _ _ _ _ _ undelivered _ silent =>
      rw [Move.made?_eq_none handles.isAct, silent, undelivered]
      exact List.append_nil _
  | @acted index act _ _ _ _ _ _ silent _ _ undelivered _ quiet =>
      have unmade : (Move.act index act).made? = none := by
        cases act with
        | report => cases silent
        | _ => rfl
      rw [unmade, quiet, undelivered]
      exact List.append_nil _
  | reported _ _ _ _ _ undelivered =>
      rw [undelivered]
      cases hosting : executor.hosting with
      | background => rfl
      | inline =>
          rw [direct hosting]
          rfl
  | delivered _ _ undelivered =>
      rw [undelivered]
      exact List.append_nil _
  | closed _ _ undelivered =>
      rw [undelivered]
      exact List.append_nil _

/-- A report that is heard was just made, or it had waited for delivery. -/
theorem Effect.brought
    {report : Report}
    (effect : Effect executor move next)
    (brought : move.report? executor.hosting = some report) :
    (∃ engine after, executor.AtWork engine ∧ Engine.Step engine (.report report) after) ∨
      report ∈ executor.undelivered := by
  cases effect with
  | calm _ _ _ _ silent => cases silent.symm.trans brought
  | received => cases brought
  | stopped _ _ _ _ _ silent => cases silent.symm.trans brought
  | started _ _ _ _ _ _ _ _ silent => cases silent.symm.trans brought
  | acted _ _ _ _ _ _ _ _ quiet => cases quiet.symm.trans brought
  | closed => cases brought
  | reported _ working step =>
      obtain rfl := Move.report?_report brought
      exact .inl ⟨_, _, working, step⟩
  | delivered _ _ undelivered =>
      cases brought
      refine .inr ?_
      rw [undelivered]
      exact List.mem_cons_self

/-- So an inline executor never has a report to deliver. -/
theorem Effect.direct
    (effect : Effect executor move next)
    (hosting : next.hosting = executor.hosting)
    (direct : executor.Direct) :
    next.Direct := by
  intro inlined
  have before := direct (hosting.symm.trans inlined)
  cases effect with
  | calm _ _ undelivered => exact undelivered.trans before
  | received _ _ undelivered => exact undelivered.trans before
  | stopped _ _ _ undelivered => exact undelivered.trans before
  | started _ _ _ _ _ _ undelivered => exact undelivered.trans before
  | acted _ _ _ _ _ _ undelivered => exact undelivered.trans before
  | closed _ _ undelivered => exact undelivered.trans before
  | reported _ _ _ _ _ undelivered =>
      rw [undelivered, hosting.symm.trans inlined]
      exact before
  | delivered _ _ undelivered =>
      rw [before] at undelivered
      cases undelivered

/-! ## Engines at work -/

theorem Working.of_runs
    {other : Executor}
    {index : Nat}
    {engine : Engine}
    (working : next.Working index engine)
    (runs : next.runs = other.runs) :
    other.Working index engine := by
  obtain ⟨run, found, rest⟩ := working
  exact ⟨run, runs ▸ found, rest⟩

/-- What neither starts a run nor changes an engine leaves no more engines at work. -/
theorem Working.of_modifyRun
    {index other : Nat}
    {change : Run → Run}
    {engine : Engine}
    (working : (executor.modifyRun index change).Working other engine)
    (same : ∀ run : Run, (change run).engine = run.engine)
    (alive : ∀ run : Run, (change run).fate = .running → run.fate = .running) :
    executor.Working other engine := by
  obtain ⟨run, found, running, rfl, going⟩ := working
  obtain ⟨before, member, rfl⟩ := run_of_modifyRun found
  refine ⟨before, member, ?_, ?_, going⟩
  · split at running
    · exact alive before running
    · exact running
  · split
    · exact (same before).symm
    · rfl

theorem atWork_of_modifyRun
    {index : Nat}
    {change : Run → Run}
    {engine : Engine}
    (same : ∀ run : Run, (change run).engine = run.engine)
    (alive : ∀ run : Run, (change run).fate = .running → run.fate = .running)
    (atWork : (executor.modifyRun index change).AtWork engine) :
    executor.AtWork engine := by
  obtain ⟨other, working⟩ := atWork
  exact ⟨other, Working.of_modifyRun working same alive⟩

/-- Whoever is at work once the holder of the slot was told to stop was at work before. -/
theorem Working.of_stopHolder
    {index : Nat}
    {after : Engine}
    (working : executor.stopHolder.Working index after) :
    ∃ before,
      executor.Working index before ∧
        after = if executor.holder = some index then before.requestStop else before := by
  obtain ⟨run, found, running, rfl, going⟩ := working
  unfold stopHolder at found
  cases held : executor.holder with
  | none =>
      rw [held] at found
      exact ⟨run.engine, ⟨run, found, running, rfl, going⟩, rfl⟩
  | some slot =>
      rw [held] at found
      obtain ⟨before, member, rfl⟩ := run_of_modifyRun found
      by_cases same : slot = index
      · rw [if_pos same] at running going ⊢
        exact ⟨before.engine, ⟨before, member, running, rfl, going⟩, by rw [if_pos (same ▸ rfl)]⟩
      · rw [if_neg same] at running going ⊢
        refine ⟨before.engine, ⟨before, member, running, rfl, going⟩, ?_⟩
        rw [if_neg fun here => same (Option.some.inj here)]

theorem AtWork.going
    {engine : Engine}
    (working : executor.AtWork engine) :
    engine.hasEnded = false := by
  obtain ⟨_, _, _, _, _, going⟩ := working
  exact going

/-- While the slot of an open executor is free no engine is at work. -/
theorem OneTransfer.idle
    {engine : Engine}
    (one : OneTransfer executor)
    (working : executor.closed = false)
    (vacant : executor.Vacant) :
    ¬ executor.AtWork engine := by
  rintro ⟨index, run, found, running, _⟩
  exact one.idle_of_vacant working vacant found running

/-- After the engine at work has done something it is the only one at work. -/
theorem OneTransfer.atWork_of_act
    {index : Nat}
    {run : Run}
    {after engine : Engine}
    (one : OneTransfer executor)
    (found : executor.runs[index]? = some run)
    (running : run.fate = .running)
    (working : (executor.modifyEngine index fun _ => after).AtWork engine) :
    engine = after := by
  obtain ⟨other, changed, member, alive, rfl, _⟩ := working
  obtain ⟨before, earlier, rfl⟩ := run_of_modifyRun member
  by_cases same : index = other
  · rw [if_pos same]
  · rw [if_neg same] at alive
    have last := one.newest found running
    have also := one.newest earlier alive
    omega

theorem effect_of_synced
    {snapshot : Snapshot}
    {rest : List Snapshot}
    (one : OneTransfer executor)
    (working : executor.closed = false)
    (handles : executor.Handles move snapshot)
    (silent : move.report? executor.hosting = none)
    (still : move.isAct = false)
    (left : rest <:+ executor.requests)
    (synced : Synced { executor with requests := rest } snapshot next) :
    Effect executor move next := by
  cases synced with
  | quiet failed slot => exact .calm id left rfl rfl silent still
  | @stopped holding held _ _ unwanted =>
      have engines : ∀ {engine : Engine},
          (stopHolder { executor with requests := rest }).AtWork engine →
            ∃ before,
              executor.AtWork before ∧ engine = before.requestStop ∧
                keeps snapshot before.path = false := by
        rintro engine ⟨index, atWork⟩
        obtain ⟨_, ⟨run, found, running, rfl, going⟩, told⟩ := Working.of_stopHolder atWork
        -- Whatever runs in an open executor holds the slot, so it is the run that was stopped.
        have slot : executor.holder = some index := one.holder_of_running working found running
        have holder : executor.holder? = some run := by
          simp only [holder?, slot, Option.bind_some]
          exact found
        obtain rfl : run = holding := Option.some.inj (holder.symm.trans held)
        rw [if_pos slot] at told
        exact ⟨run.engine, ⟨index, run, found, running, rfl, going⟩, told, unwanted⟩
      obtain ⟨_, stopped⟩ := stopHolder_frame { executor with requests := rest }
      rw [stopped] at engines ⊢
      exact .stopped handles engines left rfl rfl silent
  | started vacant first current =>
      have idle : ∀ {engine : Engine}, ¬ executor.AtWork engine := one.idle working vacant
      refine .started handles idle first current ?_ left rfl rfl silent
      rintro engine ⟨index, run, found, running, rfl, going⟩
      rcases run_of_launch found with earlier | ⟨_, rfl⟩
      · exact absurd ⟨index, run, earlier, running, rfl, going⟩ idle
      · rfl

theorem effect_of_act
    {index : Nat}
    {run : Run}
    {act : Engine.Act}
    {after : Engine}
    (one : OneTransfer executor)
    (found : executor.runs[index]? = some run)
    (running : run.fate = .running)
    (step : Engine.Step run.engine act after) :
    Effect executor (.act index act) ((executor.modifyEngine index fun _ => after).hear act) := by
  have acting : executor.engine? index = some run.engine := by
    rw [engine?, found]
    rfl
  have working : executor.AtWork run.engine := ⟨index, run, found, running, rfl, step.not_ended⟩
  have only : ∀ {engine : Engine},
      ((executor.modifyEngine index fun _ => after).hear act).AtWork engine → engine = after := by
    intro engine atWork
    obtain ⟨_, _, heard⟩ := hear_frame (executor.modifyEngine index fun _ => after) act
    rw [heard] at atWork
    exact one.atWork_of_act found running atWork
  cases act with
  | report report =>
      have heard :
          (executor.modifyEngine index fun _ => after).hear (.report report) = _ :=
        emit_eq (executor.modifyEngine index fun _ => after) report
      refine .reported acting working step only ?_ ?_ ?_
      · rw [heard]
        rfl
      · rw [heard]
        unfold undelivered
        cases hosting : executor.hosting with
        | background =>
            have same : (executor.modifyEngine index fun _ => after).hosting = .background :=
              hosting
            simp only [same, List.filterMap_append]
            rfl
        | inline =>
            have same : (executor.modifyEngine index fun _ => after).hosting = .inline := hosting
            simp only [same]
            rfl
      · rw [heard]
        rfl
  | create | read | chunk | status | check | wait =>
      exact .acted acting working step rfl only rfl rfl rfl rfl

theorem Step.effect
    (one : OneTransfer executor)
    (step : Step executor move next) :
    Effect executor move next := by
  cases step with
  | send snapshot =>
      unfold receive
      split
      case h_1 =>
          unfold enqueue
          split
          · exact .calm id (List.suffix_refl _) rfl rfl rfl rfl
          · exact .received id rfl rfl rfl
      case h_2 inlined =>
          exact effect_of_synced one (one.open_of_inline inlined) (.inlined inlined) rfl rfl
            (List.suffix_refl _) (synced_sync executor snapshot)
  | handle hosted working =>
      unfold handleNext
      split
      case h_1 => exact .calm id (List.suffix_refl _) rfl rfl rfl rfl
      case h_2 snapshot rest waiting =>
          have left : rest <:+ executor.requests := by
            rw [waiting]
            exact List.suffix_cons _ _
          exact effect_of_synced one working (.queued hosted waiting) rfl rfl left
            (synced_sync _ snapshot)
  | act found running step => exact effect_of_act one found running step
  | panic =>
      refine .calm ?_ (List.suffix_refl _) rfl rfl rfl rfl
      exact atWork_of_modifyRun (fun _ => rfl) (by rintro _ ⟨⟩)
  | @finish index run found running ended =>
      have settled : ∀ {engine : Engine},
          (executor.settle index .returned).AtWork engine → executor.AtWork engine :=
        atWork_of_modifyRun (fun _ => rfl) (by rintro _ ⟨⟩)
      obtain ⟨_, concluded⟩ := conclude_frame executor index run.engine.path
      rw [concluded]
      exact .calm settled (List.suffix_refl _) rfl rfl rfl rfl
  | @notice index _ hosted found =>
      have known : ∀ {engine : Engine},
          (executor.modifyRun index fun run => { run with noticed := true }).AtWork engine →
            executor.AtWork engine :=
        atWork_of_modifyRun (fun _ => rfl) (fun _ running => running)
      unfold Executor.notice
      simp only [found]
      split
      · refine .calm known (List.suffix_refl _) ?_ rfl rfl rfl
        unfold undelivered
        rw [List.filterMap_append]
        exact List.append_nil _
      · exact .calm known (List.suffix_refl _) rfl rfl rfl rfl
  | @deliver _ event taken =>
      obtain ⟨waiting, events, rfl⟩ := takeEvent_eq_some taken
      cases event with
      | progress report =>
          refine .delivered id rfl ?_ rfl
          unfold undelivered
          rw [events]
          rfl
      | failure message =>
          refine .calm id (List.suffix_refl _) ?_ rfl rfl rfl
          unfold undelivered
          rw [events]
          rfl
  | shutDown =>
      obtain ⟨_, asked⟩ := requestShutdown_frame executor
      rw [asked]
      exact .calm id (List.suffix_refl _) rfl rfl rfl rfl
  | close =>
      have engines : ∀ {engine : Engine}, executor.close.AtWork engine →
          ∃ before, executor.AtWork before ∧ (engine = before ∨ engine = before.requestStop) := by
        rintro engine ⟨index, atWork⟩
        have stopped : executor.stopHolder.Working index engine := atWork
        obtain ⟨before, working, told⟩ := stopped.of_stopHolder
        refine ⟨before, ⟨index, working⟩, ?_⟩
        split at told
        · exact .inr told
        · exact .inl told
      unfold Executor.close at engines ⊢
      obtain ⟨_, stopped⟩ := stopHolder_frame executor
      rw [stopped] at engines ⊢
      exact .closed engines rfl rfl rfl

end Executor

end ResumableUpload
