import ResumableUpload.Proofs.Executor.Effects

/-!
# Which engines are started, and which go on

`Touches` says what becomes of the runs in each move.  `Executor.started` lists the paths of all
engines that an executor has started, in order.  A move starts at most one engine, from the snapshot
that it handles (`Step.launches`).  An engine at work goes on until it panics or makes its final report
(`Step.busy`), so a path does not become idle unnoticed.
-/

namespace ResumableUpload

namespace Executor

variable {executor next : Executor} {move : Move} {path : String}

/-- The paths of the engines that were started, in order. -/
def started (executor : Executor) : List String :=
  executor.runs.map (·.engine.path)

/-- Which file was sent to which path, engine by engine. -/
def files (executor : Executor) : List (String × Nat) :=
  executor.runs.map fun run => (run.engine.path, run.engine.file.identity)

/-- An engine of the path is at work. -/
def Busy (executor : Executor) (path : String) : Prop :=
  ∃ engine, executor.AtWork engine ∧ engine.path = path

/-- The engine that an executor starts for an entry. -/
def runOf (executor : Executor) (entry : Entry) (file : FileHandle) : Run :=
  ⟨(Engine.new executor.tuning entry.path file entry.uploaded).start, .running, false⟩

/-! ## What a move does to the runs -/

/-- What a move does to the runs: nothing, something to one of them, or one more is started. -/
inductive Touches (executor : Executor) : Move → Executor → Prop where
  | untouched {move : Move} {next : Executor}
      (still : move.isAct = false)
      (runs : next.runs = executor.runs) :
      Touches executor move next
  | acted {index : Nat} {run : Run} {act : Engine.Act} {engine : Engine} {next : Executor}
      (found : executor.runs[index]? = some run)
      (running : run.fate = .running)
      (step : Engine.Step run.engine act engine)
      (runs : next.runs = (executor.modifyEngine index fun _ => engine).runs) :
      Touches executor (.act index act) next
  | told {move : Move} {next : Executor}
      (still : move.isAct = false)
      (runs : next.runs = executor.stopHolder.runs) :
      Touches executor move next
  | panicked {index : Nat} {next : Executor}
      (runs : next.runs = (executor.settle index .panicked).runs) :
      Touches executor (.panic index) next
  | returned {index : Nat} {run : Run} {move : Move} {next : Executor}
      (still : move.isAct = false)
      (found : executor.runs[index]? = some run)
      (running : run.fate = .running)
      (ended : run.engine.hasEnded = true)
      (runs : next.runs = (executor.settle index .returned).runs) :
      Touches executor move next
  | noticed {index : Nat} {move : Move} {next : Executor}
      (still : move.isAct = false)
      (runs :
        next.runs = (executor.modifyRun index fun run => { run with noticed := true }).runs) :
      Touches executor move next
  | launched {move : Move} {next : Executor} {snapshot : Snapshot} {entry : Entry}
      {file : FileHandle}
      (handles : executor.Handles move snapshot)
      (first : snapshot.next? = some (entry, file))
      (current : executor.emitted ≤ snapshot.reportsSeen)
      (runs : next.runs = executor.runs ++ [executor.runOf entry file]) :
      Touches executor move next

theorem touches_of_synced
    {snapshot : Snapshot}
    {rest : List Snapshot}
    (handles : executor.Handles move snapshot)
    (synced : Synced { executor with requests := rest } snapshot next) :
    Touches executor move next := by
  cases synced with
  | quiet => exact .untouched handles.isAct rfl
  | stopped =>
      apply Touches.told handles.isAct
      unfold stopHolder
      cases executor.holder <;> rfl
  | started _ first current => exact .launched handles first current rfl

theorem Step.touches (step : Step executor move next) : Touches executor move next := by
  cases step with
  | send snapshot =>
      unfold receive
      split
      case h_1 =>
          obtain ⟨_, waiting⟩ := enqueue_frame executor snapshot
          rw [waiting]
          exact .untouched rfl rfl
      case h_2 inlined => exact touches_of_synced (.inlined inlined) (synced_sync executor snapshot)
  | handle hosted =>
      unfold handleNext
      split
      case h_1 => exact .untouched rfl rfl
      case h_2 snapshot rest waiting =>
          exact touches_of_synced (.queued hosted waiting) (synced_sync _ snapshot)
  | @act index _ act engine found running step =>
      obtain ⟨_, _, heard⟩ := hear_frame (executor.modifyEngine index fun _ => engine) act
      rw [heard]
      exact .acted found running step rfl
  | panic => exact .panicked rfl
  | @finish index run found running ended =>
      obtain ⟨_, concluded⟩ := conclude_frame executor index run.engine.path
      rw [concluded]
      exact .returned rfl found running ended rfl
  | notice _ found =>
      obtain ⟨_, noticed⟩ := notice_frame found
      rw [noticed]
      exact .noticed rfl rfl
  | deliver taken =>
      obtain ⟨_, _, rfl⟩ := takeEvent_eq_some taken
      exact .untouched rfl rfl
  | shutDown =>
      obtain ⟨_, asked⟩ := requestShutdown_frame executor
      rw [asked]
      exact .untouched rfl rfl
  | close => exact .told rfl rfl

/-! ## Starts -/

theorem started_congr (runs : next.runs = executor.runs) : next.started = executor.started :=
  congrArg (List.map _) runs

theorem started_modifyRun
    {index : Nat}
    {change : Run → Run}
    (same :
      ∀ {run : Run}, executor.runs[index]? = some run →
        (change run).engine.path = run.engine.path) :
    (executor.modifyRun index change).started = executor.started := by
  apply List.ext_getElem?
  intro other
  simp only [started, modifyRun, List.getElem?_map, List.getElem?_modify]
  cases found : executor.runs[other]? with
  | none => rfl
  | some run =>
      by_cases here : index = other
      · subst here
        simp [same found]
      · simp [here]

theorem started_stopHolder (executor : Executor) :
    executor.stopHolder.started = executor.started := by
  rcases stopHolder_cases executor with same | ⟨index, _, stopped⟩
  · rw [same]
  · rw [stopped]
    exact started_modifyRun fun _ => rfl

theorem started_of_runs
    {entry : Entry}
    {file : FileHandle}
    (runs : next.runs = executor.runs ++ [executor.runOf entry file]) :
    next.started = executor.started ++ [entry.path] := by
  unfold started
  rw [runs, List.map_append]
  rfl

/-- An engine that was just started is at work. -/
theorem busy_of_runs
    {entry : Entry}
    {file : FileHandle}
    (runs : next.runs = executor.runs ++ [executor.runOf entry file])
    (here : entry.path = path) :
    next.Busy path := by
  refine ⟨_, ⟨executor.runs.length, executor.runOf entry file, ?_, rfl, rfl, rfl⟩, here⟩
  rw [runs]
  exact List.getElem?_concat_length

/-- A move starts no engine, or one from the snapshot that it handles. -/
inductive Launches (executor : Executor) (move : Move) (next : Executor) : Prop where
  | none (same : next.started = executor.started)
  | one {snapshot : Snapshot} {entry : Entry} {file : FileHandle}
      (handles : executor.Handles move snapshot)
      (first : snapshot.next? = some (entry, file))
      (current : executor.emitted ≤ snapshot.reportsSeen)
      (runs : next.runs = executor.runs ++ [executor.runOf entry file])

/-- A move starts at most one engine, for the first entry that may be given the slot. -/
theorem Step.launches (step : Step executor move next) : Launches executor move next := by
  cases step.touches with
  | untouched _ runs => exact .none (started_congr runs)
  | acted found _ acts runs =>
      refine .none ((started_congr runs).trans (started_modifyRun ?_))
      intro other here
      cases found.symm.trans here
      exact acts.path_eq
  | told _ runs => exact .none ((started_congr runs).trans (started_stopHolder executor))
  | panicked runs => exact .none ((started_congr runs).trans (started_modifyRun fun _ => rfl))
  | returned _ _ _ _ runs => exact .none ((started_congr runs).trans (started_modifyRun fun _ => rfl))
  | noticed _ runs => exact .none ((started_congr runs).trans (started_modifyRun fun _ => rfl))
  | launched handles first current runs => exact .one handles first current runs

/-- If one more file is sent, it is what the snapshot that is handled puts first. -/
theorem Step.launches_of_files
    {identity : Nat}
    (step : Step executor move next)
    (grown : next.files = executor.files ++ [(path, identity)]) :
    ∃ snapshot entry file,
      executor.Handles move snapshot ∧ snapshot.next? = some (entry, file) ∧
        executor.emitted ≤ snapshot.reportsSeen ∧
        next.runs = executor.runs ++ [executor.runOf entry file] ∧
        entry.path = path ∧ file.identity = identity := by
  cases step.launches with
  | none same =>
      have before := congrArg List.length same
      have after := congrArg List.length grown
      simp only [started, files, List.length_map, List.length_append, List.length_singleton]
        at before after
      omega
  | @one snapshot entry file handles first current runs =>
      rw [files, runs, List.map_append] at grown
      have last := List.singleton_inj.mp (List.append_cancel_left grown)
      exact ⟨snapshot, entry, file, handles, first, current, runs, congrArg Prod.fst last,
        congrArg Prod.snd last⟩

/-- When an engine is started none is at work. -/
theorem Step.idle_of_longer
    {engine : Engine}
    (step : Step executor move next)
    (one : OneTransfer executor)
    (longer : executor.runs.length < next.runs.length) :
    ¬ executor.AtWork engine := by
  rintro ⟨index, run, found, running, _⟩
  rcases step.length one with same | ⟨_, working, vacant⟩
  · omega
  · exact one.idle_of_vacant working vacant found running

/-- What was started stays listed. -/
theorem Step.started_prefix (step : Step executor move next) :
    executor.started <+: next.started := by
  cases step.launches with
  | none same => exact same ▸ List.prefix_refl _
  | one _ _ _ runs =>
      unfold started
      rw [runs, List.map_append]
      exact List.prefix_append _ _

/-- An engine that does something is one of those that were started. -/
theorem started_of_engine?
    {index : Nat}
    {engine : Engine}
    (found : executor.engine? index = some engine) :
    executor.started[index]? = some engine.path := by
  obtain ⟨run, member, rfl⟩ := Option.map_eq_some_iff.mp found
  unfold started
  rw [List.getElem?_map, member]
  rfl

/-! ## Going on -/

theorem Busy.modifyRun
    {index : Nat}
    {change : Run → Run}
    (busy : executor.Busy path)
    (going :
      ∀ {run : Run},
        executor.runs[index]? = some run → run.fate = .running → run.engine.hasEnded = false →
          run.engine.path = path →
            (change run).fate = .running ∧ (change run).engine.hasEnded = false ∧
              (change run).engine.path = path) :
    (executor.modifyRun index change).Busy path := by
  obtain ⟨_, ⟨other, run, found, running, rfl, unended⟩, here⟩ := busy
  by_cases same : index = other
  · subst same
    obtain ⟨alive, still, about⟩ := going found running unended here
    refine ⟨_, ⟨index, change run, ?_, alive, rfl, still⟩, about⟩
    simp [Executor.modifyRun, found]
  · refine ⟨_, ⟨other, run, ?_, running, rfl, unended⟩, here⟩
    simp [Executor.modifyRun, found, same]

theorem Busy.stopHolder (busy : executor.Busy path) : executor.stopHolder.Busy path := by
  rcases stopHolder_cases executor with same | ⟨index, _, stopped⟩
  · rw [same]
    exact busy
  · rw [stopped]
    exact busy.modifyRun fun _ running unended here => ⟨running, unended, here⟩

theorem Busy.of_runs
    (busy : executor.Busy path)
    (runs : next.runs = executor.runs) :
    next.Busy path := by
  obtain ⟨engine, ⟨index, run, found, working⟩, here⟩ := busy
  exact ⟨engine, ⟨index, run, runs ▸ found, working⟩, here⟩

theorem Busy.append
    {further : List Run}
    (busy : executor.Busy path)
    (runs : next.runs = executor.runs ++ further) :
    next.Busy path := by
  obtain ⟨engine, ⟨index, run, found, working⟩, here⟩ := busy
  refine ⟨engine, ⟨index, run, ?_, working⟩, here⟩
  rw [runs]
  exact List.getElem?_append_left (List.getElem?_eq_some_iff.mp found).1 ▸ found

/-- A move after which nobody works on a path any more. -/
inductive Rests (path : String) : Move → Prop where
  | panic (index : Nat) : Rests path (.panic index)
  | report {index : Nat} {report : Report}
      (about : report.path = path)
      (last : report.runnable = false) :
      Rests path (.act index (.report report))

/-- An engine goes on until it panics or makes its final report. -/
theorem Step.busy
    (step : Step executor move next)
    (busy : executor.Busy path) :
    next.Busy path ∨ Rests path move := by
  cases step.touches with
  | untouched _ runs => exact .inl (busy.of_runs runs)
  | @acted index run act engine _ found _ acts runs =>
      by_cases resting : Rests path (.act index act)
      · exact .inr resting
      · refine .inl (Busy.of_runs (busy.modifyRun ?_) runs)
        intro state member alive _ here
        cases found.symm.trans member
        refine ⟨alive, ?_, acts.path_eq.trans here⟩
        -- If the engine had ended, it would have made its final report.
        rw [Bool.eq_false_iff]
        intro ended
        obtain ⟨report, rfl, about, last⟩ := acts.ends ended
        exact resting (.report (about.trans here) last)
  | told _ runs => exact .inl (busy.stopHolder.of_runs runs)
  | panicked => exact .inr (.panic _)
  | returned _ found _ ended runs =>
      refine .inl (Busy.of_runs (busy.modifyRun ?_) runs)
      intro state member _ going _
      cases found.symm.trans member
      cases ended.symm.trans going
  | noticed _ runs =>
      refine .inl (Busy.of_runs (busy.modifyRun ?_) runs)
      intro state _ alive going here
      exact ⟨alive, going, here⟩
  | launched _ _ _ runs => exact .inl (busy.append runs)

end Executor

end ResumableUpload
