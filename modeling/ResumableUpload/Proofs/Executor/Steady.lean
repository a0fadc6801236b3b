import ResumableUpload.Proofs.Executor.Flight

/-!
# Background executors that nothing happens to

An open background executor none of whose engines has panicked is `Steady`, and its own tasks keep it
so.  `Does` says what it can do next; there is nothing else (`Steady.does`).  `Works` names the engine
that is at work, and `unfinished` counts what is yet to be done about the engines that were started.
-/

namespace ResumableUpload.Executor

variable {executor next : Executor} {move : Move} {snapshot : Snapshot} {slot : Option Engine}

/-- An open background executor none of whose engines has panicked. -/
structure Steady (executor : Executor) : Prop where
  hosted : executor.hosting = .background
  working : executor.closed = false
  one : OneTransfer executor
  unmarked : executor.failed = none
  unharmed : ∀ run ∈ executor.runs, run.fate ≠ .panicked
  /-- Every event is a report. -/
  told : executor.events = executor.undelivered.map .progress

theorem Steady.start (tuning : Tuning) : Steady { hosting := .background, tuning := tuning } where
  hosted := rfl
  working := rfl
  one := .start .background tuning
  unmarked := rfl
  unharmed := nofun
  told := rfl

/-- What a steady executor does in a task. -/
inductive Does (executor : Executor) : Move → Executor → Prop where
  /-- The worker finds no snapshot. -/
  | finds (handled : executor.requests = []) : Does executor .handle executor
  /-- The worker handles a snapshot that changes nothing; a slot that can be had may be freed. -/
  | passes {snapshot : Snapshot} {rest : List Snapshot} {holder : Option Nat}
      (waits : executor.requests = snapshot :: rest)
      (spent :
        executor.Vacant → executor.emitted ≤ snapshot.reportsSeen → snapshot.next? = none) :
      Does executor .handle { executor with requests := rest, holder := holder }
  /-- The worker tells the engine in the slot to stop. -/
  | stops {snapshot : Snapshot} {rest : List Snapshot} {run : Run}
      (waits : executor.requests = snapshot :: rest)
      (held : executor.holder? = some run)
      (unnoticed : run.noticed = false)
      (unwanted : keeps snapshot run.engine.path = false) :
      Does executor .handle (stopHolder { executor with requests := rest })
  /-- The worker gives the slot to a new engine. -/
  | starts {snapshot : Snapshot} {rest : List Snapshot} {entry : Entry} {file : FileHandle}
      (waits : executor.requests = snapshot :: rest)
      (vacant : executor.Vacant)
      (first : snapshot.next? = some (entry, file))
      (current : executor.emitted ≤ snapshot.reportsSeen) :
      Does executor .handle (launch { executor with requests := rest } entry file)
  | acts {index : Nat} {run : Run} {act : Engine.Act} {engine : Engine}
      (found : executor.runs[index]? = some run)
      (running : run.fate = .running)
      (step : Engine.Step run.engine act engine) :
      Does executor (.act index act) ((executor.modifyEngine index fun _ => engine).hear act)
  | returns {index : Nat} {run : Run}
      (found : executor.runs[index]? = some run)
      (running : run.fate = .running)
      (ended : run.engine.hasEnded = true) :
      Does executor (.finish index) (executor.settle index .returned)
  | notices {index : Nat} {run : Run}
      (found : executor.runs[index]? = some run)
      (atRest : run.fate ≠ .running)
      (unnoticed : run.noticed = false) :
      Does executor (.notice index)
        (executor.modifyRun index fun run => { run with noticed := true })
  | delivers {report : Report} {rest : List Report}
      (waits : executor.undelivered = report :: rest) :
      Does executor (.deliver (.progress report))
        { executor with events := rest.map .progress }

/-! ## Nothing else is done -/

/-- Freeing the slot of a steady executor leaves no mark. -/
theorem Steady.reap_eq (steady : executor.Steady) :
    ∃ holder, executor.reap = { executor with holder := holder } := by
  unfold reap
  split
  case h_1 run held =>
      obtain ⟨index, _, found⟩ := Option.bind_eq_some_iff.mp held
      have unharmed := steady.unharmed run (List.mem_of_getElem? found)
      split
      case isTrue => exact ⟨none, rfl⟩
      case isFalse => exact ⟨executor.holder, rfl⟩
  case h_2 => exact ⟨executor.holder, rfl⟩

/-- A steady executor whose slot can be had starts the first entry of a snapshot, if it is not late. -/
theorem Steady.sync_of_vacant
    (steady : executor.Steady)
    (vacant : executor.Vacant)
    (snapshot : Snapshot) :
    (∃ holder,
        (executor.sync snapshot).1 = { executor with holder := holder } ∧
          (executor.emitted ≤ snapshot.reportsSeen → snapshot.next? = none)) ∨
      ∃ entry file,
        snapshot.next? = some (entry, file) ∧ executor.emitted ≤ snapshot.reportsSeen ∧
          (executor.sync snapshot).1 = executor.launch entry file := by
  obtain ⟨holder, freed⟩ := steady.reap_eq
  have clear : { executor with holder := holder, failed := none } =
      { executor with holder := holder } := by
    rw [← steady.unmarked]
  rw [Executor.sync_of_vacant vacant]
  cases first : snapshot.next? with
  | none =>
      simp only [fill, first]
      exact .inl ⟨holder, freed, fun _ => trivial⟩
  | some chosen =>
      obtain ⟨entry, file⟩ := chosen
      have spared : executor.reap.failed ≠ some (entry.path, file.identity) := by
        rw [freed]
        simp only [steady.unmarked, ne_eq, reduceCtorEq, not_false_eq_true]
      have same : executor.reap.emitted = executor.emitted := by rw [freed]
      by_cases current : executor.emitted ≤ snapshot.reportsSeen
      · rw [fill_of_spared first (same ▸ current) spared, freed, clear]
        exact .inr ⟨entry, file, rfl, current, rfl⟩
      · have late : snapshot.reportsSeen < executor.reap.emitted :=
          same ▸ Nat.lt_of_not_le current
        simp only [fill, first, spared, ↓reduceIte, late]
        exact .inl ⟨holder, by rw [freed, clear], fun seen => absurd seen current⟩

/-- While an engine holds the slot nothing starts. -/
theorem sync_of_held
    {run : Run}
    (held : executor.holder? = some run)
    (unnoticed : run.noticed = false)
    (snapshot : Snapshot) :
    (executor.sync snapshot).1 = executor ∨
      keeps snapshot run.engine.path = false ∧
        (executor.sync snapshot).1 = executor.stopHolder := by
  have same : executor.reap = executor := by
    simp only [reap, held, unnoticed, Bool.false_eq_true, ↓reduceIte]
  simp only [sync, same, held]
  split
  case isTrue => exact .inl rfl
  case isFalse unwanted =>
      simp only [Bool.or_eq_true, not_or, Bool.not_eq_true] at unwanted
      exact .inr ⟨unwanted.2, rfl⟩

theorem Steady.does_of_handle
    {rest : List Snapshot}
    (steady : executor.Steady)
    (waits : executor.requests = snapshot :: rest) :
    Does executor .handle (sync { executor with requests := rest } snapshot).1 := by
  have left : Steady { executor with requests := rest } :=
    ⟨steady.hosted, steady.working, steady.one.congr rfl rfl rfl rfl, steady.unmarked,
      steady.unharmed, steady.told⟩
  have slot : executor.Vacant ∨
      ∃ run, executor.holder? = some run ∧ run.noticed = false := by
    cases held : executor.holder? with
    | none => exact .inl (vacant_of_free held)
    | some run =>
        cases noticed : run.noticed with
        | false => exact .inr ⟨run, rfl, noticed⟩
        | true =>
            refine .inl fun other found => ?_
            cases held.symm.trans found
            exact noticed
  rcases slot with vacant | ⟨run, held, unnoticed⟩
  · rcases left.sync_of_vacant vacant snapshot with
      ⟨holder, passed, spent⟩ | ⟨entry, file, first, current, launched⟩
    · rw [passed]
      exact .passes waits fun _ => spent
    · rw [launched]
      exact .starts waits vacant first current
  · have holds : holder? { executor with requests := rest } = some run := held
    rcases sync_of_held holds unnoticed snapshot with same | ⟨unwanted, stopped⟩
    · rw [same]
      refine .passes waits fun free => ?_
      cases unnoticed.symm.trans (free run held)
    · rw [stopped]
      exact .stops waits held unnoticed unwanted

/-- A steady executor does nothing else. -/
theorem Steady.does
    (steady : executor.Steady)
    (step : Step executor move next)
    (task : move.isTask = true) :
    Does executor move next := by
  cases step with
  | handle =>
      unfold handleNext
      split
      case h_1 handled => exact .finds handled
      case h_2 waits => exact steady.does_of_handle waits
  | act found running step => exact .acts found running step
  | @finish index run found running ended =>
      unfold conclude
      rw [steady.hosted]
      exact .returns found running ended
  | @notice index run _ found atRest unnoticed =>
      have unharmed := steady.unharmed run (List.mem_of_getElem? found)
      simp only [Executor.notice, found, unharmed, ↓reduceIte]
      exact .notices found atRest unnoticed
  | deliver taken =>
      obtain ⟨_, waits, rfl⟩ := takeEvent_eq_some taken
      obtain ⟨report, rest, waiting, rfl, rfl⟩ :=
        List.map_eq_cons_iff.mp (steady.told.symm.trans waits)
      exact .delivers waiting
  | send | panic | shutDown | close => cases task

/-! ## The engine at work -/

/-- The engine that is at work, if there is one. -/
def Works (executor : Executor) (slot : Option Engine) : Prop :=
  ∀ engine, executor.AtWork engine ↔ slot = some engine

namespace Works

theorem of_runs
    (works : executor.Works slot)
    (runs : next.runs = executor.runs) :
    next.Works slot := by
  intro engine
  rw [← works engine]
  unfold AtWork
  rw [runs]

/-- A run whose engine does nothing any more can be changed in anything but that. -/
theorem modifyRun
    {index : Nat}
    {run : Run}
    (works : executor.Works slot)
    (change : Run → Run)
    (found : executor.runs[index]? = some run)
    (done : run.fate = .running → run.engine.hasEnded = true)
    (same : (change run).engine.hasEnded = run.engine.hasEnded)
    (alive : (change run).fate = .running → run.fate = .running) :
    (executor.modifyRun index change).Works slot := by
  intro engine
  rw [← works engine]
  constructor
  · rintro ⟨other, _, member, running, rfl, going⟩
    obtain ⟨before, earlier, rfl⟩ := run_of_modifyRun member
    by_cases here : index = other
    · subst here
      cases found.symm.trans earlier
      rw [if_pos rfl] at running going
      rw [same, done (alive running)] at going
      cases going
    · rw [if_neg here] at running going ⊢
      exact ⟨other, before, earlier, running, rfl, going⟩
  · rintro ⟨other, before, earlier, running, rfl, going⟩
    have elsewhere : index ≠ other := by
      rintro rfl
      cases found.symm.trans earlier
      cases going.symm.trans (done running)
    refine ⟨other, before, ?_, running, rfl, going⟩
    simp only [Executor.modifyRun, List.getElem?_modify, elsewhere, ↓reduceIte, Option.map_eq_map,
      earlier, Option.map_some]

/-- While no engine is at work it makes no difference that one is told to stop. -/
theorem stopHolder (idle : executor.Works none) : executor.stopHolder.Works none := by
  refine fun engine => ⟨?_, nofun⟩
  rintro ⟨index, working⟩
  obtain ⟨before, earlier, _⟩ := Working.of_stopHolder working
  cases (idle before).mp ⟨index, earlier⟩

/-- What the engine at work has become by something that it did, unless that was the last thing. -/
theorem acts
    {index : Nat}
    {run : Run}
    {after : Engine}
    (one : OneTransfer executor)
    (found : executor.runs[index]? = some run)
    (running : run.fate = .running) :
    (executor.modifyEngine index fun _ => after).Works
      (if after.hasEnded then none else some after) := by
  intro engine
  constructor
  · intro atWork
    obtain rfl := one.atWork_of_act found running atWork
    rw [if_neg (Bool.eq_false_iff.mp atWork.going)]
  · intro same
    split at same
    case isTrue => cases same
    case isFalse going =>
        cases same
        refine ⟨index, { run with engine := after }, ?_, running, rfl, Bool.eq_false_iff.mpr going⟩
        simp only [modifyEngine, Executor.modifyRun, List.getElem?_modify, found, ↓reduceIte,
          Option.map_eq_map, Option.map_some]

/-- An engine that was just started is at work. -/
theorem launch
    (idle : executor.Works none)
    (entry : Entry)
    (file : FileHandle) :
    (executor.launch entry file).Works (some (executor.runOf entry file).engine) := by
  intro engine
  constructor
  · rintro ⟨index, run, found, running, rfl, going⟩
    rcases run_of_launch found with earlier | ⟨_, rfl⟩
    · cases (idle run.engine).mp ⟨index, run, earlier, running, rfl, going⟩
    · rfl
  · rintro ⟨⟩
    exact ⟨executor.runs.length, executor.runOf entry file, List.getElem?_concat_length, rfl, rfl,
      rfl⟩

end Works

/-! ## What is kept -/

theorem mem_modifyRun
    {index : Nat}
    {change : Run → Run}
    {run : Run}
    (member : run ∈ (executor.modifyRun index change).runs) :
    run ∈ executor.runs ∨ ∃ before ∈ executor.runs, run = change before := by
  obtain ⟨other, found⟩ := List.mem_iff_getElem?.mp member
  obtain ⟨before, earlier, rfl⟩ := run_of_modifyRun found
  have among := List.mem_of_getElem? earlier
  split
  · exact .inr ⟨before, among, rfl⟩
  · exact .inl among

/-- No engine panics in a task. -/
theorem Does.unharmed
    (does : Does executor move next)
    (unharmed : ∀ run ∈ executor.runs, run.fate ≠ .panicked) :
    ∀ run ∈ next.runs, run.fate ≠ .panicked := by
  intro run member
  cases does with
  | finds | passes | delivers => exact unharmed run member
  | stops =>
      rcases stopHolder_cases { executor with requests := _ } with same | ⟨_, _, stopped⟩
      · rw [same] at member
        exact unharmed run member
      · rw [stopped] at member
        rcases mem_modifyRun member with earlier | ⟨before, earlier, rfl⟩
        · exact unharmed run earlier
        · exact unharmed before earlier
  | starts =>
      rcases List.mem_append.mp member with earlier | last
      · exact unharmed run earlier
      · cases List.mem_singleton.mp last
        nofun
  | @acts index _ act after =>
      obtain ⟨_, _, heard⟩ := hear_frame (executor.modifyEngine index fun _ => after) act
      rw [heard] at member
      rcases mem_modifyRun member with earlier | ⟨before, earlier, rfl⟩
      · exact unharmed run earlier
      · exact unharmed before earlier
  | returns =>
      rcases mem_modifyRun member with earlier | ⟨before, earlier, rfl⟩
      · exact unharmed run earlier
      · nofun
  | notices =>
      rcases mem_modifyRun member with earlier | ⟨before, earlier, rfl⟩
      · exact unharmed run earlier
      · exact unharmed before earlier

/-- A report that is made in the background waits behind the others. -/
theorem hear_of_background
    (hosted : executor.hosting = .background)
    (act : Engine.Act) :
    executor.hear act =
      { executor with
        emitted := executor.emitted + act.report?.toList.length
        events := executor.events ++ act.report?.toList.map .progress } := by
  cases act with
  | report report =>
      have heard : executor.hear (.report report) = executor.emit report := rfl
      rw [heard, emit_eq]
      simp only [hosted]
      rfl
  | create | read | chunk | status | check | wait =>
      simp only [hear, Engine.Act.report?, Option.toList_none, List.length_nil, Nat.add_zero,
        List.map_nil, List.append_nil]

theorem undelivered_of_events
    {reports : List Report}
    (told : executor.events = reports.map .progress) :
    executor.undelivered = reports := by
  unfold undelivered
  rw [told, List.filterMap_map]
  exact List.filterMap_some

theorem told_of_events
    {reports : List Report}
    (told : executor.events = reports.map .progress) :
    executor.events = executor.undelivered.map .progress := by
  rw [undelivered_of_events told, told]

/-- Every event is a report after a task as well. -/
theorem Does.told
    (does : Does executor move next)
    (hosted : executor.hosting = .background)
    (told : executor.events = executor.undelivered.map .progress) :
    next.events = next.undelivered.map .progress := by
  cases does with
  | finds | passes | starts | returns | notices => exact told
  | stops =>
      obtain ⟨_, stopped⟩ := stopHolder_frame { executor with requests := _ }
      rw [stopped]
      exact told
  | @acts index _ act after =>
      have begun : (executor.modifyEngine index fun _ => after).hosting = .background := hosted
      have same : (executor.modifyEngine index fun _ => after).events = executor.events := rfl
      refine told_of_events (?_ : _ = (executor.undelivered ++ act.report?.toList).map ExecutorEvent.progress)
      rw [hear_of_background begun, same, told, List.map_append]
  | delivers => exact told_of_events rfl

theorem Does.failed_eq (does : Does executor move next) : next.failed = executor.failed := by
  cases does with
  | finds | passes | starts | returns | notices | delivers => rfl
  | stops =>
      obtain ⟨_, stopped⟩ := stopHolder_frame { executor with requests := _ }
      rw [stopped]
  | @acts index _ act after =>
      obtain ⟨_, _, heard⟩ := hear_frame (executor.modifyEngine index fun _ => after) act
      rw [heard]
      rfl

theorem Steady.step
    (steady : executor.Steady)
    (step : Step executor move next)
    (task : move.isTask = true) :
    next.Steady where
  hosted := step.hosting_eq.trans steady.hosted
  working := by
    rw [step.frame.2.2]
    cases move with
    | close => cases task
    | _ => exact steady.working
  one := steady.one.step step
  unmarked := (steady.does step task).failed_eq.trans steady.unmarked
  unharmed := (steady.does step task).unharmed steady.unharmed
  told := (steady.does step task).told steady.hosted steady.told

/-- A steady executor is steady after it was sent a snapshot. -/
theorem Steady.receive
    (steady : executor.Steady)
    (snapshot : Snapshot) :
    (executor.receive snapshot).Steady := by
  obtain ⟨_, waiting⟩ := enqueue_frame executor snapshot
  rw [receive_of_background steady.hosted, waiting]
  exact ⟨steady.hosted, steady.working, steady.one.congr rfl rfl rfl rfl, steady.unmarked,
    steady.unharmed, steady.told⟩

/-! ## What is unfinished -/

/-- How much is yet to be done about an engine: it returns, and its end is noticed. -/
def unfinishedRun (run : Run) : Nat :=
  (if run.fate = .running then 1 else 0) + if run.noticed then 0 else 1

/-- How much is yet to be done about the engines that were started. -/
def unfinished (executor : Executor) : Nat :=
  executor.runs.foldr (unfinishedRun · + ·) 0

theorem unfinished_congr (runs : next.runs = executor.runs) :
    next.unfinished = executor.unfinished :=
  congrArg (List.foldr (unfinishedRun · + ·) 0) runs

theorem foldr_modify
    {runs : List Run}
    {index : Nat}
    {run : Run}
    (found : runs[index]? = some run)
    (change : Run → Run) :
    (runs.modify index change).foldr (unfinishedRun · + ·) 0 + unfinishedRun run =
      runs.foldr (unfinishedRun · + ·) 0 + unfinishedRun (change run) := by
  induction runs generalizing index with
  | nil => cases found
  | cons head rest counted =>
      cases index with
      | zero =>
          cases found
          simp only [List.modify_zero_cons, List.foldr_cons]
          omega
      | succ index =>
          have later := counted found
          simp only [List.modify_succ_cons, List.foldr_cons]
          omega

theorem unfinished_modifyRun
    {index : Nat}
    {run : Run}
    (found : executor.runs[index]? = some run)
    (change : Run → Run) :
    (executor.modifyRun index change).unfinished + unfinishedRun run =
      executor.unfinished + unfinishedRun (change run) :=
  foldr_modify found change

/-- To tell an engine to stop is not to do anything about it. -/
theorem unfinished_stopHolder (executor : Executor) :
    executor.stopHolder.unfinished = executor.unfinished := by
  rcases stopHolder_cases executor with same | ⟨index, _, stopped⟩
  · rw [same]
  · rw [stopped]
    cases found : executor.runs[index]? with
    | none =>
        have beyond := List.getElem?_eq_none_iff.mp found
        simp only [unfinished, modifyEngine, modifyRun, List.modify_eq_self beyond]
    | some run =>
        exact Nat.add_right_cancel (unfinished_modifyRun found fun run =>
          { run with engine := run.engine.requestStop })

end ResumableUpload.Executor
