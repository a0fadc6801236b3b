import ResumableUpload.Proofs.Executor.Moves

/-!
# The transfer slot

An executor never lets two engines transfer at once.  The slot is freed only for an engine whose end
was noticed, or which has returned, so an engine that was told to stop keeps it while it drains, and
a new engine is only started when the slot is free (`Synced`).  `OneTransfer` is the invariant: only
the newest run can be running, and it holds the slot unless the executor has closed.

Since runs are numbered in the order in which they start, `transfers_never_overlap` says of the
endpoint calls of a whole run that they come engine after engine.
-/

namespace ResumableUpload

namespace Executor

variable {executor next : Executor} {snapshot : Snapshot} {move : Move}

/-! ## What handling a snapshot comes to -/

/-- The slot is free, or whoever holds it is known to have ended. -/
def Vacant (executor : Executor) : Prop :=
  ∀ run, executor.holder? = some run → run.noticed = true

theorem holder?_eq_none (free : executor.holder = none) : executor.holder? = none := by
  rw [holder?, free, Option.bind_none]

theorem vacant_of_free (free : executor.holder? = none) : executor.Vacant := by
  intro run held
  rw [free] at held
  cases held

/-- The executor after it has handled a snapshot. -/
inductive Synced (executor : Executor) (snapshot : Snapshot) : Executor → Prop where
  /-- Nothing starts and nobody is told to stop; the slot of an engine that ended may be freed. -/
  | quiet {holder : Option Nat} (failed : Option (String × Nat))
      (slot : holder = executor.holder ∨ holder = none ∧ executor.Vacant) :
      Synced executor snapshot { executor with holder := holder, failed := failed }
  /-- The engine in the slot is told to stop. -/
  | stopped {run : Run}
      (held : executor.holder? = some run)
      (unnoticed : run.noticed = false)
      (unasked : run.engine.stopRequested = false)
      (unwanted : keeps snapshot run.engine.path = false) :
      Synced executor snapshot executor.stopHolder
  /-- A new engine is given the slot. -/
  | started {entry : Entry} {file : FileHandle}
      (vacant : executor.Vacant)
      (first : snapshot.next? = some (entry, file))
      (current : executor.emitted ≤ snapshot.reportsSeen) :
      Synced executor snapshot ({ executor with failed := none }.launch entry file)

/-- Freeing the slot of an ended engine either does nothing or empties the slot. -/
theorem reap_cases (executor : Executor) :
    executor.reap = executor ∧
        (∀ run, executor.holder? = some run → run.noticed = false) ∨
      executor.Vacant ∧
        ∃ failed, executor.reap = { executor with holder := none, failed := failed } := by
  unfold reap
  split
  case h_1 run held =>
      by_cases noticed : run.noticed = true
      · refine .inr ⟨?_, _, if_pos noticed⟩
        intro other found
        rw [held] at found
        cases found
        exact noticed
      · refine .inl ⟨if_neg noticed, ?_⟩
        intro other found
        rw [held] at found
        cases found
        exact Bool.eq_false_iff.mpr noticed
  case h_2 free =>
      refine .inl ⟨rfl, ?_⟩
      intro run held
      rw [free] at held
      cases held

theorem fill_cases (executor : Executor) (snapshot : Snapshot) :
    (∃ failed, (executor.fill snapshot).1 = { executor with failed := failed }) ∨
      ∃ entry file,
        snapshot.next? = some (entry, file) ∧
          executor.emitted ≤ snapshot.reportsSeen ∧
          (executor.fill snapshot).1 = { executor with failed := none }.launch entry file := by
  unfold fill
  split
  case h_1 => exact .inl ⟨executor.failed, rfl⟩
  case h_2 entry file first =>
      split
      case isTrue => exact .inl ⟨executor.failed, rfl⟩
      case isFalse =>
          by_cases late : snapshot.reportsSeen < executor.emitted
          · exact .inl ⟨none, by simp only [late, ↓reduceIte]⟩
          · refine .inr ⟨entry, file, first, Nat.le_of_not_lt late, ?_⟩
            simp only [late, ↓reduceIte]

theorem synced_sync (executor : Executor) (snapshot : Snapshot) :
    Synced executor snapshot (executor.sync snapshot).1 := by
  unfold sync
  rcases reap_cases executor with ⟨same, unnoticed⟩ | ⟨vacant, failed, freed⟩
  · simp only [same]
    split
    case h_1 run held =>
        split
        case isTrue => exact .quiet executor.failed (.inl rfl)
        case isFalse unwanted =>
            simp only [Bool.or_eq_true, not_or, Bool.not_eq_true] at unwanted
            exact .stopped held (unnoticed run held) unwanted.1 unwanted.2
    case h_2 free =>
        rcases fill_cases executor snapshot with
          ⟨failed, left⟩ | ⟨entry, file, first, current, filled⟩
        · rw [left]
          exact .quiet failed (.inl rfl)
        · rw [filled]
          exact .started (vacant_of_free free) first current
  · have free : executor.reap.holder? = none := by
      rw [freed]
      rfl
    simp only [free]
    rcases fill_cases executor.reap snapshot with
      ⟨failed, left⟩ | ⟨entry, file, first, current, filled⟩
    · rw [left, freed]
      exact .quiet failed (.inr ⟨rfl, vacant⟩)
    · rw [filled]
      rw [freed] at current ⊢
      exact .started vacant first current

theorem run_of_filled {index : Nat} :
    (executor.fill snapshot).2 = some index →
      index = executor.runs.length ∧
        ∃ run,
          (executor.fill snapshot).1.runs[index]? = some run ∧ run.fate = .running ∧
            run.noticed = false := by
  unfold fill
  split
  case h_1 => exact nofun
  case h_2 entry file _ =>
      split
      case isTrue => exact nofun
      case isFalse =>
          dsimp only
          split
          case isTrue => exact nofun
          case isFalse =>
              rintro ⟨⟩
              exact ⟨rfl, _, List.getElem?_concat_length, rfl, rfl⟩

/-- An engine that is started is the newest one, and nobody has noticed an end of it. -/
theorem run_of_started {index : Nat} :
    (executor.sync snapshot).2 = some index →
      index = executor.runs.length ∧
        ∃ run,
          (executor.sync snapshot).1.runs[index]? = some run ∧ run.fate = .running ∧
            run.noticed = false := by
  have runs : executor.reap.runs = executor.runs := by
    rcases reap_cases executor with ⟨same, _⟩ | ⟨_, _, freed⟩
    · rw [same]
    · rw [freed]
  unfold sync
  dsimp only
  split
  case h_1 => split <;> exact nofun
  case h_2 => exact runs ▸ run_of_filled

/-! ## Changing one run -/

theorem run_of_modifyRun
    {index other : Nat}
    {change : Run → Run}
    {run : Run}
    (found : (executor.modifyRun index change).runs[other]? = some run) :
    ∃ before,
      executor.runs[other]? = some before ∧
        run = if index = other then change before else before := by
  simp only [modifyRun, List.getElem?_modify, Option.map_eq_map, Option.map_eq_some_iff] at found
  obtain ⟨before, found, changed⟩ := found
  refine ⟨before, found, changed.symm.trans ?_⟩
  split <;> rfl

@[simp]
theorem length_modifyRun
    (executor : Executor)
    (index : Nat)
    (change : Run → Run) :
    (executor.modifyRun index change).runs.length = executor.runs.length := by
  simp only [modifyRun, List.length_modify]

theorem run_of_launch
    {entry : Entry}
    {file : FileHandle}
    {index : Nat}
    {run : Run}
    (found : (executor.launch entry file).runs[index]? = some run) :
    executor.runs[index]? = some run ∨
      index = executor.runs.length ∧
        run =
          ⟨(Engine.new executor.tuning entry.path file entry.uploaded).start, .running, false⟩ := by
  simp only [launch, List.getElem?_append] at found
  split at found
  case isTrue => exact .inl found
  case isFalse beyond =>
      rw [List.getElem?_singleton] at found
      split at found
      case isTrue first => exact .inr ⟨by omega, (Option.some.inj found).symm⟩
      case isFalse => cases found

@[simp]
theorem length_launch
    (executor : Executor)
    (entry : Entry)
    (file : FileHandle) :
    (executor.launch entry file).runs.length = executor.runs.length + 1 := by
  simp only [launch, List.length_append, List.length_singleton]

/-- Telling the holder to stop changes its run in nothing but that. -/
theorem stopHolder_cases (executor : Executor) :
    executor.stopHolder = executor ∨
      ∃ index,
        executor.holder = some index ∧
          executor.stopHolder = executor.modifyEngine index Engine.requestStop := by
  unfold stopHolder
  split
  case h_1 index held => exact .inr ⟨index, held, rfl⟩
  case h_2 => exact .inl rfl

/-- Telling the holder to stop makes no engine return, and nobody notice an end. -/
theorem exists_of_stopHolder
    {index : Nat}
    {run : Run}
    (found : executor.runs[index]? = some run) :
    ∃ after,
      executor.stopHolder.runs[index]? = some after ∧ after.fate = run.fate ∧
        after.noticed = run.noticed := by
  rcases stopHolder_cases executor with same | ⟨holder, _, stopped⟩
  · rw [same]
    exact ⟨run, found, rfl, rfl⟩
  · rw [stopped, modifyEngine, modifyRun, List.getElem?_modify, found]
    split <;> exact ⟨_, rfl, rfl, rfl⟩

/-- Telling the holder to stop changes only the runs. -/
theorem stopHolder_frame (executor : Executor) :
    ∃ runs, executor.stopHolder = { executor with runs := runs } := by
  rcases stopHolder_cases executor with same | ⟨_, _, stopped⟩
  · exact ⟨executor.runs, same⟩
  · exact ⟨_, stopped⟩

theorem hosting_stopHolder (executor : Executor) :
    executor.stopHolder.hosting = executor.hosting := by
  obtain ⟨_, stopped⟩ := stopHolder_frame executor
  rw [stopped]

/-! ## One transfer at a time -/

/-- Only the newest run can be running, and while the executor is open it holds the slot. -/
structure OneTransfer (executor : Executor) : Prop where
  newest :
    ∀ {index : Nat} {run : Run},
      executor.runs[index]? = some run → run.fate = .running →
        index + 1 = executor.runs.length
  held :
    ∀ {index : Nat} {run : Run},
      executor.runs[index]? = some run → run.fate = .running →
        executor.holder = some index ∨ executor.closed = true
  atRest :
    ∀ {index : Nat} {run : Run},
      executor.runs[index]? = some run → run.noticed = true → run.fate ≠ .running
  hosted : executor.closed = true → executor.hosting = .background

namespace OneTransfer

theorem start
    (hosting : Hosting)
    (tuning : Tuning) :
    OneTransfer { hosting := hosting, tuning := tuning } where
  newest found := by cases found
  held found := by cases found
  atRest found := by cases found
  hosted closed := by cases closed

theorem open_of_inline
    (one : OneTransfer executor)
    (inlined : executor.hosting = .inline) :
    executor.closed = false := by
  rw [Bool.eq_false_iff]
  intro closed
  rw [one.hosted closed] at inlined
  cases inlined

/-- What concerns neither the runs nor the slot keeps the invariant. -/
theorem congr
    (one : OneTransfer executor)
    (runs : next.runs = executor.runs)
    (slot : next.holder = executor.holder)
    (open' : next.closed = executor.closed)
    (hosting : next.hosting = executor.hosting) :
    OneTransfer next where
  newest := by rw [runs]; exact one.newest
  held := by rw [runs, slot, open']; exact one.held
  atRest := by rw [runs]; exact one.atRest
  hosted := by rw [open', hosting]; exact one.hosted

/-- A run can be changed as long as it is not brought back to life nor noticed while it runs. -/
theorem modifyRun
    {index : Nat}
    (change : Run → Run)
    (one : OneTransfer executor)
    (alive :
      ∀ {run : Run}, (change run).fate = .running → run.fate = .running)
    (noticed :
      ∀ {run : Run},
        executor.runs[index]? = some run → (change run).noticed = true →
          (change run).fate ≠ .running) :
    OneTransfer (executor.modifyRun index change) where
  newest found running := by
    obtain ⟨before, member, rfl⟩ := run_of_modifyRun found
    rw [length_modifyRun]
    refine one.newest member ?_
    split at running
    · exact alive running
    · exact running
  held found running := by
    obtain ⟨before, member, rfl⟩ := run_of_modifyRun found
    refine one.held member ?_
    split at running
    · exact alive running
    · exact running
  atRest found known := by
    obtain ⟨before, member, rfl⟩ := run_of_modifyRun found
    split at known
    case isTrue same =>
        subst same
        rw [if_pos rfl]
        exact noticed member known
    case isFalse other =>
        rw [if_neg other]
        exact one.atRest member known
  hosted := one.hosted

theorem modifyEngine
    (one : OneTransfer executor)
    (index : Nat)
    (change : Engine → Engine) :
    OneTransfer (executor.modifyEngine index change) := by
  refine one.modifyRun _ ?_ ?_
  · intro run running
    exact running
  · intro run found known
    have atRest : run.fate ≠ .running := one.atRest found known
    exact atRest

theorem settle
    {index : Nat}
    {fate : Fate}
    (one : OneTransfer executor)
    (atRest : fate ≠ .running) :
    OneTransfer (executor.settle index fate) :=
  one.modifyRun _ (fun running => absurd running atRest) (fun _ _ => atRest)

theorem stopHolder (one : OneTransfer executor) : OneTransfer executor.stopHolder := by
  rcases stopHolder_cases executor with same | ⟨index, _, stopped⟩
  · rw [same]
    exact one
  · rw [stopped]
    exact one.modifyEngine index _

/-- In an open executor whatever runs holds the slot. -/
theorem holder_of_running
    {index : Nat}
    {run : Run}
    (one : OneTransfer executor)
    (working : executor.closed = false)
    (found : executor.runs[index]? = some run)
    (running : run.fate = .running) :
    executor.holder = some index := by
  rcases one.held found running with slot | closed
  · exact slot
  · rw [working] at closed
    cases closed

/-- While the slot of an open executor is free nothing runs. -/
theorem idle_of_vacant
    {index : Nat}
    {run : Run}
    (one : OneTransfer executor)
    (working : executor.closed = false)
    (vacant : executor.Vacant)
    (found : executor.runs[index]? = some run) :
    run.fate ≠ .running := by
  intro running
  have held : executor.holder? = some run := by
    simp only [holder?, one.holder_of_running working found running, Option.bind_some, found]
  exact one.atRest found (vacant run held) running

/-- A new engine may be started as soon as nothing runs. -/
theorem launch
    (one : OneTransfer executor)
    (idle :
      ∀ {index : Nat} {run : Run},
        executor.runs[index]? = some run → run.fate ≠ .running)
    (entry : Entry)
    (file : FileHandle) :
    OneTransfer (executor.launch entry file) where
  newest found running := by
    rw [length_launch]
    rcases run_of_launch found with earlier | ⟨rfl, _⟩
    · exact absurd running (idle earlier)
    · rfl
  held found running := by
    rcases run_of_launch found with earlier | ⟨rfl, _⟩
    · exact absurd running (idle earlier)
    · exact .inl rfl
  atRest found known := by
    rcases run_of_launch found with earlier | ⟨rfl, rfl⟩
    · exact one.atRest earlier known
    · cases known
  hosted := one.hosted

theorem sync
    (one : OneTransfer executor)
    (working : executor.closed = false)
    (snapshot : Snapshot) :
    OneTransfer (executor.sync snapshot).1 := by
  have synced := synced_sync executor snapshot
  generalize (executor.sync snapshot).1 = next at synced ⊢
  cases synced with
  | quiet failed slot =>
      refine ⟨one.newest, ?_, one.atRest, one.hosted⟩
      intro index run found running
      rcases slot with same | ⟨_, vacant⟩
      · exact same ▸ one.held found running
      · exact absurd running (one.idle_of_vacant working vacant found)
  | stopped => exact one.stopHolder
  | started vacant =>
      have forgotten : OneTransfer { executor with failed := none } :=
        one.congr rfl rfl rfl rfl
      exact forgotten.launch (one.idle_of_vacant working vacant) _ _

/-- Once its run is settled an inline engine may free the slot: it was the only one to run. -/
theorem conclude
    {index : Nat}
    {run : Run}
    (one : OneTransfer executor)
    (found : executor.runs[index]? = some run)
    (running : run.fate = .running)
    (path : String) :
    OneTransfer (executor.conclude index path) := by
  have settled : OneTransfer (executor.settle index .returned) :=
    one.settle (by decide)
  unfold Executor.conclude
  split
  case h_1 => exact settled
  case h_2 =>
      unfold release
      split
      case h_2 => exact settled
      case h_1 =>
          split
          case isFalse => exact settled
          case isTrue =>
              refine ⟨settled.newest, ?_, settled.atRest, settled.hosted⟩
              intro other state member alive
              -- Whatever still runs is the newest run, which is the one that returned.
              have same : other = index := by
                have last := one.newest found running
                have also := settled.newest member alive
                simp only [Executor.settle, length_modifyRun] at also
                omega
              subst same
              obtain ⟨before, _, changed⟩ := run_of_modifyRun member
              rw [if_pos rfl] at changed
              rw [changed] at alive
              cases alive

theorem step
    (one : OneTransfer executor)
    (step : Step executor move next) :
    OneTransfer next := by
  cases step with
  | send snapshot =>
      unfold receive
      split
      case h_1 =>
          obtain ⟨_, waiting⟩ := enqueue_frame executor snapshot
          rw [waiting]
          exact one.congr rfl rfl rfl rfl
      case h_2 inlined =>
          exact one.sync (one.open_of_inline inlined) snapshot
  | handle hosted working =>
      unfold handleNext
      split
      case h_1 => exact one
      case h_2 snapshot rest _ =>
          have taken : OneTransfer { executor with requests := rest } :=
            one.congr rfl rfl rfl rfl
          exact taken.sync working snapshot
  | @act index _ act engine =>
      obtain ⟨_, _, heard⟩ := hear_frame (executor.modifyEngine index fun _ => engine) act
      rw [heard]
      have stepped := one.modifyEngine index fun _ => engine
      exact stepped.congr rfl rfl rfl rfl
  | panic => exact one.settle (by decide)
  | finish found running => exact one.conclude found running _
  | notice _ found atRest =>
      obtain ⟨_, noticed⟩ := notice_frame found
      rw [noticed]
      have known := one.modifyRun (fun run => { run with noticed := true })
        (fun running => running)
        (fun member _ => by cases found.symm.trans member; exact atRest)
      exact known.congr rfl rfl rfl rfl
  | deliver taken =>
      obtain ⟨_, _, rfl⟩ := takeEvent_eq_some taken
      exact one.congr rfl rfl rfl rfl
  | shutDown =>
      obtain ⟨_, asked⟩ := requestShutdown_frame executor
      rw [asked]
      exact one.congr rfl rfl rfl rfl
  | close hosted =>
      have stopped := one.stopHolder
      have hosting := hosting_stopHolder executor
      exact ⟨stopped.newest, fun _ _ => .inr rfl, stopped.atRest, fun _ => hosting.trans hosted⟩

end OneTransfer

/-! ## Runs come one after another -/

theorem length_stopHolder (executor : Executor) :
    executor.stopHolder.runs.length = executor.runs.length := by
  rcases stopHolder_cases executor with same | ⟨_, _, stopped⟩
  · rw [same]
  · rw [stopped]
    exact length_modifyRun _ _ _

/-- Handling a snapshot starts at most one engine, and only if the slot can be had. -/
theorem length_sync
    (executor : Executor)
    (snapshot : Snapshot) :
    (executor.sync snapshot).1.runs.length = executor.runs.length ∨
      (executor.sync snapshot).1.runs.length = executor.runs.length + 1 ∧ executor.Vacant := by
  have synced := synced_sync executor snapshot
  generalize (executor.sync snapshot).1 = next at synced ⊢
  cases synced with
  | quiet => exact .inl rfl
  | stopped => exact .inl (length_stopHolder executor)
  | started vacant => exact .inr ⟨length_launch _ _ _, vacant⟩

/-- A move starts at most one engine, and only if the executor is open and the slot can be had. -/
theorem Step.length
    (one : OneTransfer executor)
    (step : Step executor move next) :
    next.runs.length = executor.runs.length ∨
      next.runs.length = executor.runs.length + 1 ∧
        executor.closed = false ∧ executor.Vacant := by
  cases step with
  | send snapshot =>
      unfold receive
      split
      case h_1 =>
          obtain ⟨_, waiting⟩ := enqueue_frame executor snapshot
          rw [waiting]
          exact .inl rfl
      case h_2 inlined =>
          have working : executor.closed = false := one.open_of_inline inlined
          rcases length_sync executor snapshot with same | ⟨more, vacant⟩
          · exact .inl same
          · exact .inr ⟨more, working, vacant⟩
  | handle _ working =>
      unfold handleNext
      split
      case h_1 => exact .inl rfl
      case h_2 snapshot rest _ =>
          rcases length_sync { executor with requests := rest } snapshot with same | ⟨more, vacant⟩
          · exact .inl same
          · exact .inr ⟨more, working, vacant⟩
  | @act index _ act engine =>
      obtain ⟨_, _, heard⟩ := hear_frame (executor.modifyEngine index fun _ => engine) act
      rw [heard]
      exact .inl (length_modifyRun _ _ _)
  | panic => exact .inl (length_modifyRun _ _ _)
  | @finish index run =>
      obtain ⟨_, concluded⟩ := conclude_frame executor index run.engine.path
      rw [concluded]
      exact .inl (length_modifyRun _ _ _)
  | notice _ found =>
      obtain ⟨_, noticed⟩ := notice_frame found
      rw [noticed]
      exact .inl (length_modifyRun _ _ _)
  | deliver taken =>
      obtain ⟨_, _, rfl⟩ := takeEvent_eq_some taken
      exact .inl rfl
  | shutDown =>
      obtain ⟨_, asked⟩ := requestShutdown_frame executor
      rw [asked]
      exact .inl rfl
  | close => exact .inl (length_stopHolder executor)

/-- Only an engine that runs calls the endpoint. -/
theorem Step.caller_running
    {caller : Nat}
    (step : Step executor move next)
    (calls : move.caller? = some caller) :
    ∃ run, executor.runs[caller]? = some run ∧ run.fate = .running := by
  cases step
  case act found running _ =>
      simp only [Move.caller?] at calls
      split at calls
      · cases calls
        exact ⟨_, found, running⟩
      · cases calls
  all_goals cases calls

theorem oneTransfer_of_trace
    {hosting : Hosting}
    {tuning : Tuning}
    {moves : List Move}
    {final : Executor}
    (run : Trace Step { hosting := hosting, tuning := tuning } moves final) :
    OneTransfer final :=
  run.invariant (.start hosting tuning) OneTransfer.step

/-- The calls of a run come engine after engine, and each from an engine that was started. -/
theorem callers_ordered
    {hosting : Hosting}
    {tuning : Tuning}
    {moves : List Move}
    {final : Executor}
    (run : Trace Step { hosting := hosting, tuning := tuning } moves final) :
    (moves.filterMap Move.caller?).Pairwise (· ≤ ·) ∧
      ∀ caller ∈ moves.filterMap Move.caller?, caller < final.runs.length := by
  induction run with
  | refl =>
      constructor
      · exact .nil
      · intro caller member
        cases member
  | @snoc moves executor final move past last ordered =>
      obtain ⟨pairwise, started⟩ := ordered
      have one := oneTransfer_of_trace past
      have longer : executor.runs.length ≤ final.runs.length := by
        rcases last.length one with same | ⟨more, _⟩ <;> omega
      simp only [List.filterMap_append, List.filterMap_cons, List.filterMap_nil]
      split
      case h_1 =>
          rw [List.append_nil]
          exact ⟨pairwise, fun caller member => Nat.lt_of_lt_of_le (started caller member) longer⟩
      case h_2 caller calls =>
          obtain ⟨state, found, running⟩ := last.caller_running calls
          have newest := one.newest found running
          constructor
          · rw [List.pairwise_append]
            refine ⟨pairwise, List.pairwise_singleton _ _, ?_⟩
            intro earlier member later same
            rw [List.mem_singleton] at same
            have before := started earlier member
            omega
          · intro other member
            rw [List.mem_append, List.mem_singleton] at member
            rcases member with earlier | same
            · exact Nat.lt_of_lt_of_le (started other earlier) longer
            · omega

/--
Two engines never transfer at once, whatever snapshots are sent, in whatever order things happen,
and however engines end.  The endpoint calls of a run come engine after engine in the order in which
the engines started.  Whenever an engine calls the endpoint every engine that started before it has
ended, and so has every engine when a new one starts; so at most one that has not ended exists at
any time.
-/
theorem transfers_never_overlap
    {hosting : Hosting}
    {tuning : Tuning}
    {moves : List Move}
    {final : Executor}
    (run : Trace Step { hosting := hosting, tuning := tuning } moves final) :
    (moves.filterMap Move.caller?).Pairwise (· ≤ ·) ∧
      (∀ {first second : Nat} {one other : Run},
        final.runs[first]? = some one → one.fate = .running →
          final.runs[second]? = some other → other.fate = .running →
            first = second) ∧
      ∀ {move : Move} {next : Executor},
        Step final move next →
          (∀ {caller earlier : Nat} {state : Run},
            move.caller? = some caller → earlier < caller →
              final.runs[earlier]? = some state → state.fate ≠ .running) ∧
          (final.runs.length < next.runs.length →
            ∀ {index : Nat} {state : Run},
              final.runs[index]? = some state → state.fate ≠ .running) := by
  have one := oneTransfer_of_trace run
  refine ⟨(callers_ordered run).1, ?_, ?_⟩
  · intro first second state other found running also alive
    have last := one.newest found running
    have same := one.newest also alive
    omega
  · intro move next step
    constructor
    · intro caller earlier state calls before found running
      obtain ⟨_, member, calling⟩ := step.caller_running calls
      have last := one.newest member calling
      have same := one.newest found running
      omega
    · intro started index state found
      rcases step.length one with same | ⟨_, working, vacant⟩
      · omega
      · exact one.idle_of_vacant working vacant found

/--
A run in which a first file is deleted while its engine opens the upload, so that a second one takes
over the slot once the first engine has drained.  The second engine panics.
-/
def handover : List Move :=
  let first : Entry := .ofFile ⟨0, .ofBytes [1]⟩ "first"
  let second : Entry := .ofFile ⟨1, .ofBytes [2]⟩ "second"
  let stopped : Report := ⟨"first", 0, false, Outcome.stopped.message⟩
  [ .send ⟨[first], 0⟩, .handle, .send ⟨[second], 0⟩, .handle,
    .act 0 (.create (.ok (Response.success ⟨"first", 1⟩))), .act 0 .check, .act 0 (.report stopped),
    .send ⟨[second], 0⟩, .handle, .finish 0, .notice 0, .deliver (.progress stopped),
    .send ⟨[second], 1⟩, .handle, .act 1 (.create (.error (.io "reset"))), .panic 1 ]

theorem handover_never_overlaps :
    ∃ final,
      Trace Step { hosting := .background, tuning := Config.tuning {} } handover final ∧
        final.runs.length = 2 ∧
        handover.filterMap Move.caller? = [0, 1] ∧
        (handover.filterMap Move.caller?).Pairwise (· ≤ ·) := by
  have counted :
      (handover.foldlM move? { hosting := .background, tuning := Config.tuning {} }).map
          (·.runs.length) = some 2 := by
    decide
  obtain ⟨final, made, two⟩ := Option.map_eq_some_iff.mp counted
  have run := Trace.of_foldlM Step step_of_move? made
  exact ⟨final, run, two, by decide, (transfers_never_overlap run).1⟩

end Executor

end ResumableUpload
