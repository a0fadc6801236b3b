import ResumableUpload.Proofs.Executor.Starts

/-!
# Panicked engines and free slots

When the slot of an engine that panicked is freed, its path and file are marked, so that the file is
not started again by itself.  No other file is ever marked (`Marked`).  As soon as the end of every
engine was noticed, a snapshot that has seen all reports starts an engine for the entry that it puts
first, unless the file of that entry is the marked one (`launched_of_sync`).
-/

namespace ResumableUpload

namespace Executor

variable {executor next : Executor} {move : Move} {snapshot : Snapshot}
variable {path : String} {identity : Nat} {entry : Entry} {file : FileHandle}

/-! ## Engines that panicked -/

/-- An engine that sent this file to this path has panicked. -/
def Panicked (executor : Executor) (path : String) (identity : Nat) : Prop :=
  ∃ (index : Nat) (run : Run),
    executor.runs[index]? = some run ∧ run.fate = .panicked ∧ run.engine.path = path ∧
      run.engine.file.identity = identity

/-- The engine of this run sent this file to this path and has panicked. -/
def PanickedAt (executor : Executor) (index : Nat) (path : String) (identity : Nat) : Prop :=
  ∃ run : Run,
    executor.runs[index]? = some run ∧ run.fate = .panicked ∧ run.engine.path = path ∧
      run.engine.file.identity = identity

theorem PanickedAt.of_runs
    {index : Nat}
    (panicked : executor.PanickedAt index path identity)
    (runs : next.runs = executor.runs) :
    next.PanickedAt index path identity := by
  obtain ⟨run, found, rest⟩ := panicked
  exact ⟨run, runs ▸ found, rest⟩

theorem PanickedAt.modifyRun
    {index other : Nat}
    {change : Run → Run}
    (panicked : executor.PanickedAt index path identity)
    (kept :
      ∀ {run : Run}, executor.runs[other]? = some run → run.fate = .panicked →
        (change run).fate = .panicked ∧ (change run).engine.path = run.engine.path ∧
          (change run).engine.file = run.engine.file) :
    (executor.modifyRun other change).PanickedAt index path identity := by
  obtain ⟨run, found, fate, rfl, rfl⟩ := panicked
  by_cases same : other = index
  · subst same
    obtain ⟨still, about, held⟩ := kept found fate
    refine ⟨change run, ?_, still, about, congrArg _ held⟩
    simp [Executor.modifyRun, found]
  · refine ⟨run, ?_, fate, rfl, rfl⟩
    simp [Executor.modifyRun, found, same]

theorem PanickedAt.stopHolder
    {index : Nat}
    (panicked : executor.PanickedAt index path identity) :
    executor.stopHolder.PanickedAt index path identity := by
  rcases stopHolder_cases executor with same | ⟨_, _, stopped⟩
  · rw [same]
    exact panicked
  · rw [stopped]
    exact panicked.modifyRun fun _ fate => ⟨fate, rfl, rfl⟩

/-- What has panicked does not come back to life. -/
theorem Step.panickedAt
    {index : Nat}
    (step : Step executor move next)
    (panicked : executor.PanickedAt index path identity) :
    next.PanickedAt index path identity := by
  cases step.touches with
  | untouched _ runs => exact panicked.of_runs runs
  | acted found running _ runs =>
      refine PanickedAt.of_runs (panicked.modifyRun ?_) runs
      intro run member fate
      cases found.symm.trans member
      cases running.symm.trans fate
  | told _ runs => exact panicked.stopHolder.of_runs runs
  | panicked runs =>
      refine PanickedAt.of_runs (panicked.modifyRun ?_) runs
      exact fun _ _ => ⟨rfl, rfl, rfl⟩
  | returned _ found running _ runs =>
      refine PanickedAt.of_runs (panicked.modifyRun ?_) runs
      intro run member fate
      cases found.symm.trans member
      cases running.symm.trans fate
  | noticed _ runs =>
      refine PanickedAt.of_runs (panicked.modifyRun ?_) runs
      exact fun _ fate => ⟨fate, rfl, rfl⟩
  | launched _ _ _ runs =>
      obtain ⟨run, found, rest⟩ := panicked
      refine ⟨run, ?_, rest⟩
      rw [runs]
      exact List.getElem?_append_left (List.getElem?_eq_some_iff.mp found).1 ▸ found

theorem Step.panicked
    (step : Step executor move next)
    (panicked : executor.Panicked path identity) :
    next.Panicked path identity := by
  obtain ⟨index, here⟩ := panicked
  exact ⟨index, step.panickedAt here⟩

/-! ## Freeing the slot -/

theorem reap_frame (executor : Executor) :
    ∃ holder failed, executor.reap = { executor with holder := holder, failed := failed } := by
  unfold reap
  split
  · split <;> exact ⟨_, _, rfl⟩
  · exact ⟨_, _, rfl⟩

/-- Which mark freeing the slot leaves does not depend on the snapshots that wait. -/
theorem failed_reap_requests
    (executor : Executor)
    (requests : List Snapshot) :
    Executor.failed (reap { executor with requests := requests }) = executor.reap.failed := by
  have same : holder? { executor with requests := requests } = executor.holder? := rfl
  unfold reap
  rw [same]
  split
  · split <;> rfl
  · rfl

/-- The mark is set for an engine that held the slot and panicked, or it was there before. -/
theorem failed_of_reap
    (marked : executor.reap.failed = some (path, identity)) :
    executor.failed = some (path, identity) ∨ executor.Panicked path identity := by
  unfold reap at marked
  split at marked
  case h_1 run held =>
      obtain ⟨index, _, found⟩ := Option.bind_eq_some_iff.mp held
      split at marked
      case isTrue =>
          dsimp only at marked
          split at marked
          case isTrue fate =>
              simp only [Option.some.injEq, Prod.mk.injEq] at marked
              exact .inr ⟨index, run, found, fate, marked⟩
          case isFalse => exact .inl marked
      case isFalse => exact .inl marked
  case h_2 => exact .inl marked

theorem failed_of_fill
    (marked : (executor.fill snapshot).1.failed = some (path, identity)) :
    executor.failed = some (path, identity) := by
  rcases fill_cases executor snapshot with ⟨failed, left⟩ | ⟨_, _, _, _, filled⟩
  · unfold fill at marked
    split at marked
    · exact marked
    · split at marked
      · exact marked
      · dsimp only at marked
        split at marked <;> cases marked
  · rw [filled] at marked
    cases marked

/-- Handling a snapshot marks nothing but what freeing the slot does. -/
theorem failed_of_sync
    (marked : (executor.sync snapshot).1.failed = some (path, identity)) :
    executor.reap.failed = some (path, identity) := by
  unfold sync at marked
  dsimp only at marked
  split at marked
  · split at marked
    · exact marked
    · obtain ⟨_, stopped⟩ := stopHolder_frame executor.reap
      rw [stopped] at marked
      exact marked
  · exact failed_of_fill marked

/-- Only a file whose engine panicked is marked. -/
def Marked (executor : Executor) : Prop :=
  ∀ (path : String) (identity : Nat),
    executor.failed = some (path, identity) → executor.Panicked path identity

theorem Marked.reap
    (marks : executor.Marked)
    (marked : executor.reap.failed = some (path, identity)) :
    executor.Panicked path identity := by
  rcases failed_of_reap marked with before | panicked
  · exact marks path identity before
  · exact panicked

/-- Only a move that handles a snapshot changes the mark. -/
theorem Step.failed
    (step : Step executor move next)
    (marked : next.failed = some (path, identity)) :
    executor.failed = some (path, identity) ∨ executor.Panicked path identity := by
  cases step with
  | send snapshot =>
      unfold receive at marked
      split at marked
      · obtain ⟨_, waiting⟩ := enqueue_frame executor snapshot
        rw [waiting] at marked
        exact .inl marked
      · exact failed_of_reap (failed_of_sync marked)
  | handle =>
      unfold handleNext at marked
      split at marked
      · exact .inl marked
      · have before := failed_of_reap (failed_of_sync marked)
        exact before
  | @act index _ act engine =>
      obtain ⟨_, _, heard⟩ := hear_frame (executor.modifyEngine index fun _ => engine) act
      rw [heard] at marked
      exact .inl marked
  | panic => exact .inl marked
  | @finish index run =>
      obtain ⟨_, concluded⟩ := conclude_frame executor index run.engine.path
      rw [concluded] at marked
      exact .inl marked
  | notice _ found =>
      obtain ⟨_, noticed⟩ := notice_frame found
      rw [noticed] at marked
      exact .inl marked
  | deliver taken =>
      obtain ⟨_, _, rfl⟩ := takeEvent_eq_some taken
      exact .inl marked
  | shutDown =>
      obtain ⟨_, asked⟩ := requestShutdown_frame executor
      rw [asked] at marked
      exact .inl marked
  | close =>
      unfold Executor.close at marked
      obtain ⟨_, stopped⟩ := stopHolder_frame executor
      rw [stopped] at marked
      exact .inl marked

theorem Marked.step
    (marks : executor.Marked)
    (step : Step executor move next) :
    next.Marked := by
  intro path identity marked
  rcases step.failed marked with before | panicked
  · exact step.panicked (marks path identity before)
  · exact step.panicked panicked

/-! ## Shutting down -/

theorem shutDown_sync
    (executor : Executor)
    (snapshot : Snapshot) :
    (executor.sync snapshot).1.shutDown = executor.shutDown := by
  have synced := synced_sync executor snapshot
  generalize (executor.sync snapshot).1 = next at synced ⊢
  cases synced with
  | quiet => rfl
  | started => rfl
  | stopped =>
      obtain ⟨_, stopped⟩ := stopHolder_frame executor
      rw [stopped]

/-- An executor that was told to shut down is told that for good. -/
theorem Step.still_told
    (step : Step executor move next)
    (told : executor.shutDown = true) :
    next.shutDown = true := by
  cases step with
  | send snapshot =>
      unfold receive
      split
      · obtain ⟨_, waiting⟩ := enqueue_frame executor snapshot
        rw [waiting]
        exact told
      · exact (shutDown_sync executor snapshot).trans told
  | handle =>
      unfold handleNext
      split
      · exact told
      · exact (shutDown_sync _ _).trans told
  | @act index _ act engine =>
      obtain ⟨_, _, heard⟩ := hear_frame (executor.modifyEngine index fun _ => engine) act
      rw [heard]
      exact told
  | panic => exact told
  | @finish index run =>
      obtain ⟨_, concluded⟩ := conclude_frame executor index run.engine.path
      rw [concluded]
      exact told
  | notice _ found =>
      obtain ⟨_, noticed⟩ := notice_frame found
      rw [noticed]
      exact told
  | deliver taken =>
      obtain ⟨_, _, rfl⟩ := takeEvent_eq_some taken
      exact told
  | shutDown =>
      unfold requestShutdown
      split
      · rfl
      · exact told
  | close =>
      unfold Executor.close
      obtain ⟨_, stopped⟩ := stopHolder_frame executor
      rw [stopped]
      exact told

/-- Only an executor that was told to shut down closes. -/
def ClosedWhenTold (executor : Executor) : Prop :=
  executor.closed = true → executor.shutDown = true

theorem ClosedWhenTold.step
    (before : executor.ClosedWhenTold)
    (step : Step executor move next) :
    next.ClosedWhenTold := by
  intro closed
  apply step.still_told
  rw [step.frame.2.2] at closed
  cases step with
  | close _ asked => exact asked
  | _ => exact before closed

/-! ## Filling a free slot -/

/-- The executor that handles a snapshot while its slot can be had fills the slot. -/
theorem sync_of_vacant (vacant : executor.Vacant) :
    executor.sync snapshot = executor.reap.fill snapshot := by
  have free : executor.reap.holder? = none := by
    rcases reap_cases executor with ⟨same, unnoticed⟩ | ⟨_, failed, freed⟩
    · cases held : executor.holder? with
      | none => rw [same, held]
      | some run => cases (vacant run held).symm.trans (unnoticed run held)
    · rw [freed]
      rfl
  unfold sync
  simp only [free]

theorem fill_of_spared
    (first : snapshot.next? = some (entry, file))
    (current : executor.emitted ≤ snapshot.reportsSeen)
    (spared : executor.failed ≠ some (entry.path, file.identity)) :
    (executor.fill snapshot).1 = { executor with failed := none }.launch entry file := by
  have fresh : ¬ snapshot.reportsSeen < executor.emitted := Nat.not_lt_of_le current
  unfold fill
  simp only [first, spared, ↓reduceIte, fresh]

/--
A snapshot that has seen all reports starts an engine for the entry that it puts first as soon as the
slot can be had, unless the file of the entry is marked.
-/
theorem launched_of_sync
    (vacant : executor.Vacant)
    (first : snapshot.next? = some (entry, file))
    (current : executor.emitted ≤ snapshot.reportsSeen)
    (spared : executor.reap.failed ≠ some (entry.path, file.identity)) :
    (executor.sync snapshot).1.runs = executor.runs ++ [executor.runOf entry file] ∧
      (executor.sync snapshot).1.holder = some executor.runs.length := by
  obtain ⟨holder, failed, freed⟩ := reap_frame executor
  have seen : executor.reap.emitted ≤ snapshot.reportsSeen := by
    rw [freed]
    exact current
  rw [sync_of_vacant vacant, fill_of_spared first seen spared, freed]
  exact ⟨rfl, rfl⟩

end Executor

end ResumableUpload
