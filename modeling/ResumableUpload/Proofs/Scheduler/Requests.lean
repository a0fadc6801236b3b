import ResumableUpload.Proofs.Executor.Starts
import ResumableUpload.Proofs.Queue.Runnable
import ResumableUpload.Proofs.Scheduler.Accounting

/-!
# Starts and requests

An engine is only started for a path to which a file was added, and once for each time that it was
added.  When an engine makes its final report, that report is under way until it pauses the entry,
and meanwhile every snapshot is out of date; from then on no snapshot wants the path until a file is
added again (`Spent`).  So whatever waits in the executor when an upload ends, ticks alone do not
start it again.
-/

namespace ResumableUpload

namespace Scheduler

variable {scheduler next : Scheduler} {path : String}

/-- Whether a file is added to a path. -/
def Move.adds (path : String) : Move → Bool
  | .add _ other => other == path
  | _ => false

/-! ## Paths that stay paused -/

theorem Drives.paused
    {move : Executor.Move}
    (drives : Drives scheduler move next)
    (tidy : scheduler.queue.Tidy)
    (paused : scheduler.queue.Paused path) :
    next.queue.Paused path := by
  rw [drives.queue]
  exact hear_of_reconcile (·.Paused path) paused (paused.reconcile tidy) _

/-- Nothing but adding a file to the path resumes it. -/
theorem Step.paused
    {move : Move}
    (step : Step scheduler move next)
    (tidy : scheduler.queue.Tidy)
    (unasked : move.adds path = false)
    (paused : scheduler.queue.Paused path) :
    next.queue.Paused path := by
  cases step with
  | add added => exact paused.add added (beq_eq_false_iff_ne.mp unasked).symm
  | stop stopped => exact paused.stop stopped
  | discard deleted => exact paused.delete tidy deleted
  | restore infos => exact paused.restore
  | tick => exact paused
  | post found => exact (drives_post found).paused tidy paused
  | work own acting => exact (drives_work own acting).paused tidy paused

/-! ## Starts -/

/--
Whatever the executor starts comes first in a snapshot that had seen every report, and no engine is
at work then.
-/
theorem Drives.starts
    {move : Executor.Move}
    (drives : Drives scheduler move next)
    (accounted : Accounted scheduler) :
    next.executor.started = scheduler.executor.started ∨
      ∃ snapshot entry file,
        scheduler.executor.Handles move snapshot ∧ snapshot ∈ scheduler.waiting ∧
          snapshot.next? = some (entry, file) ∧
          scheduler.executor.emitted ≤ snapshot.reportsSeen ∧
          (∀ path, ¬ scheduler.executor.Busy path) ∧
          next.executor.runs = scheduler.executor.runs ++ [scheduler.executor.runOf entry file] := by
  cases drives.step.launches with
  | none same => exact .inl same
  | one handles first current runs =>
      refine .inr ⟨_, _, _, handles, drives.handled handles, first, current, ?_, runs⟩
      rintro other ⟨engine, working, _⟩
      have longer : scheduler.executor.runs.length < next.executor.runs.length := by
        rw [runs, List.length_append, List.length_singleton]
        exact Nat.lt_succ_self _
      exact drives.step.idle_of_longer accounted.one longer working

/-! ## A path whose last upload has ended -/

/--
The entry of the path is paused, or a report that pauses it is under way, and no snapshot may start
an engine of the path.
-/
structure Spent (path : String) (scheduler : Scheduler) : Prop where
  queued :
    scheduler.queue.Paused path ∨
      ∃ report ∈ scheduler.executor.undelivered, report.path = path ∧ report.runnable = false
  snapshots :
    ∀ {snapshot : Snapshot},
      snapshot ∈ scheduler.waiting → scheduler.executor.emitted ≤ snapshot.reportsSeen →
        snapshot.wants path = false

namespace Spent

theorem start
    (limit : Nat)
    (hosting : Hosting)
    (tuning : Tuning)
    (path : String) :
    Spent path { limit := limit, executor := { hosting := hosting, tuning := tuning } } where
  queued := .inl (Queue.paused_of_none rfl)
  snapshots := by rintro _ ⟨⟩

/-- The caller may do to the queue whatever does not resume the path. -/
theorem requeue
    {queue : Queue}
    (spent : Spent path scheduler)
    (kept : scheduler.queue.Paused path → queue.Paused path) :
    Spent path { scheduler with queue := queue } where
  queued := spent.queued.imp_left kept
  snapshots := spent.snapshots

theorem tick
    (spent : Spent path scheduler)
    (accounted : Accounted scheduler) :
    Spent path { scheduler with taken := scheduler.taken ++ [scheduler.queue.snapshot] } := by
  refine ⟨spent.queued, ?_⟩
  intro snapshot member current
  rcases waiting_of_tick member with earlier | rfl
  · exact spent.snapshots earlier current
  · rcases spent.queued with paused | ⟨report, under, _⟩
    · exact paused.snapshot accounted.tidy
    · -- The snapshot misses a report, so it is out of date.
      have counted := accounted.counted
      have waits := List.length_pos_of_mem under
      have seen : scheduler.executor.emitted ≤ scheduler.queue.reportsSeen := current
      omega

section Work

variable {move : Executor.Move}

theorem drives
    (spent : Spent path scheduler)
    (accounted : Accounted scheduler)
    (drives : Drives scheduler move next) :
    Spent path next := by
  constructor
  · rcases spent.queued with paused | ⟨report, under, about, last⟩
    · exact .inl (drives.paused accounted.tidy paused)
    · rcases drives.delivers accounted.one under with still | applied
      · exact .inr ⟨report, still, about, last⟩
      · exact .inl (applied ▸ Queue.paused_reconcile accounted.tidy about last)
  · intro snapshot member current
    have earlier := drives.emitted_le accounted.one
    exact spent.snapshots (drives.waiting_subset member)
      (Nat.le_trans earlier current)

/-- When an engine of the path makes its final report every waiting snapshot is out of date. -/
theorem of_last
    {index : Nat}
    {report : Report}
    (accounted : Accounted scheduler)
    (drives : Drives scheduler (.act index (.report report)) next)
    (about : report.path = path)
    (last : report.runnable = false) :
    Spent path next := by
  cases drives.step.effect accounted.one with
  | calm _ _ _ _ _ still => cases still
  | stopped handles => cases handles.isAct
  | started handles => cases handles.isAct
  | acted _ _ _ silent => cases silent
  | reported _ _ _ _ _ undelivered emitted =>
      constructor
      · have queue := drives.queue
        cases hosting : scheduler.executor.hosting with
        | background =>
            simp only [hosting] at undelivered
            refine .inr ⟨report, ?_, about, last⟩
            rw [undelivered]
            exact List.mem_append_right _ (List.mem_singleton_self _)
        | inline =>
            simp only [hosting, Executor.Move.report?, hear] at queue
            exact .inl (queue ▸ Queue.paused_reconcile accounted.tidy about last)
      · intro snapshot member current
        have seen := accounted.seen (drives.waiting_subset member)
        have counted := accounted.counted
        omega

/-- No engine of the path is started. -/
theorem count_of_drives
    (spent : Spent path scheduler)
    (accounted : Accounted scheduler)
    (drives : Drives scheduler move next) :
    next.executor.started.count path = scheduler.executor.started.count path := by
  rcases drives.starts accounted with same | ⟨_, entry, _, _, member, first, current, _, runs⟩
  · rw [same]
  · have elsewhere : entry.path ≠ path := by
      intro here
      have wants := Snapshot.wants_of_next? first here
      rw [spent.snapshots member current] at wants
      cases wants
    rw [Executor.started_of_runs runs, List.count_append, List.count_singleton]
    simp [elsewhere]

end Work

theorem step
    {move : Move}
    (spent : Spent path scheduler)
    (accounted : Accounted scheduler)
    (step : Step scheduler move next)
    (unasked : move.adds path = false) :
    Spent path next ∧
      next.executor.started.count path = scheduler.executor.started.count path := by
  have kept := step.paused accounted.tidy unasked
  cases step with
  | add | stop | discard | restore => exact ⟨spent.requeue kept, rfl⟩
  | tick => exact ⟨spent.tick accounted, rfl⟩
  | post found =>
      have drives := drives_post found
      exact ⟨spent.drives accounted drives, spent.count_of_drives accounted drives⟩
  | work own acting =>
      have drives := drives_work own acting
      exact ⟨spent.drives accounted drives, spent.count_of_drives accounted drives⟩

/-- Until a file is added to the path no engine of it is started. -/
theorem count_of_trace
    {moves : List Move}
    {final : Scheduler}
    (spent : Spent path scheduler)
    (accounted : Accounted scheduler)
    (run : Trace Step scheduler moves final)
    (unasked : ∀ move ∈ moves, move.adds path = false) :
    Spent path final ∧ Accounted final ∧
      final.executor.started.count path = scheduler.executor.started.count path := by
  induction run with
  | refl => exact ⟨spent, accounted, rfl⟩
  | @snoc labels middle final label past last earlier =>
      obtain ⟨still, counted, same⟩ :=
        earlier fun move member => unasked move (List.mem_append_left _ member)
      obtain ⟨after, kept⟩ := still.step counted last (unasked label (by simp))
      exact ⟨after, counted.step last, kept.trans same⟩

end Spent

/-! ## As many starts as requests -/

/--
No more engines of the path were started than there were requests, and if none is left over then an
engine of the path is at work or the path is spent.
-/
structure Allotted (path : String) (requests : Nat) (scheduler : Scheduler) : Prop where
  bounded : scheduler.executor.started.count path ≤ requests
  left :
    scheduler.executor.started.count path < requests ∨ scheduler.executor.Busy path ∨
      Spent path scheduler

namespace Allotted

variable {requests : Nat}

theorem start
    (limit : Nat)
    (hosting : Hosting)
    (tuning : Tuning)
    (path : String) :
    Allotted path 0 { limit := limit, executor := { hosting := hosting, tuning := tuning } } where
  bounded := Nat.le_refl 0
  left := .inr (.inr (.start limit hosting tuning path))

/-- The caller may do whatever does not add a file to the path. -/
theorem requeue
    {queue : Queue}
    (allotted : Allotted path requests scheduler)
    (kept : scheduler.queue.Paused path → queue.Paused path) :
    Allotted path requests { scheduler with queue := queue } where
  bounded := allotted.bounded
  left := allotted.left.imp_right fun ended => ended.imp_right fun spent => spent.requeue kept

theorem drives
    {move : Executor.Move}
    (allotted : Allotted path requests scheduler)
    (accounted : Accounted scheduler)
    (drives : Drives scheduler move next)
    (calm : ∀ index, move ≠ .panic index) :
    Allotted path requests next := by
  rcases drives.starts accounted with same | ⟨_, entry, file, _, member, first, current, idle, runs⟩
  · refine ⟨same ▸ allotted.bounded, ?_⟩
    rcases allotted.left with remaining | busy | spent
    · exact .inl (same ▸ remaining)
    · rcases drives.step.busy busy with going | rests
      · exact .inr (.inl going)
      · cases rests with
        | panic index => exact absurd rfl (calm index)
        | report about last => exact .inr (.inr (.of_last accounted drives about last))
    · exact .inr (.inr (spent.drives accounted drives))
  · have started := Executor.started_of_runs runs
    by_cases here : entry.path = path
    · have remaining : scheduler.executor.started.count path < requests := by
        rcases allotted.left with remaining | busy | spent
        · exact remaining
        · exact absurd busy (idle path)
        · have wants := Snapshot.wants_of_next? first here
          rw [spent.snapshots member current] at wants
          cases wants
      constructor
      · rw [started, List.count_append, List.count_singleton, here, beq_self_eq_true]
        exact remaining
      · exact .inr (.inl (Executor.busy_of_runs runs here))
    · have same : next.executor.started.count path = scheduler.executor.started.count path := by
        rw [started, List.count_append, List.count_singleton]
        simp [here]
      refine ⟨same ▸ allotted.bounded, ?_⟩
      rcases allotted.left with remaining | busy | spent
      · exact .inl (same ▸ remaining)
      · exact absurd busy (idle path)
      · exact .inr (.inr (spent.drives accounted drives))

theorem step
    {move : Move}
    (allotted : Allotted path requests scheduler)
    (accounted : Accounted scheduler)
    (step : Step scheduler move next)
    (calm : ∀ index, move ≠ .work (.panic index)) :
    Allotted path (requests + if move.adds path then 1 else 0) next := by
  by_cases asked : move.adds path = true
  · rw [if_pos asked]
    have bounded := allotted.bounded
    cases step with
    | add => exact ⟨Nat.le_succ_of_le bounded, .inl (Nat.lt_succ_of_le bounded)⟩
    | stop | discard | restore | tick | post | work => cases asked
  · rw [if_neg asked]
    have kept := step.paused accounted.tidy (Bool.eq_false_iff.mpr asked)
    cases step with
    | add | stop | discard | restore => exact allotted.requeue kept
    | tick =>
        exact ⟨allotted.bounded,
          allotted.left.imp_right fun ended => ended.imp_right fun spent => spent.tick accounted⟩
    | post found => exact allotted.drives accounted (drives_post found) (by rintro _ ⟨⟩)
    | work own acting =>
        refine allotted.drives accounted (drives_work own acting) ?_
        rintro index rfl
        exact calm index rfl

end Allotted

theorem allotted_of_trace
    {limit : Nat}
    {hosting : Hosting}
    {tuning : Tuning}
    {moves : List Move}
    {final : Scheduler}
    (run :
      Trace Step { limit := limit, executor := { hosting := hosting, tuning := tuning } }
        moves final)
    (calm : ∀ index, Move.work (.panic index) ∉ moves) :
    Allotted path (moves.countP (Move.adds path)) final := by
  induction run with
  | refl => exact .start limit hosting tuning path
  | @snoc labels middle final label past last earlier =>
      have allotted := earlier fun index member => calm index (List.mem_append_left _ member)
      rw [List.countP_append, List.countP_singleton]
      refine allotted.step (accounted_of_trace past) last ?_
      rintro index rfl
      exact calm index (by simp)

/--
On every run in which no engine panics, no more engines are started for a path than files were added
to it.  And once an engine of the path has made its final report, so that its upload has finished,
failed or was stopped, no engine is started for the path until a file is added to it again, whatever
snapshots still wait.
-/
theorem starts_at_most_requests
    {limit : Nat}
    {hosting : Hosting}
    {tuning : Tuning}
    {moves : List Move}
    {final : Scheduler}
    (run :
      Trace Step { limit := limit, executor := { hosting := hosting, tuning := tuning } }
        moves final)
    (calm : ∀ index, Move.work (.panic index) ∉ moves) :
    final.executor.started.count path ≤ moves.countP (Move.adds path) ∧
      ∀ {index : Nat} {report : Report} {ended later : Scheduler} {further : List Move},
        Step final (.work (.act index (.report report))) ended →
          report.path = path → report.runnable = false →
            Trace Step ended further later → (∀ move ∈ further, move.adds path = false) →
              later.executor.started.count path = final.executor.started.count path := by
  constructor
  · exact (allotted_of_trace run calm).bounded
  · intro index report ended later further ending about last continued unasked
    have accounted := accounted_of_trace run
    have resting : Spent path ended := by
      cases ending with
      | work own acting => exact .of_last accounted (drives_work own acting) about last
    have same : ended.executor.started = final.executor.started := by
      cases ending with
      | work own acting =>
          rcases (drives_work own acting).starts accounted with same | ⟨_, _, _, handles, _⟩
          · exact same
          · cases handles
    rw [← same]
    exact (resting.count_of_trace (accounted.step ending) continued unasked).2.2

/-- A file is added, two snapshots are taken, and the engine that the first one starts sends it. -/
def sentOnce : List Move :=
  [ .add ⟨0, .ofBytes [1]⟩ "a", .tick, .tick, .post 0, .post 0, .work .handle,
    .work (.act 0 (.create (.ok (Response.success ⟨"a", 1⟩)))), .work (.act 0 .check),
    .work (.act 0 (.read (.ok [1]))),
    .work (.act 0 (.chunk 0 "AQ==" (.ok (Response.success ⟨"a", 1, 1⟩)))), .work (.act 0 .check) ]

/-- The slot is free again before the last report is applied, and the second snapshot is handled. -/
def overtaken : List Move :=
  [ .work (.finish 0), .work (.notice 0), .work .handle,
    .work (.deliver (.progress ⟨"a", 1, false, ""⟩)), .tick, .post 0, .work .handle ]

theorem sent_once_is_started_once :
    ∃ final ended later,
      Trace Step { limit := 10, executor := { hosting := .background, tuning := Config.tuning {} } }
          sentOnce final ∧
        Step final (.work (.act 0 (.report ⟨"a", 1, false, ""⟩))) ended ∧
        Trace Step ended overtaken later ∧
        final.executor.started = ["a"] ∧ final.executor.started.count "a" ≤ 1 ∧
        later.executor.started.count "a" = 1 := by
  have made :
      ((sentOnce.foldlM move?
          { limit := 10, executor := { hosting := .background, tuning := Config.tuning {} } }).bind
        fun final =>
          (final.move? (.work (.act 0 (.report ⟨"a", 1, false, ""⟩)))).bind fun ended =>
            (overtaken.foldlM move? ended).map fun _ => final.executor.started) = some ["a"] := by
    decide
  obtain ⟨final, sent, rest⟩ := Option.bind_eq_some_iff.mp made
  obtain ⟨ended, reported, rest⟩ := Option.bind_eq_some_iff.mp rest
  obtain ⟨later, handled, started⟩ := Option.map_eq_some_iff.mp rest
  have run := Trace.of_foldlM Step step_of_move? sent
  have ending := step_of_move? reported
  have further := Trace.of_foldlM Step step_of_move? handled
  have calm : ∀ index, Move.work (.panic index) ∉ sentOnce := by simp [sentOnce]
  have bounded : final.executor.started.count "a" ≤ sentOnce.countP (Move.adds "a") :=
    (starts_at_most_requests run calm).1
  have same : later.executor.started.count "a" = final.executor.started.count "a" :=
    (starts_at_most_requests run calm).2 ending rfl rfl further (by decide)
  rw [started] at same
  exact ⟨final, ended, later, run, ending, further, started, bounded, same⟩

end Scheduler

end ResumableUpload
