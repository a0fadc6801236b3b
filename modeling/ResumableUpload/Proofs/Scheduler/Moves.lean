import ResumableUpload.Proofs.Executor.Moves

/-!
# Moves of a scheduler

A `Scheduler` is a queue with the executor that it drives.  The caller adds, stops and discards paths
and restores what the endpoint lists; a tick takes a snapshot of the queue, which reaches the
executor a moment later, in any order with others; the executor makes its own moves; and the reports
that it delivers are applied to the queue, by an inline executor as they are made.

Calls that are refused change nothing and are left out.
-/

namespace ResumableUpload

/-- A queue with the executor that it drives. -/
structure Scheduler where
  /-- How many entries the queue may hold. -/
  limit : Nat
  executor : Executor
  queue : Queue := {}
  /-- Snapshots that were taken and have not reached the executor. -/
  taken : List Snapshot := []

namespace Scheduler

/-- What happens next to a scheduler. -/
inductive Move where
  | add (file : FileHandle) (path : String)
  | stop (path : String)
  | discard (path : String)
  | restore (infos : List PartialInfo)
  /-- A snapshot of the queue is taken. -/
  | tick
  /-- A snapshot that was taken reaches the executor. -/
  | post (position : Nat)
  /-- The executor makes a move of its own. -/
  | work (move : Executor.Move)

/-- The report that an engine makes in a move. -/
def Move.made? : Move → Option Report
  | .work move => move.made?
  | _ => none

/-- The report that is applied to the queue in a move. -/
def Move.heard? (hosting : Hosting) : Move → Option Report
  | .work move => move.report? hosting
  | _ => none

/-- The queue after it has heard of a report, if there was one. -/
def hear (queue : Queue) : Option Report → Queue
  | some report => queue.reconcile report
  | none => queue

/-- Whether a move of the executor is one that it makes by itself. -/
def isWork : Executor.Move → Bool
  | .send _ => false
  | _ => true

/-- The moves that can be made. -/
inductive Step : Scheduler → Move → Scheduler → Prop where
  | add {scheduler : Scheduler} {file : FileHandle} {path : String} {queue : Queue}
      (added : scheduler.queue.add scheduler.limit file path = .ok queue) :
      Step scheduler (.add file path) { scheduler with queue := queue }
  | stop {scheduler : Scheduler} {path : String} {queue : Queue}
      (stopped : scheduler.queue.stop? path = some queue) :
      Step scheduler (.stop path) { scheduler with queue := queue }
  | discard {scheduler : Scheduler} {path : String} {queue : Queue}
      (deleted : scheduler.queue.delete? path = some queue) :
      Step scheduler (.discard path) { scheduler with queue := queue }
  | restore {scheduler : Scheduler} (infos : List PartialInfo) :
      Step scheduler (.restore infos)
        { scheduler with queue := (scheduler.queue.restore scheduler.limit infos).1 }
  | tick {scheduler : Scheduler} :
      Step scheduler .tick
        { scheduler with taken := scheduler.taken ++ [scheduler.queue.snapshot] }
  | post {scheduler : Scheduler} {position : Nat} {snapshot : Snapshot}
      (found : scheduler.taken[position]? = some snapshot) :
      Step scheduler (.post position)
        { scheduler with
          taken := scheduler.taken.eraseIdx position
          executor := scheduler.executor.receive snapshot }
  | work {scheduler : Scheduler} {move : Executor.Move} {executor : Executor}
      (own : isWork move = true)
      (step : Executor.Step scheduler.executor move executor) :
      Step scheduler (.work move)
        { scheduler with
          executor := executor
          queue := hear scheduler.queue (move.report? scheduler.executor.hosting) }

/-- The scheduler after a move, if it can be made. -/
def move? (scheduler : Scheduler) : Move → Option Scheduler
  | .add file path =>
    match scheduler.queue.add scheduler.limit file path with
    | .ok queue => some { scheduler with queue := queue }
    | .error _ => none
  | .stop path => (scheduler.queue.stop? path).map fun queue => { scheduler with queue := queue }
  | .discard path =>
    (scheduler.queue.delete? path).map fun queue => { scheduler with queue := queue }
  | .restore infos =>
    some { scheduler with queue := (scheduler.queue.restore scheduler.limit infos).1 }
  | .tick => some { scheduler with taken := scheduler.taken ++ [scheduler.queue.snapshot] }
  | .post position =>
    (scheduler.taken[position]?).map fun snapshot =>
      { scheduler with
        taken := scheduler.taken.eraseIdx position
        executor := scheduler.executor.receive snapshot }
  | .work move =>
    if isWork move then
      (scheduler.executor.move? move).map fun executor =>
        { scheduler with
          executor := executor
          queue := hear scheduler.queue (move.report? scheduler.executor.hosting) }
    else none

theorem step_of_move?
    {scheduler next : Scheduler}
    {move : Move}
    (made : scheduler.move? move = some next) :
    Step scheduler move next := by
  cases move with
  | add file path =>
      simp only [move?] at made
      split at made
      case h_1 queue added => cases made; exact .add added
      case h_2 => cases made
  | stop path =>
      obtain ⟨queue, stopped, rfl⟩ := Option.map_eq_some_iff.mp made
      exact .stop stopped
  | discard path =>
      obtain ⟨queue, deleted, rfl⟩ := Option.map_eq_some_iff.mp made
      exact .discard deleted
  | restore infos => cases made; exact .restore infos
  | tick => cases made; exact .tick
  | post position =>
      obtain ⟨snapshot, found, rfl⟩ := Option.map_eq_some_iff.mp made
      exact .post found
  | work move =>
      simp only [move?] at made
      split at made
      case isTrue own =>
          obtain ⟨executor, moved, rfl⟩ := Option.map_eq_some_iff.mp made
          exact .work own (Executor.step_of_move? moved)
      case isFalse => cases made

end Scheduler

end ResumableUpload
