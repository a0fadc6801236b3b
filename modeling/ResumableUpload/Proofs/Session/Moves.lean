import ResumableUpload.Proofs.Scheduler.Moves
import ResumableUpload.Session

/-!
# Operations of a session are moves of its scheduler

A session without its endpoint is a scheduler none of whose snapshots is under way.  What its executor
does is a move of that; a snapshot that is sent is two moves; and each of its operations is a move that
leaves the executor alone, or none if it is refused (`Session.Calls`).
-/

namespace ResumableUpload.Session

variable {session : Session} {path : String} {infos : List PartialInfo}

/-- What drives the executor of a session. -/
def scheduler (session : Session) : Scheduler where
  limit := session.config.maxQueued
  executor := session.executor
  queue := session.queue

/-- The schedulers of one session are those that another one leads to. -/
def Follows (session next : Session) : Prop :=
  next.config = session.config ∧
    ∃ moves, Trace Scheduler.Step session.scheduler moves next.scheduler

namespace Follows

theorem refl (session : Session) : Follows session session :=
  ⟨rfl, [], .refl⟩

theorem trans
    {first second third : Session}
    (before : Follows first second)
    (after : Follows second third) :
    Follows first third := by
  obtain ⟨same, earlier, past⟩ := before
  obtain ⟨also, later, further⟩ := after
  exact ⟨also.trans same, _, past.append further⟩

/-- What the executor does by itself, with the report that it brings. -/
theorem work
    {move : Executor.Move}
    {executor : Executor}
    (own : Scheduler.isWork move = true)
    (step : Executor.Step session.executor move executor) :
    Follows session
      { session with
        executor := executor
        queue := Scheduler.hear session.queue (move.report? session.executor.hosting) } :=
  ⟨rfl, [.work move], .snoc .refl (.work own step)⟩

/-- A snapshot that is taken and reaches the executor before anything else happens. -/
theorem send (session : Session) :
    Follows session
      { session with executor := session.executor.receive session.queue.snapshot } := by
  have taken : Trace Scheduler.Step session.scheduler [.tick] _ := .snoc .refl .tick
  exact ⟨rfl, [.tick, .post 0], taken.snoc (.post rfl)⟩

end Follows

/-! ## Operations -/

/-- A session after operations of whoever uses it, which leave its executor alone. -/
structure Calls (session next : Session) : Prop where
  executor : next.executor = session.executor
  follows : Follows session next

namespace Calls

theorem refl (session : Session) : Calls session session :=
  ⟨rfl, .refl session⟩

theorem trans
    {first second third : Session}
    (before : Calls first second)
    (after : Calls second third) :
    Calls first third :=
  ⟨after.executor.trans before.executor, before.follows.trans after.follows⟩

/-- What leaves queue and executor alone is no move. -/
theorem of_eq
    {next : Session}
    (config : next.config = session.config)
    (executor : next.executor = session.executor)
    (queue : next.queue = session.queue) :
    Calls session next := by
  have same : next.scheduler = session.scheduler := by
    simp only [scheduler, config, executor, queue]
  exact ⟨executor, config, [], same ▸ .refl⟩

/-- What changes the queue by a move of the scheduler. -/
theorem of_step
    {queue : Queue}
    {move : Scheduler.Move}
    (step :
      Scheduler.Step session.scheduler move { session.scheduler with queue := queue }) :
    Calls session { session with queue := queue } :=
  ⟨rfl, rfl, [move], .snoc .refl step⟩

theorem add (session : Session) (file : FileHandle) (path : String) :
    Calls session (session.add file path).1 := by
  unfold Session.add
  split
  case h_1 added => exact of_step (.add added)
  case h_2 => exact refl session

theorem stop (session : Session) (path : String) : Calls session (session.stop path).1 := by
  unfold Session.stop
  split
  case h_1 stopped => exact of_step (.stop stopped)
  case h_2 => exact refl session

theorem discard (session : Session) (path : String) : Calls session (session.discard path).1 := by
  unfold Session.discard
  split
  case h_1 deleted => exact of_step (.discard deleted)
  case h_2 => exact refl session

theorem restoreFrom (session : Session) (infos : List PartialInfo) :
    Calls session (session.restoreFrom infos).1 :=
  of_step (.restore infos)

theorem call
    {α : Type}
    (session : Session)
    (reply : Nat → α)
    (operation : Endpoint → Endpoint × Answer α) :
    Calls session (session.call reply operation).1 := by
  unfold Session.call
  split <;> exact of_eq rfl rfl rfl

theorem sendChunk (session : Session) (path content : String) (offset : Nat) :
    Calls session (session.sendChunk path content offset).1 := by
  unfold Session.sendChunk
  split <;> exact of_eq rfl rfl rfl

theorem answerChunk (session : Session) (call : ChunkCall) :
    Calls session (session.answerChunk call).1 :=
  of_eq rfl rfl rfl

theorem callDelete (session : Session) (path : String) :
    Calls session (session.callDelete path).1 := by
  unfold Session.callDelete
  split
  case h_1 => exact of_eq rfl rfl rfl
  case h_2 => exact call session _ _

theorem callList (session : Session) : Calls session session.callList.1 := by
  unfold Session.callList
  split
  case h_1 => exact of_eq rfl rfl rfl
  case h_2 => exact call session _ _

theorem delete (session : Session) (path : String) : Calls session (session.delete path).1 := by
  have discarded := discard session path
  unfold Session.delete
  split
  case h_1 refused => exact refused ▸ discarded
  case h_2 next taken =>
      have called := callDelete next path
      rw [taken] at discarded
      split
      case h_1 failed =>
          rw [failed] at called
          exact discarded.trans called
      case h_2 answered =>
          rw [answered] at called
          split <;> exact discarded.trans called

theorem restore (session : Session) : Calls session session.restore.1 := by
  have called := callList session
  unfold Session.restore
  split
  case h_1 failed =>
      rw [failed] at called
      exact called
  case h_2 next response answered =>
      rw [answered] at called
      split
      case isTrue => exact called.trans (restoreFrom next _)
      case isFalse => exact called

end Calls

end ResumableUpload.Session
