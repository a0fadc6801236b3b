import ResumableUpload.Proofs.Executor.Effects
import ResumableUpload.Proofs.Queue.Entries
import ResumableUpload.Proofs.Scheduler.Moves

/-!
# Accounting of reports

Every report that was made was either applied to the queue or waits for delivery, and no snapshot has
seen more reports than the queue.  So a snapshot from which an engine is started was taken after
every report of the engines before it was applied, and while an engine opens its upload no report is
under way.
-/

namespace ResumableUpload

namespace Scheduler

variable {scheduler next : Scheduler} {move : Executor.Move} {snapshot : Snapshot}

/-- The snapshots that may still be handled. -/
def waiting (scheduler : Scheduler) : List Snapshot :=
  scheduler.taken ++ scheduler.executor.requests

/-- After a tick nothing waits that did not wait before, except the snapshot that was taken. -/
theorem waiting_of_tick
    (member :
      snapshot ∈ waiting
        { scheduler with taken := scheduler.taken ++ [scheduler.queue.snapshot] }) :
    snapshot ∈ scheduler.waiting ∨ snapshot = scheduler.queue.snapshot := by
  simp only [waiting, List.mem_append, List.mem_singleton] at member ⊢
  rcases member with (earlier | last) | queued
  · exact .inl (.inl earlier)
  · exact .inr last
  · exact .inl (.inr queued)

/-- The executor makes a move, and the queue hears of the report that it brings. -/
structure Drives (scheduler : Scheduler) (move : Executor.Move) (next : Scheduler) : Prop where
  step : Executor.Step scheduler.executor move next.executor
  taken : ∀ snapshot ∈ next.taken, snapshot ∈ scheduler.taken
  sent : ∀ {snapshot : Snapshot}, move = .send snapshot → snapshot ∈ scheduler.taken
  queue : next.queue = hear scheduler.queue (move.report? scheduler.executor.hosting)

theorem hear_cases
    (queue : Queue)
    (heard : Option Report) :
    hear queue heard = queue ∨
      ∃ report, heard = some report ∧ hear queue heard = queue.reconcile report := by
  cases heard with
  | none => exact .inl rfl
  | some report => exact .inr ⟨report, rfl, rfl⟩

/-- What holds of a queue and is kept by every report holds after what is heard. -/
theorem hear_of_reconcile
    (property : Queue → Prop)
    {queue : Queue}
    (held : property queue)
    (kept : ∀ report, property (queue.reconcile report))
    (heard : Option Report) :
    property (hear queue heard) := by
  cases heard with
  | none => exact held
  | some report => exact kept report

theorem drives_post
    {position : Nat}
    (found : scheduler.taken[position]? = some snapshot) :
    Drives scheduler (.send snapshot)
      { scheduler with
        taken := scheduler.taken.eraseIdx position
        executor := scheduler.executor.receive snapshot } where
  step := .send snapshot
  taken _ member := List.mem_of_mem_eraseIdx member
  sent same := by
    cases same
    exact List.mem_of_getElem? found
  queue := rfl

theorem drives_work
    {executor : Executor}
    (own : isWork move = true)
    (step : Executor.Step scheduler.executor move executor) :
    Drives scheduler move
      { scheduler with
        executor := executor
        queue := hear scheduler.queue (move.report? scheduler.executor.hosting) } where
  step := step
  taken _ member := member
  sent same := by
    rw [same] at own
    cases own
  queue := rfl

/-- What the executor does in a move of the scheduler. -/
def work? (scheduler : Scheduler) : Move → Option Executor.Move
  | .post position => (scheduler.taken[position]?).map .send
  | .work move => some move
  | _ => none

theorem Step.drives
    {move : Move}
    {work : Executor.Move}
    (step : Step scheduler move next)
    (works : scheduler.work? move = some work) :
    Drives scheduler work next := by
  cases step with
  | post found =>
      rw [work?, found] at works
      cases works
      exact drives_post found
  | work own step =>
      cases works
      exact drives_work own step
  | add | stop | discard | restore | tick => cases works

/-- A step leaves the executor alone, or the executor moves. -/
theorem Step.executor_cases
    {move : Move}
    (step : Step scheduler move next) :
    next.executor = scheduler.executor ∨
      ∃ work,
        scheduler.work? move = some work ∧
          Executor.Step scheduler.executor work next.executor := by
  cases step with
  | post found => exact .inr ⟨_, congrArg (Option.map _) found, (drives_post found).step⟩
  | work own acting => exact .inr ⟨_, rfl, acting⟩
  | add | stop | discard | restore | tick => exact .inl rfl

theorem Step.hosting_eq
    {move : Move}
    (step : Step scheduler move next) :
    next.executor.hosting = scheduler.executor.hosting := by
  rcases step.executor_cases with same | ⟨_, _, acting⟩
  · rw [same]
  · exact acting.hosting_eq

theorem hosting_of_trace
    {moves : List Move}
    (run : Trace Step scheduler moves next) :
    next.executor.hosting = scheduler.executor.hosting := by
  induction run with
  | refl => rfl
  | snoc _ last same => exact last.hosting_eq.trans same

/-- In a move the executor handles a snapshot. -/
def Handles (scheduler : Scheduler) (move : Move) (snapshot : Snapshot) : Prop :=
  ∃ work, scheduler.work? move = some work ∧ scheduler.executor.Handles work snapshot

namespace Drives

theorem queue_of_silent
    (drives : Drives scheduler move next)
    (silent : move.report? scheduler.executor.hosting = none) :
    next.queue = scheduler.queue := by
  rw [drives.queue, silent]
  rfl

theorem queued_cases
    {path : String}
    {entry : Entry}
    (drives : Drives scheduler move next)
    (tidy : scheduler.queue.Tidy)
    (queued : scheduler.queue.find? path = some entry) :
    next.queue.find? path = some entry ∨
      ∃ report,
        move.report? scheduler.executor.hosting = some report ∧ report.path = path ∧
          (entry.size ≤ report.uploaded ∧ next.queue.find? path = none ∨
            report.uploaded < entry.size ∧ next.queue.find? path = some (entry.apply report)) := by
  have heard := hear_cases scheduler.queue (move.report? scheduler.executor.hosting)
  rw [← drives.queue] at heard
  rcases heard with same | ⟨report, brought, applied⟩
  · rw [same]
    exact .inl queued
  · rw [applied, tidy.find?_reconcile]
    by_cases here : path = report.path
    · rw [if_pos here, queued, Option.bind_some]
      refine .inr ⟨report, brought, here.symm, ?_⟩
      by_cases whole : entry.size ≤ report.uploaded
      · exact .inl ⟨whole, if_pos whole⟩
      · exact .inr ⟨Nat.lt_of_not_le whole, if_neg whole⟩
    · rw [if_neg here]
      exact .inl queued

/-- Only a report that confirms all of an entry removes it. -/
theorem still_queued
    {path : String}
    {entry : Entry}
    (drives : Drives scheduler move next)
    (tidy : scheduler.queue.Tidy)
    (queued : scheduler.queue.find? path = some entry)
    (partly :
      ∀ report, move.report? scheduler.executor.hosting = some report → report.path = path →
        report.uploaded < entry.size) :
    ∃ after, next.queue.find? path = some after ∧ after.size = entry.size := by
  rcases drives.queued_cases tidy queued with same | ⟨report, brought, about, ended | applied⟩
  · exact ⟨entry, same, rfl⟩
  · have below := partly report brought about
    omega
  · exact ⟨entry.apply report, applied.2, rfl⟩

theorem handled
    (drives : Drives scheduler move next)
    (handles : scheduler.executor.Handles move snapshot) :
    snapshot ∈ scheduler.waiting := by
  apply List.mem_append.mpr
  cases handles with
  | inlined => exact .inl (drives.sent rfl)
  | queued _ requests =>
      refine .inr ?_
      rw [requests]
      exact List.mem_cons_self

/-- No move of the executor makes a snapshot. -/
theorem waiting_subset
    (drives : Drives scheduler move next)
    (member : snapshot ∈ next.waiting) :
    snapshot ∈ scheduler.waiting := by
  apply List.mem_append.mpr
  rcases List.mem_append.mp member with earlier | queued
  · exact .inl (drives.taken snapshot earlier)
  · rw [drives.step.frame.2.1] at queued
    exact (Executor.mem_waitingAfter queued).symm.imp_left drives.sent

theorem emitted_le
    (drives : Drives scheduler move next)
    (one : scheduler.executor.OneTransfer) :
    scheduler.executor.emitted ≤ next.executor.emitted := by
  cases drives.step.effect one with
  | calm _ _ _ emitted => exact Nat.le_of_eq emitted.symm
  | received _ _ _ emitted => exact Nat.le_of_eq emitted.symm
  | stopped _ _ _ _ emitted => exact Nat.le_of_eq emitted.symm
  | started _ _ _ _ _ _ _ emitted => exact Nat.le_of_eq emitted.symm
  | acted _ _ _ _ _ _ _ emitted => exact Nat.le_of_eq emitted.symm
  | delivered _ _ _ emitted => exact Nat.le_of_eq emitted.symm
  | closed _ _ _ emitted => exact Nat.le_of_eq emitted.symm
  | reported _ _ _ _ _ _ emitted => exact emitted ▸ Nat.le_succ _

/-- A report that was made waits until it is applied to the queue. -/
theorem delivers
    {report : Report}
    (drives : Drives scheduler move next)
    (one : scheduler.executor.OneTransfer)
    (member : report ∈ scheduler.executor.undelivered) :
    report ∈ next.executor.undelivered ∨ next.queue = scheduler.queue.reconcile report := by
  cases drives.step.effect one with
  | calm _ _ undelivered => exact .inl (undelivered ▸ member)
  | received _ _ undelivered => exact .inl (undelivered ▸ member)
  | stopped _ _ _ undelivered => exact .inl (undelivered ▸ member)
  | started _ _ _ _ _ _ undelivered => exact .inl (undelivered ▸ member)
  | acted _ _ _ _ _ _ undelivered => exact .inl (undelivered ▸ member)
  | closed _ _ undelivered => exact .inl (undelivered ▸ member)
  | reported _ _ _ _ _ undelivered =>
      refine .inl ?_
      rw [undelivered]
      split
      · exact List.mem_append_left _ member
      · exact member
  | delivered _ _ undelivered =>
      rw [undelivered] at member
      rcases List.mem_cons.mp member with rfl | later
      · exact .inr drives.queue
      · exact .inl later

end Drives

/-- A snapshot that waits did so before, or it was just taken. -/
theorem Step.waiting_cases
    {move : Move}
    (step : Step scheduler move next)
    (member : snapshot ∈ next.waiting) :
    snapshot ∈ scheduler.waiting ∨ move = .tick ∧ snapshot = scheduler.queue.snapshot := by
  cases step with
  | tick => exact (waiting_of_tick member).imp_right fun same => ⟨rfl, same⟩
  | post found => exact .inl ((drives_post found).waiting_subset member)
  | work own acting => exact .inl ((drives_work own acting).waiting_subset member)
  | add | stop | discard | restore => exact .inl member

/-- What holds of an engine at work while these reports are under way. -/
structure Consistent (reports : List Report) (engine : Engine) : Prop where
  ordered : engine.Ordered
  /-- While the engine opens its upload no report is under way. -/
  opening : engine.Opening → reports = []
  /-- No report that is under way confirms all of the file. -/
  partly :
    ∀ {report : Report}, report ∈ reports → report.path = engine.path →
      report.uploaded < engine.size

theorem Consistent.requestStop
    {reports : List Report}
    {engine : Engine}
    (consistent : Consistent reports engine) :
    Consistent reports engine.requestStop where
  ordered := consistent.ordered.requestStop
  opening := consistent.opening
  partly := consistent.partly

/-- What holds of the reports, the snapshots and the engine at work between any two moves. -/
structure Accounted (scheduler : Scheduler) : Prop where
  one : scheduler.executor.OneTransfer
  tidy : scheduler.queue.Tidy
  counted :
    scheduler.executor.emitted =
      scheduler.queue.reportsSeen + scheduler.executor.undelivered.length
  seen :
    ∀ {snapshot : Snapshot}, snapshot ∈ scheduler.waiting →
      snapshot.reportsSeen ≤ scheduler.queue.reportsSeen
  snapshots :
    ∀ {snapshot : Snapshot}, snapshot ∈ scheduler.waiting →
      Queue.Tidy ⟨snapshot.entries, snapshot.reportsSeen⟩
  engines :
    ∀ {engine : Engine}, scheduler.executor.AtWork engine →
      Consistent scheduler.executor.undelivered engine

namespace Accounted

theorem start
    (limit : Nat)
    (hosting : Hosting)
    (tuning : Tuning) :
    Accounted { limit := limit, executor := { hosting := hosting, tuning := tuning } } where
  one := .start hosting tuning
  tidy := ⟨List.nodup_nil, fun member => by cases member⟩
  counted := rfl
  seen member := by cases member
  snapshots member := by cases member
  engines := by rintro _ ⟨_, _, ⟨⟩, _⟩

/-- Whatever the caller does to the queue is no concern of the executor. -/
theorem requeue
    {queue : Queue}
    (accounted : Accounted scheduler)
    (tidy : queue.Tidy)
    (seen : queue.reportsSeen = scheduler.queue.reportsSeen) :
    Accounted { scheduler with queue := queue } where
  one := accounted.one
  tidy := tidy
  counted := accounted.counted.trans (congrArg (· + _) seen.symm)
  seen member := Nat.le_trans (accounted.seen member) (Nat.le_of_eq seen.symm)
  snapshots := accounted.snapshots
  engines := accounted.engines

theorem tick (accounted : Accounted scheduler) :
    Accounted { scheduler with taken := scheduler.taken ++ [scheduler.queue.snapshot] } := by
  refine ⟨accounted.one, accounted.tidy, accounted.counted, ?_, ?_, accounted.engines⟩
  · intro snapshot member
    rcases waiting_of_tick member with earlier | rfl
    · exact accounted.seen earlier
    · exact Nat.le_refl _
  · intro snapshot member
    rcases waiting_of_tick member with earlier | rfl
    · exact accounted.snapshots earlier
    · exact ⟨accounted.tidy.distinct, accounted.tidy.fits⟩

/-- A snapshot that may start an engine has seen every report. -/
theorem undelivered_of_current
    (accounted : Accounted scheduler)
    (member : snapshot ∈ scheduler.waiting)
    (current : scheduler.executor.emitted ≤ snapshot.reportsSeen) :
    scheduler.executor.undelivered = [] := by
  have counted := accounted.counted
  have seen := accounted.seen member
  apply List.eq_nil_of_length_eq_zero
  omega

theorem of_drives
    (accounted : Accounted scheduler)
    (drives : Drives scheduler move next)
    (counted :
      next.executor.emitted = next.queue.reportsSeen + next.executor.undelivered.length)
    (engines :
      ∀ {engine : Engine}, next.executor.AtWork engine →
        Consistent next.executor.undelivered engine) :
    Accounted next := by
  refine ⟨accounted.one.step drives.step, ?_, counted, ?_, ?_, engines⟩
  · rw [drives.queue]
    exact hear_of_reconcile Queue.Tidy accounted.tidy accounted.tidy.reconcile _
  · intro snapshot member
    have seen := accounted.seen (drives.waiting_subset member)
    have later : scheduler.queue.reportsSeen ≤ next.queue.reportsSeen := by
      rw [drives.queue]
      refine hear_of_reconcile (scheduler.queue.reportsSeen ≤ ·.reportsSeen) (Nat.le_refl _) ?_ _
      intro report
      rw [Queue.reportsSeen_reconcile]
      exact Nat.le_succ _
    exact Nat.le_trans seen later
  · intro snapshot member
    exact accounted.snapshots (drives.waiting_subset member)

/-- What is left to show of a move that makes and delivers no report. -/
theorem of_silent
    (accounted : Accounted scheduler)
    (drives : Drives scheduler move next)
    (silent : move.report? scheduler.executor.hosting = none)
    (undelivered : next.executor.undelivered = scheduler.executor.undelivered)
    (emitted : next.executor.emitted = scheduler.executor.emitted)
    (engines :
      ∀ {engine : Engine}, next.executor.AtWork engine →
        Consistent scheduler.executor.undelivered engine) :
    Accounted next := by
  refine accounted.of_drives drives ?_ ?_
  · rw [emitted, undelivered, drives.queue_of_silent silent]
    exact accounted.counted
  · rw [undelivered]
    exact engines

theorem drives
    (accounted : Accounted scheduler)
    (drives : Drives scheduler move next) :
    Accounted next := by
  cases drives.step.effect accounted.one with
  | calm engines _ undelivered emitted silent =>
      refine accounted.of_silent drives silent undelivered emitted ?_
      intro engine working
      exact accounted.engines (engines working)
  | received engines _ undelivered emitted =>
      refine accounted.of_silent drives rfl undelivered emitted ?_
      intro engine working
      exact accounted.engines (engines working)
  | stopped _ engines _ undelivered emitted silent =>
      refine accounted.of_silent drives silent undelivered emitted ?_
      intro engine working
      obtain ⟨before, earlier, rfl, _⟩ := engines working
      exact (accounted.engines earlier).requestStop
  | closed engines _ undelivered emitted =>
      refine accounted.of_silent drives rfl undelivered emitted ?_
      intro engine working
      obtain ⟨before, earlier, rfl | rfl⟩ := engines working
      · exact accounted.engines earlier
      · exact (accounted.engines earlier).requestStop
  | started handles _ first current engines _ undelivered emitted silent =>
      refine accounted.of_silent drives silent undelivered emitted ?_
      intro engine working
      obtain rfl := engines working
      have member := drives.handled handles
      obtain ⟨found, eligible, held⟩ := Snapshot.next?_eq_some first
      have size := (accounted.snapshots member).fits found held
      simp only [Entry.isEligible, Bool.and_eq_true, decide_eq_true_eq] at eligible
      rw [accounted.undelivered_of_current member current]
      constructor
      · exact Engine.ordered_start _ _ _ (by omega)
      · intro _
        rfl
      · intro report under
        cases under
  | acted _ working step silent engines _ undelivered emitted quiet =>
      refine accounted.of_silent drives quiet undelivered emitted ?_
      intro engine atWork
      obtain rfl := engines atWork
      have consistent := accounted.engines working
      constructor
      · exact consistent.ordered.step step
      · intro opening
        exact consistent.opening (step.opening opening).1
      · rw [step.path_eq, step.size_eq]
        exact consistent.partly
  | @reported index report before after _ _ working step engines _ undelivered emitted =>
      have consistent := accounted.engines working
      have counted := accounted.counted
      have agree : ∀ {engine : Engine}, next.executor.AtWork engine →
          Consistent next.executor.undelivered engine := by
        intro engine atWork
        obtain rfl := engines atWork
        obtain ⟨made, same⟩ := step.report_made
        constructor
        · exact consistent.ordered.step step
        · intro opening
          cases (step.opening opening).2
        · rw [step.path_eq, step.size_eq]
          intro reported member here
          rcases Executor.mem_of_reported undelivered member with earlier | rfl
          · exact consistent.partly earlier here
          · exact consistent.ordered.report_below made (same ▸ atWork.going)
      refine accounted.of_drives drives ?_ agree
      have queue := drives.queue
      cases hosting : scheduler.executor.hosting with
      | background =>
          simp only [hosting, Executor.Move.report?, hear] at undelivered queue
          rw [emitted, undelivered, queue, List.length_append, List.length_singleton]
          omega
      | inline =>
          simp only [hosting, Executor.Move.report?, hear] at undelivered queue
          rw [emitted, undelivered, queue, Queue.reportsSeen_reconcile]
          omega
  | @delivered report _ engines _ undelivered emitted =>
      refine accounted.of_drives drives ?_ ?_
      · have counted := accounted.counted
        have queue : next.queue = scheduler.queue.reconcile report := drives.queue
        rw [undelivered, List.length_cons] at counted
        rw [emitted, queue, Queue.reportsSeen_reconcile]
        omega
      · intro engine working
        have consistent := accounted.engines (engines working)
        rw [undelivered] at consistent
        constructor
        · exact consistent.ordered
        · intro opening
          cases consistent.opening opening
        · intro other member
          exact consistent.partly (List.mem_cons_of_mem _ member)

theorem step
    {move : Move}
    (accounted : Accounted scheduler)
    (step : Step scheduler move next) :
    Accounted next := by
  cases step with
  | add added =>
      exact accounted.requeue (accounted.tidy.add added) (Queue.reportsSeen_add added)
  | stop stopped =>
      exact accounted.requeue (accounted.tidy.stop stopped) (Queue.reportsSeen_stop stopped)
  | discard deleted =>
      exact accounted.requeue (accounted.tidy.delete deleted) (Queue.reportsSeen_delete deleted)
  | restore infos =>
      exact accounted.requeue accounted.tidy.restore (Queue.reportsSeen_restore _ _ infos)
  | tick => exact accounted.tick
  | post found => exact accounted.drives (drives_post found)
  | work own step => exact accounted.drives (drives_work own step)

end Accounted

theorem accounted_of_trace
    {limit : Nat}
    {hosting : Hosting}
    {tuning : Tuning}
    {moves : List Move}
    {final : Scheduler}
    (run :
      Trace Step { limit := limit, executor := { hosting := hosting, tuning := tuning } }
        moves final) :
    Accounted final :=
  run.invariant (.start limit hosting tuning) Accounted.step

end Scheduler

end ResumableUpload
