import ResumableUpload.Proofs.Scheduler.Accounting

/-!
# What an engine works for

Unless its path is discarded, an engine at work works for an entry of the queue that has the size of
its file: it was started from a snapshot that had seen every report, the entry was queued then, and
only a report that confirms all of the file removes it.
-/

namespace ResumableUpload

namespace Scheduler

variable {scheduler next : Scheduler} {path : String}

/-- What is at work on a path, or may be started for it, belongs to the entry that is queued. -/
structure Owned (path : String) (scheduler : Scheduler) : Prop where
  engines :
    ∀ {engine : Engine}, scheduler.executor.AtWork engine → engine.path = path →
      ∃ entry, scheduler.queue.find? path = some entry ∧ entry.size = engine.size
  snapshots :
    ∀ {snapshot : Snapshot} {listed : Entry},
      snapshot ∈ scheduler.waiting → scheduler.executor.emitted ≤ snapshot.reportsSeen →
        listed ∈ snapshot.entries → listed.path = path →
          ∃ entry, scheduler.queue.find? path = some entry ∧ entry.size = listed.size

/-- Unless it is discarded, what the caller does leaves an entry in the queue and of its size. -/
theorem Step.still_queued
    {move : Move}
    {entry : Entry}
    (step : Step scheduler move next)
    (tidy : scheduler.queue.Tidy)
    (queued : scheduler.queue.find? path = some entry)
    (idle : scheduler.work? move = none)
    (spared : move ≠ .discard path) :
    ∃ after, next.queue.find? path = some after ∧ after.size = entry.size := by
  cases step with
  | @add file other queue added =>
      by_cases here : other = path
      · subst here
        obtain ⟨_, ⟨before, found, size, _⟩ | ⟨missing, _⟩⟩ := Queue.add_cases added
        · cases queued.symm.trans found
          obtain ⟨after, still, _, same, _⟩ := Queue.find?_add added
          exact ⟨after, still, same.trans size.symm⟩
        · cases queued.symm.trans missing
      · exact ⟨entry, (Queue.find?_add_of_ne added (Ne.symm here)).trans queued, rfl⟩
  | @stop other queue stopped =>
      rw [Queue.find?_stop stopped, queued]
      split
      · exact ⟨entry.pause, rfl, rfl⟩
      · exact ⟨entry, rfl, rfl⟩
  | @discard other queue deleted =>
      have elsewhere : path ≠ other := by
        rintro rfl
        exact spared rfl
      rw [tidy.find?_delete deleted, if_neg elsewhere]
      exact ⟨entry, queued, rfl⟩
  | restore infos => exact ⟨entry, Queue.find?_restore_of_some queued, rfl⟩
  | tick => exact ⟨entry, queued, rfl⟩
  | post found =>
      rw [work?, found] at idle
      cases idle
  | work => cases idle

namespace Owned

theorem start
    (limit : Nat)
    (hosting : Hosting)
    (tuning : Tuning)
    (path : String) :
    Owned path { limit := limit, executor := { hosting := hosting, tuning := tuning } } where
  engines := by rintro _ ⟨_, _, ⟨⟩, _⟩
  snapshots := by rintro _ _ ⟨⟩

/-- The caller may do to the queue whatever leaves an entry of the same size. -/
theorem requeue
    {queue : Queue}
    (owned : Owned path scheduler)
    (kept :
      ∀ {entry : Entry}, scheduler.queue.find? path = some entry →
        ∃ after, queue.find? path = some after ∧ after.size = entry.size) :
    Owned path { scheduler with queue := queue } where
  engines working here := by
    obtain ⟨entry, queued, size⟩ := owned.engines working here
    obtain ⟨after, still, same⟩ := kept queued
    exact ⟨after, still, same.trans size⟩
  snapshots member current found here := by
    obtain ⟨entry, queued, size⟩ := owned.snapshots member current found here
    obtain ⟨after, still, same⟩ := kept queued
    exact ⟨after, still, same.trans size⟩

theorem tick
    (owned : Owned path scheduler)
    (tidy : scheduler.queue.Tidy) :
    Owned path { scheduler with taken := scheduler.taken ++ [scheduler.queue.snapshot] } where
  engines := owned.engines
  snapshots {snapshot listed} member current found here := by
    rcases waiting_of_tick member with earlier | rfl
    · exact owned.snapshots earlier current found here
    · have queued := tidy.find?_of_mem found
      rw [here] at queued
      exact ⟨listed, queued, rfl⟩

section Work

variable {move : Executor.Move}

/-- A move that brings no report leaves the entries and the snapshots as they were. -/
theorem of_silent
    (owned : Owned path scheduler)
    (drives : Drives scheduler move next)
    (silent : move.report? scheduler.executor.hosting = none)
    (emitted : next.executor.emitted = scheduler.executor.emitted)
    (engines :
      ∀ {engine : Engine}, next.executor.AtWork engine → engine.path = path →
        ∃ entry, scheduler.queue.find? path = some entry ∧ entry.size = engine.size) :
    Owned path next := by
  have queue := drives.queue_of_silent silent
  constructor
  · intro engine working here
    rw [queue]
    exact engines working here
  · intro snapshot listed member current found here
    rw [queue]
    rw [emitted] at current
    exact owned.snapshots (drives.waiting_subset member) current found here

/-- While a report is under way, or one has just been made, no snapshot has seen every report. -/
theorem of_stale
    (accounted : Accounted scheduler)
    (drives : Drives scheduler move next)
    (stale : scheduler.queue.reportsSeen < next.executor.emitted)
    (engines :
      ∀ {engine : Engine}, next.executor.AtWork engine → engine.path = path →
        ∃ entry, next.queue.find? path = some entry ∧ entry.size = engine.size) :
    Owned path next := by
  refine ⟨engines, ?_⟩
  intro snapshot listed member current
  have seen := accounted.seen (drives.waiting_subset member)
  omega

theorem drives
    (owned : Owned path scheduler)
    (accounted : Accounted scheduler)
    (drives : Drives scheduler move next) :
    Owned path next := by
  cases drives.step.effect accounted.one with
  | calm engines _ _ emitted silent =>
      refine owned.of_silent drives silent emitted ?_
      intro engine working here
      exact owned.engines (engines working) here
  | received engines _ _ emitted =>
      refine owned.of_silent drives rfl emitted ?_
      intro engine working here
      exact owned.engines (engines working) here
  | stopped _ engines _ _ emitted silent =>
      refine owned.of_silent drives silent emitted ?_
      intro engine working here
      obtain ⟨before, earlier, rfl, _⟩ := engines working
      have found : ∃ entry, scheduler.queue.find? path = some entry ∧ entry.size = before.size :=
        owned.engines earlier here
      exact found
  | closed engines _ _ emitted =>
      refine owned.of_silent drives rfl emitted ?_
      intro engine working here
      obtain ⟨before, earlier, same⟩ := engines working
      have found (at' : before.path = path) :
          ∃ entry, scheduler.queue.find? path = some entry ∧ entry.size = before.size :=
        owned.engines earlier at'
      rcases same with rfl | rfl
      · exact found here
      · exact found here
  | started handles _ first current engines _ _ emitted silent =>
      refine owned.of_silent drives silent emitted ?_
      intro engine working here
      obtain rfl := engines working
      have member := drives.handled handles
      obtain ⟨found, _, held⟩ := Snapshot.next?_eq_some first
      obtain ⟨entry, queued, size⟩ := owned.snapshots member current found here
      have fits := (accounted.snapshots member).fits found held
      exact ⟨entry, queued, size.trans fits.symm⟩
  | acted _ working step _ engines _ _ emitted quiet =>
      refine owned.of_silent drives quiet emitted ?_
      intro engine atWork here
      obtain rfl := engines atWork
      rw [step.size_eq]
      exact owned.engines working (step.path_eq.symm.trans here)
  | @reported index report before after _ _ working step engines _ _ emitted =>
      have counted := accounted.counted
      refine of_stale accounted drives (by omega) ?_
      intro engine atWork here
      obtain rfl := engines atWork
      rw [step.size_eq]
      obtain ⟨entry, queued, size⟩ := owned.engines working (step.path_eq.symm.trans here)
      obtain ⟨made, same⟩ := step.report_made
      -- An engine that goes on has not confirmed all of the file.
      have below := (accounted.engines working).ordered.report_below made (same ▸ atWork.going)
      obtain ⟨after, still, kept⟩ := drives.still_queued accounted.tidy queued <| by
        intro heard brought _
        obtain rfl := Executor.Move.report?_report brought
        omega
      exact ⟨after, still, kept.trans size⟩
  | @delivered report _ engines _ undelivered emitted =>
      have counted := accounted.counted
      rw [undelivered, List.length_cons] at counted
      refine of_stale accounted drives (by omega) ?_
      intro engine atWork here
      have working := engines atWork
      obtain ⟨entry, queued, size⟩ := owned.engines working here
      obtain ⟨after, still, kept⟩ := drives.still_queued accounted.tidy queued <| by
        rintro _ ⟨⟩ about
        have first : report ∈ scheduler.executor.undelivered := by
          rw [undelivered]
          exact List.mem_cons_self
        have below := (accounted.engines working).partly first (about.trans here.symm)
        omega
      exact ⟨after, still, kept.trans size⟩

end Work

theorem step
    {move : Move}
    (owned : Owned path scheduler)
    (accounted : Accounted scheduler)
    (step : Step scheduler move next)
    (spared : move ≠ .discard path) :
    Owned path next := by
  have tidy := accounted.tidy
  have taken := step
  cases step with
  | add | stop | discard | restore =>
      exact owned.requeue fun queued => taken.still_queued tidy queued rfl spared
  | tick => exact owned.tick tidy
  | post found => exact owned.drives accounted (drives_post found)
  | work own step => exact owned.drives accounted (drives_work own step)

end Owned

/-- While a path is not discarded, an engine that works on it works for its entry. -/
theorem owned_of_trace
    {limit : Nat}
    {hosting : Hosting}
    {tuning : Tuning}
    {moves : List Move}
    {final : Scheduler}
    (run :
      Trace Step { limit := limit, executor := { hosting := hosting, tuning := tuning } }
        moves final)
    (spared : Move.discard path ∉ moves) :
    Owned path final := by
  induction run with
  | refl => exact .start limit hosting tuning path
  | @snoc labels middle final label past last owned =>
      rw [List.mem_append, List.mem_singleton, not_or] at spared
      have earlier := owned spared.1
      exact earlier.step (accounted_of_trace past) last (Ne.symm spared.2)

end Scheduler

end ResumableUpload
