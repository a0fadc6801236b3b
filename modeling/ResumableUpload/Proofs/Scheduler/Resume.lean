import ResumableUpload.Proofs.Scheduler.Ownership

/-!
# Resuming a path

Once a file was added to a path, its entry stays runnable until it is removed as complete, as long
as nobody stops or discards the path and no upload of it fails or is preempted.  This holds if the
path is `Settled` when the file is added, that is if nothing of an earlier pause is under way: no
engine that was told to stop, no report of one, and no snapshot in which the path is paused or not
listed that could still reach an engine of the path.

Otherwise the pause overtakes the resumption: the last report of an engine that drains pauses the
entry, although the file was added after the engine was told to stop (`drained_resume_is_lost`).
-/

namespace ResumableUpload

/-- A path that a snapshot wants is preempted by another entry that comes first. -/
def Snapshot.preempts (snapshot : Snapshot) (path : String) : Bool :=
  snapshot.wants path && !Executor.keeps snapshot path

theorem Queue.wants_snapshot
    {queue : Queue}
    {path : String}
    {entry : Entry}
    (queued : queue.find? path = some entry)
    (runnable : entry.runnable = true) :
    queue.snapshot.wants path = true := by
  apply List.any_eq_true.mpr
  exact ⟨entry, mem_of_find? queued, by simp [path_of_find? queued, runnable]⟩

/-- The executor starts an engine of a path from such a snapshot, if the slot is free. -/
def Executor.Starts (executor : Executor) (path : String) (snapshot : Snapshot) : Prop :=
  executor.emitted ≤ snapshot.reportsSeen ∧
    ∃ entry file, snapshot.next? = some (entry, file) ∧ entry.path = path

/-- An engine of a path is at work, and not all of the file is sent. -/
structure Executor.Sending (executor : Executor) (path : String) (engine : Engine) : Prop where
  working : executor.AtWork engine
  here : engine.path = path
  below : engine.offset < engine.size

/--
In a move of an executor no upload of a path fails or is preempted by another entry, and the
executor does not close.
-/
structure Executor.Fair (path : String) (executor : Executor) (move : Move) : Prop where
  unfailed :
    ∀ {engine : Engine}, executor.Sending path engine → ∀ error : UploadError,
      engine.phase ≠ .concluding (.failed error)
  unpreempted :
    ∀ {snapshot : Snapshot} {engine : Engine},
      executor.Handles move snapshot → executor.Sending path engine →
        snapshot.preempts path = false
  running : move ≠ .close

namespace Scheduler

variable {scheduler next : Scheduler} {path : String} {size : Nat}

/-! ## Undisturbed steps -/

/-- A step in which the executor is fair to a path. -/
structure Fair (path : String) (scheduler : Scheduler) (move : Move) (next : Scheduler) : Prop where
  step : Step scheduler move next
  fair :
    ∀ {work : Executor.Move}, scheduler.work? move = some work → scheduler.executor.Fair path work

/-- A fair step in which the caller neither stops nor discards the path. -/
structure Undisturbed (path : String) (scheduler : Scheduler) (move : Move) (next : Scheduler) :
    Prop extends Fair path scheduler move next where
  unpaused : move ≠ .stop path
  spared : move ≠ .discard path

/-- Whatever the caller does in such a step leaves a runnable entry runnable. -/
theorem Undisturbed.still_runnable
    {move : Move}
    {entry : Entry}
    (undisturbed : Undisturbed path scheduler move next)
    (tidy : scheduler.queue.Tidy)
    (queued : scheduler.queue.find? path = some entry)
    (runnable : entry.runnable = true)
    (idle : scheduler.work? move = none) :
    ∃ after,
      next.queue.find? path = some after ∧ after.runnable = true ∧ after.size = entry.size := by
  obtain ⟨still, found, size⟩ :=
    undisturbed.step.still_queued tidy queued idle undisturbed.spared
  refine ⟨still, found, ?_, size⟩
  cases undisturbed.step with
  | @add file other queue added =>
      by_cases here : other = path
      · subst here
        obtain ⟨after, last, _, _, ready⟩ := Queue.find?_add added
        cases last.symm.trans found
        exact ready
      · rw [Queue.find?_add_of_ne added (Ne.symm here), queued] at found
        cases found
        exact runnable
  | @stop other queue stopped =>
      have elsewhere : path ≠ other := by
        rintro rfl
        exact undisturbed.unpaused rfl
      rw [Queue.find?_stop stopped, if_neg elsewhere, queued] at found
      cases found
      exact runnable
  | @discard other queue deleted =>
      have elsewhere : path ≠ other := by
        rintro rfl
        exact undisturbed.spared rfl
      rw [tidy.find?_delete deleted, if_neg elsewhere, queued] at found
      cases found
      exact runnable
  | restore infos =>
      rw [Queue.find?_restore_of_some queued] at found
      cases found
      exact runnable
  | tick =>
      cases queued.symm.trans found
      exact runnable
  | post posted =>
      rw [work?, posted] at idle
      cases idle
  | work => cases idle

/-- In a step the entry of a path is removed, since a report confirms all of it. -/
def Completes
    (path : String)
    (size : Nat)
    (scheduler : Scheduler)
    (move : Move)
    (next : Scheduler) : Prop :=
  ∃ work report,
    move = .work work ∧ work.report? scheduler.executor.hosting = some report ∧
      report.path = path ∧ size ≤ report.uploaded ∧ next.queue.find? path = none

/-! ## Nothing of a pause is under way -/

/--
Nothing that is under way pauses an entry of the path.  A snapshot in which the path is paused does so as
much as one in which it is not listed: it does not want the path, so that an engine of the path is told
to stop.
-/
structure Settled (path : String) (size : Nat) (scheduler : Scheduler) : Prop where
  unstopped :
    ∀ {engine : Engine}, scheduler.executor.Sending path engine → engine.stopRequested = false
  lasting :
    ∀ {report : Report},
      report ∈ scheduler.executor.undelivered → report.path = path →
        report.runnable = true ∨ size ≤ report.uploaded
  /-- In every snapshot on its way to the executor the path is listed and not paused. -/
  taken : ∀ {snapshot : Snapshot}, snapshot ∈ scheduler.taken → snapshot.wants path = true
  /-- Whatever waits behind a snapshot that starts an engine of the path wants the path. -/
  ordered :
    scheduler.executor.requests.Pairwise fun earlier later =>
      scheduler.executor.Starts path earlier → later.wants path = true
  /-- While an engine of the path is sending, every waiting snapshot wants the path. -/
  wanted :
    ∀ {snapshot : Snapshot} {engine : Engine},
      scheduler.executor.hosting = .background → snapshot ∈ scheduler.executor.requests →
        scheduler.executor.Sending path engine → snapshot.wants path = true

theorem Settled.requeue
    (settled : Settled path size scheduler)
    (queue : Queue) :
    Settled path size { scheduler with queue := queue } where
  unstopped := settled.unstopped
  lasting := settled.lasting
  taken := settled.taken
  ordered := settled.ordered
  wanted := settled.wanted

theorem sending_of_step
    {before after engine : Engine}
    {act : Engine.Act}
    (accounted : Accounted scheduler)
    (working : scheduler.executor.AtWork before)
    (step : Engine.Step before act after)
    (engines : ∀ {engine : Engine}, next.executor.AtWork engine → engine = after)
    (sending : next.executor.Sending path engine) :
    scheduler.executor.Sending path before := by
  obtain rfl := engines sending.working
  have below := (accounted.engines working).ordered.offset_below step sending.below
  exact ⟨working, step.path_eq.symm.trans sending.here, below⟩

/-- As long as no snapshot takes the slot from an engine of a path, none of these is told to stop. -/
theorem unstopped_of_drives
    {move : Executor.Move}
    {engine : Engine}
    (accounted : Accounted scheduler)
    (drives : Drives scheduler move next)
    (fair : scheduler.executor.Fair path move)
    (unstopped :
      ∀ {engine : Engine}, scheduler.executor.Sending path engine → engine.stopRequested = false)
    (kept :
      ∀ {snapshot : Snapshot} {engine : Engine},
        scheduler.executor.Handles move snapshot → scheduler.executor.Sending path engine →
          Executor.keeps snapshot path = true)
    (sending : next.executor.Sending path engine) :
    engine.stopRequested = false := by
  cases drives.step.effect accounted.one with
  | calm engines => exact unstopped ⟨engines sending.working, sending.here, sending.below⟩
  | received engines => exact unstopped ⟨engines sending.working, sending.here, sending.below⟩
  | delivered engines => exact unstopped ⟨engines sending.working, sending.here, sending.below⟩
  | stopped handles engines =>
      obtain ⟨before, earlier, rfl, unwanted⟩ := engines sending.working
      have here : before.path = path := sending.here
      rw [here] at unwanted
      cases unwanted.symm.trans (kept handles ⟨earlier, here, sending.below⟩)
  | started _ _ _ _ engines =>
      obtain rfl := engines sending.working
      rfl
  | acted _ working step _ engines =>
      obtain rfl := engines sending.working
      rw [step.stopRequested_eq]
      exact unstopped (sending_of_step accounted working step engines sending)
  | reported _ working step engines =>
      obtain rfl := engines sending.working
      rw [step.stopRequested_eq]
      exact unstopped (sending_of_step accounted working step engines sending)
  | closed => exact absurd rfl fair.running

/-- A report that leaves an entry of this size runnable, or that completes it. -/
def Lasting (size : Nat) (report : Report) : Prop :=
  report.runnable = true ∧ report.uploaded < size ∨
    report.runnable = false ∧ size ≤ report.uploaded

/-- What an engine reports that was not told to stop and does not fail lasts. -/
theorem lasting_of_made
    {move : Executor.Move}
    {engine after : Engine}
    {report : Report}
    (accounted : Accounted scheduler)
    (owned : Owned path scheduler)
    (unstopped :
      ∀ {engine : Engine}, scheduler.executor.Sending path engine → engine.stopRequested = false)
    (fair : scheduler.executor.Fair path move)
    (working : scheduler.executor.AtWork engine)
    (step : Engine.Step engine (.report report) after)
    (about : report.path = path) :
    ∃ entry, scheduler.queue.find? path = some entry ∧ Lasting entry.size report := by
  have ordered := (accounted.engines working).ordered
  obtain ⟨reported, same⟩ := step.report_made
  have here : engine.path = path := (Engine.report?_eq_some reported).1.symm.trans about
  obtain ⟨entry, queued, fits⟩ := owned.engines working here
  refine ⟨entry, queued, ?_⟩
  rw [Lasting, fits]
  cases runnable : report.runnable with
  | true =>
      have going : engine.afterReport.hasEnded = false := by
        rw [Bool.eq_false_iff, ← same]
        intro ended
        obtain ⟨_, ⟨⟩, _, last⟩ := step.ends ended
        cases runnable.symm.trans last
      exact .inl ⟨rfl, ordered.report_below reported going⟩
  | false =>
      have lasts :=
        ordered.report_lasting reported (fun below => unstopped ⟨working, here, below⟩)
          fun below => fair.unfailed ⟨working, here, below⟩
      rw [runnable] at lasts
      exact .inr ⟨rfl, lasts.resolve_left Bool.false_ne_true⟩

/-- If what is heard lasts, a runnable entry stays so until a report confirms all of it. -/
theorem queued_of_lasting
    {move : Executor.Move}
    {entry : Entry}
    (accounted : Accounted scheduler)
    (drives : Drives scheduler move next)
    (queued : scheduler.queue.find? path = some entry)
    (runnable : entry.runnable = true)
    (lasting :
      ∀ report, move.report? scheduler.executor.hosting = some report → report.path = path →
        report.runnable = true ∨ entry.size ≤ report.uploaded) :
    (∃ after,
        next.queue.find? path = some after ∧ after.runnable = true ∧ after.size = entry.size) ∨
      ∃ report,
        move.report? scheduler.executor.hosting = some report ∧ report.path = path ∧
          entry.size ≤ report.uploaded ∧ next.queue.find? path = none := by
  rcases drives.queued_cases accounted.tidy queued with kept | ⟨report, brought, about, ended⟩
  · exact .inl ⟨entry, kept, runnable, rfl⟩
  · rcases ended with ⟨whole, removed⟩ | ⟨below, applied⟩
    · exact .inr ⟨report, brought, about, whole, removed⟩
    · rcases lasting report brought about with lasts | whole
      · have still : (entry.apply report).runnable = true := by
          simp only [Entry.apply, runnable, lasts, Bool.and_self]
        exact .inl ⟨entry.apply report, applied, still, rfl⟩
      · exact absurd whole (Nat.not_le_of_lt below)

/-- The entry of the path is runnable, and nothing that is under way pauses it. -/
structure Resumed (path : String) (size : Nat) (scheduler : Scheduler) : Prop where
  owned : Owned path scheduler
  settled : Settled path size scheduler
  queued :
    ∃ entry,
      scheduler.queue.find? path = some entry ∧ entry.runnable = true ∧ entry.size = size

namespace Resumed

section Work

variable {move : Executor.Move}

/-- What an engine of the path reports leaves the entry runnable or completes it. -/
theorem made
    {engine after : Engine}
    {report : Report}
    (resumed : Resumed path size scheduler)
    (accounted : Accounted scheduler)
    (fair : scheduler.executor.Fair path move)
    (working : scheduler.executor.AtWork engine)
    (step : Engine.Step engine (.report report) after)
    (about : report.path = path) :
    report.runnable = true ∨ size ≤ report.uploaded := by
  obtain ⟨entry, queued, _, rfl⟩ := resumed.queued
  obtain ⟨owner, found, lasting⟩ :=
    lasting_of_made accounted resumed.owned resumed.settled.unstopped fair working step about
  cases queued.symm.trans found
  exact lasting.imp And.left And.right

/-- The entry stays runnable unless a report confirms all of it, which removes it. -/
theorem queued_of_drives
    (resumed : Resumed path size scheduler)
    (accounted : Accounted scheduler)
    (drives : Drives scheduler move next)
    (fair : scheduler.executor.Fair path move) :
    (∃ entry,
        next.queue.find? path = some entry ∧ entry.runnable = true ∧ entry.size = size) ∨
      ∃ report,
        move.report? scheduler.executor.hosting = some report ∧ report.path = path ∧
          size ≤ report.uploaded ∧ next.queue.find? path = none := by
  obtain ⟨entry, queued, runnable, rfl⟩ := resumed.queued
  refine queued_of_lasting accounted drives queued runnable ?_
  intro report brought about
  rcases (drives.step.effect accounted.one).brought brought with ⟨_, _, working, step⟩ | under
  · exact resumed.made accounted fair working step about
  · exact resumed.settled.lasting under about

/-- No snapshot tells an engine of the path to stop while it is sending. -/
theorem not_stopped
    {snapshot : Snapshot}
    {engine : Engine}
    (resumed : Resumed path size scheduler)
    (drives : Drives scheduler move next)
    (fair : scheduler.executor.Fair path move)
    (handles : scheduler.executor.Handles move snapshot)
    (sending : scheduler.executor.Sending path engine) :
    Executor.keeps snapshot path = true := by
  have wants : snapshot.wants path = true := by
    cases handles with
    | inlined => exact resumed.settled.taken (drives.sent rfl)
    | queued hosted requests =>
        refine resumed.settled.wanted hosted ?_ sending
        rw [requests]
        exact List.mem_cons_self
  have first := fair.unpreempted handles sending
  simpa [Snapshot.preempts, wants] using first

/-- What is left to show of a move that leaves no more snapshots waiting. -/
theorem settled_of_left
    (resumed : Resumed path size scheduler)
    (drives : Drives scheduler move next)
    (left : next.executor.requests <:+ scheduler.executor.requests)
    (counted : scheduler.executor.emitted ≤ next.executor.emitted)
    (unstopped :
      ∀ {engine : Engine}, next.executor.Sending path engine → engine.stopRequested = false)
    (lasting :
      ∀ {report : Report},
        report ∈ next.executor.undelivered → report.path = path →
          report.runnable = true ∨ size ≤ report.uploaded)
    (wanted :
      ∀ {snapshot : Snapshot} {engine : Engine},
        scheduler.executor.hosting = .background → snapshot ∈ scheduler.executor.requests →
          next.executor.Sending path engine → snapshot.wants path = true) :
    Settled path size next where
  unstopped := unstopped
  lasting := lasting
  taken member := resumed.settled.taken (drives.taken _ member)
  ordered := by
    apply (resumed.settled.ordered.sublist left.sublist).imp
    rintro earlier later wants ⟨current, first⟩
    exact wants ⟨Nat.le_trans counted current, first⟩
  wanted hosted member := wanted (drives.step.hosting_eq.symm.trans hosted) (left.mem member)

theorem settled_of_drives
    (resumed : Resumed path size scheduler)
    (accounted : Accounted scheduler)
    (drives : Drives scheduler move next)
    (fair : scheduler.executor.Fair path move) :
    Settled path size next := by
  have settled := resumed.settled
  have unstopped :
      ∀ {engine : Engine}, next.executor.Sending path engine → engine.stopRequested = false :=
    unstopped_of_drives accounted drives fair settled.unstopped
      fun handles sending => resumed.not_stopped drives fair handles sending
  cases drives.step.effect accounted.one with
  | calm engines requests undelivered emitted =>
      apply resumed.settled_of_left drives requests (Nat.le_of_eq emitted.symm) unstopped
      · rw [undelivered]
        exact settled.lasting
      · intro snapshot engine hosted member sending
        exact settled.wanted hosted member ⟨engines sending.working, sending.here, sending.below⟩
  | @received snapshot _ engines requests undelivered emitted =>
      have wants : snapshot.wants path = true := settled.taken (drives.sent rfl)
      refine ⟨unstopped, ?_, fun member => settled.taken (drives.taken _ member), ?_, ?_⟩
      · rw [undelivered]
        exact settled.lasting
      · rw [requests, List.pairwise_append]
        refine ⟨settled.ordered.imp ?_, List.pairwise_singleton _ _, ?_⟩
        · rintro earlier later wanted ⟨current, first⟩
          exact wanted ⟨Nat.le_trans (Nat.le_of_eq emitted.symm) current, first⟩
        · intro earlier _ later single _
          rw [List.mem_singleton.mp single]
          exact wants
      · intro other engine hosted member sending
        rw [requests, List.mem_append, List.mem_singleton] at member
        rcases member with earlier | rfl
        · have background := drives.step.hosting_eq.symm.trans hosted
          have before := engines sending.working
          exact settled.wanted background earlier ⟨before, sending.here, sending.below⟩
        · exact wants
  | stopped handles engines requests undelivered emitted =>
      have idle : ∀ {engine : Engine}, ¬ next.executor.Sending path engine := by
        intro engine sending
        obtain ⟨before, _, rfl, _⟩ := engines sending.working
        cases unstopped sending
      apply resumed.settled_of_left drives requests (Nat.le_of_eq emitted.symm) unstopped
      · rw [undelivered]
        exact settled.lasting
      · intro snapshot engine _ _ sending
        exact absurd sending idle
  | started handles _ first current engines requests undelivered emitted =>
      apply resumed.settled_of_left drives requests (Nat.le_of_eq emitted.symm) unstopped
      · rw [undelivered]
        exact settled.lasting
      · intro other engine hosted member sending
        obtain rfl := engines sending.working
        cases handles with
        | inlined inlined => cases inlined.symm.trans hosted
        | queued _ waiting =>
            have ordered := settled.ordered
            rw [waiting, List.pairwise_cons] at ordered
            rw [waiting, List.mem_cons] at member
            rcases member with rfl | later
            · exact Snapshot.wants_of_next? first sending.here
            · exact ordered.1 other later ⟨current, _, _, first, sending.here⟩
  | @acted _ _ acting _ _ _ working step _ engines requests undelivered emitted =>
      have before : ∀ {engine : Engine}, next.executor.Sending path engine →
          scheduler.executor.Sending path acting :=
        sending_of_step accounted working step engines
      apply resumed.settled_of_left drives (requests ▸ List.suffix_refl _)
        (Nat.le_of_eq emitted.symm) unstopped
      · rw [undelivered]
        exact settled.lasting
      · intro snapshot engine hosted member sending
        exact settled.wanted hosted member (before sending)
  | @reported _ report acting _ _ _ working step engines requests undelivered emitted =>
      have before : ∀ {engine : Engine}, next.executor.Sending path engine →
          scheduler.executor.Sending path acting :=
        sending_of_step accounted working step engines
      apply resumed.settled_of_left drives (requests ▸ List.suffix_refl _)
        (Nat.le_trans (Nat.le_succ _) (Nat.le_of_eq emitted.symm)) unstopped
      · intro other member about
        rcases Executor.mem_of_reported undelivered member with earlier | rfl
        · exact settled.lasting earlier about
        · exact resumed.made accounted fair working step about
      · intro snapshot engine hosted member sending
        exact settled.wanted hosted member (before sending)
  | delivered engines requests undelivered emitted =>
      apply resumed.settled_of_left drives (requests ▸ List.suffix_refl _)
        (Nat.le_of_eq emitted.symm) unstopped
      · intro report member
        apply settled.lasting
        rw [undelivered]
        exact List.mem_cons_of_mem _ member
      · intro snapshot engine hosted member sending
        exact settled.wanted hosted member ⟨engines sending.working, sending.here, sending.below⟩
  | closed => exact absurd rfl fair.running

end Work

/-- A path stays resumed until the report that completes it is heard. -/
theorem step
    {move : Move}
    (resumed : Resumed path size scheduler)
    (accounted : Accounted scheduler)
    (undisturbed : Undisturbed path scheduler move next) :
    Resumed path size next ∨ Completes path size scheduler move next := by
  have taken := undisturbed.step
  have owned := resumed.owned.step accounted taken undisturbed.spared
  have settled := resumed.settled
  have called (idle : scheduler.work? move = none) :
      ∃ entry,
        next.queue.find? path = some entry ∧ entry.runnable = true ∧ entry.size = size := by
    obtain ⟨entry, queued, runnable, rfl⟩ := resumed.queued
    exact undisturbed.still_runnable accounted.tidy queued runnable idle
  cases undisturbed.step with
  | add | stop | discard | restore => exact .inl ⟨owned, settled.requeue _, called rfl⟩
  | tick =>
      refine .inl ⟨owned, ⟨settled.1, settled.2, ?_, settled.4, settled.5⟩, called rfl⟩
      intro snapshot member
      rcases List.mem_append.mp member with earlier | last
      · exact settled.taken earlier
      · obtain ⟨entry, queued, runnable, _⟩ := resumed.queued
        rw [List.mem_singleton.mp last]
        exact Queue.wants_snapshot queued runnable
  | @post position snapshot found =>
      have drives := drives_post found
      have fair := undisturbed.fair (congrArg (Option.map _) found)
      rcases resumed.queued_of_drives accounted drives fair with still | ⟨_, ⟨⟩, _⟩
      exact .inl ⟨owned, resumed.settled_of_drives accounted drives fair, still⟩
  | @work work _ own acting =>
      have drives := drives_work own acting
      have fair := undisturbed.fair rfl
      rcases resumed.queued_of_drives accounted drives fair with still | ⟨report, brought, whole⟩
      · exact .inl ⟨owned, resumed.settled_of_drives accounted drives fair, still⟩
      · exact .inr ⟨work, report, rfl, brought, whole⟩

end Resumed

/-- On a run the entry of a path is removed as complete, and until then nothing disturbs it. -/
def Completed (path : String) (size : Nat) (start : Scheduler) (moves : List Move) : Prop :=
  ∃ past move middle next,
    past ++ [move] <+: moves ∧ Trace (Undisturbed path) start past middle ∧
      Undisturbed path middle move next ∧ Completes path size middle move next

/-- What undisturbed steps keep until the path is completed holds unless it was. -/
theorem holds_until_completed
    {undisturbed : Scheduler → Move → Scheduler → Prop}
    {property : Scheduler → Prop}
    {moves : List Move}
    {start final : Scheduler}
    (within :
      ∀ {state move next}, undisturbed state move next → Undisturbed path state move next)
    (kept :
      ∀ {state move next},
        property state → undisturbed state move next →
          property next ∨ Completes path size state move next)
    (initially : property start)
    (run : Trace undisturbed start moves final) :
    property final ∨ Completed path size start moves := by
  induction run with
  | refl => exact .inl initially
  | @snoc labels middle final label past last earlier =>
      rcases earlier with holds | ⟨before, move, reached, next, already, completed⟩
      · rcases kept holds last with still | completes
        · exact .inl still
        · exact .inr
            ⟨labels, label, middle, final, List.prefix_rfl, past.imp within, within last, completes⟩
      · have longer := already.trans (List.prefix_append labels [label])
        exact .inr ⟨before, move, reached, next, longer, completed⟩

theorem resumed_of_trace
    {moves : List Move}
    {start final : Scheduler}
    (resumed : Resumed path size start)
    (accounted : Accounted start)
    (run : Trace (Undisturbed path) start moves final) :
    Resumed path size final ∧ Accounted final ∨ Completed path size start moves := by
  apply holds_until_completed id _ ⟨resumed, accounted⟩ run
  rintro state move next ⟨resumed, accounted⟩ last
  rcases resumed.step accounted last with still | completes
  · exact .inl ⟨still, accounted.step last.step⟩
  · exact .inr completes

/--
Once a file was added to a path that is settled, its entry stays runnable until it is removed as
complete: whatever happened before, and whatever order ticks, snapshots, engines and reports take,
if the path is neither stopped nor discarded again and none of its uploads fails or is preempted.
-/
theorem resume_is_kept
    {limit : Nat}
    {hosting : Hosting}
    {tuning : Tuning}
    {earlier later : List Move}
    {file : FileHandle}
    {before added final : Scheduler}
    (past :
      Trace Step { limit := limit, executor := { hosting := hosting, tuning := tuning } }
        earlier before)
    (addition : Step before (.add file path) added)
    (owned : Owned path added)
    (settled : Settled path file.size added)
    (future : Trace (Undisturbed path) added later final) :
    (∃ entry, final.queue.find? path = some entry ∧ entry.runnable = true) ∨
      Completed path file.size added later := by
  have accounted := (accounted_of_trace past).step addition
  have queued :
      ∃ entry,
        added.queue.find? path = some entry ∧ entry.runnable = true ∧ entry.size = file.size := by
    cases addition with
    | add succeeded =>
        obtain ⟨entry, found, _, size, runnable⟩ := Queue.find?_add succeeded
        exact ⟨entry, found, runnable, size⟩
  rcases resumed_of_trace ⟨owned, settled, queued⟩ accounted future with ⟨still, _⟩ | completed
  · obtain ⟨entry, found, runnable, _⟩ := still.queued
    exact .inl ⟨entry, found, runnable⟩
  · exact .inr completed

/-! ## A pause that has drained, and one that has not -/

/-- Nothing pauses a path if no engine is at work and nothing is under way. -/
def isQuiet (scheduler : Scheduler) : Bool :=
  scheduler.executor.runs.all (·.engine.hasEnded) && scheduler.executor.undelivered.isEmpty &&
    scheduler.waiting.isEmpty

theorem settled_of_isQuiet (quiet : scheduler.isQuiet = true) : Settled path size scheduler := by
  simp only [isQuiet, Bool.and_eq_true, List.all_eq_true, List.isEmpty_iff, waiting,
    List.append_eq_nil_iff] at quiet
  obtain ⟨⟨ended, undelivered⟩, taken, requests⟩ := quiet
  have idle : ∀ {engine : Engine}, ¬ scheduler.executor.Sending path engine := by
    rintro _ ⟨⟨_, run, found, _, rfl, going⟩, _, _⟩
    cases going.symm.trans (ended run (List.mem_of_getElem? found))
  constructor
  · intro engine sending
    exact absurd sending idle
  · rw [undelivered]
    rintro _ ⟨⟩
  · rw [taken]
    rintro _ ⟨⟩
  · rw [requests]
    exact .nil
  · intro snapshot engine _ _ sending
    exact absurd sending idle

/-- No engine fails and no snapshot puts another entry before the path. -/
def isFair (path : String) (scheduler : Scheduler) : Bool :=
  (scheduler.executor.runs.all fun run =>
      match run.engine.phase with
      | .concluding (.failed _) => false
      | _ => true) &&
    scheduler.waiting.all fun snapshot => !snapshot.preempts path

/-- The scheduler after a move, if it is seen to be fair to a path. -/
def proceed? (path : String) (scheduler : Scheduler) : Move → Option Scheduler
  | .work .close => none
  | move => if scheduler.isFair path then scheduler.move? move else none

theorem fair_of_proceed?
    {move : Move}
    (proceeded : proceed? path scheduler move = some next) :
    Fair path scheduler move next := by
  unfold proceed? at proceeded
  split at proceeded
  case h_1 => cases proceeded
  case h_2 running =>
      split at proceeded
      case isTrue fair =>
          have step := step_of_move? proceeded
          simp only [isFair, Bool.and_eq_true, List.all_eq_true, Bool.not_eq_true'] at fair
          refine ⟨step, ?_⟩
          intro work works
          constructor
          · rintro engine ⟨⟨_, run, found, _, rfl, _⟩, _, _⟩ error failing
            have going := fair.1 run (List.mem_of_getElem? found)
            rw [failing] at going
            cases going
          · intro snapshot engine handles _
            exact fair.2 snapshot ((step.drives works).handled handles)
          · rintro rfl
            cases step with
            | work =>
                cases works
                exact running rfl
            | post found =>
                rw [work?, found] at works
                cases works
            | add | stop | discard | restore | tick => cases works
      case isFalse => cases proceeded

/-- The scheduler after a fair move that stops or discards no path. -/
def carryOn? (path : String) (scheduler : Scheduler) : Move → Option Scheduler
  | .stop _ => none
  | .discard _ => none
  | move => proceed? path scheduler move

theorem undisturbed_of_carryOn?
    {move : Move}
    (carried : carryOn? path scheduler move = some next) :
    Undisturbed path scheduler move next := by
  unfold carryOn? at carried
  split at carried
  case h_1 => cases carried
  case h_2 => cases carried
  case h_3 unpaused spared =>
      exact ⟨fair_of_proceed? carried, unpaused path, spared path⟩

/-- A file is added and stopped again, and its engine is told so before it has sent anything. -/
def pausing : List Move :=
  [ .add ⟨0, .ofBytes [1]⟩ "a", .tick, .post 0, .work .handle,
    .work (.act 0 (.create (.ok (Response.success ⟨"a", 1⟩)))), .stop "a", .tick, .post 0,
    .work .handle ]

/-- The engine stops, which the queue hears of. -/
def draining : List Move :=
  [ .work (.act 0 .check), .work (.act 0 (.report ⟨"a", 0, false, Outcome.stopped.message⟩)),
    .work (.deliver (.progress ⟨"a", 0, false, Outcome.stopped.message⟩)) ]

/-- The slot is free again, and a snapshot of the queue reaches the executor. -/
def restarting : List Move :=
  [ .work (.finish 0), .work (.notice 0), .tick, .post 0, .work .handle ]

/-- A file that is added again after its engine has drained stays runnable. -/
theorem resume_after_drain_is_kept :
    ∃ before added final entry,
      Trace Step { limit := 10, executor := { hosting := .background, tuning := Config.tuning {} } }
          (pausing ++ draining) before ∧
        Step before (.add ⟨0, .ofBytes [1]⟩ "a") added ∧
        Trace (Undisturbed "a") added restarting final ∧
        final.queue.find? "a" = some entry ∧ entry.runnable = true := by
  have quiet :
      (((pausing ++ draining).foldlM move?
          { limit := 10, executor := { hosting := .background, tuning := Config.tuning {} } }).bind
        fun before =>
          (before.move? (.add ⟨0, .ofBytes [1]⟩ "a")).bind fun added =>
            (restarting.foldlM (carryOn? "a") added).map fun _ => added.isQuiet) =
          some true := by
    decide
  obtain ⟨before, paused, readded⟩ := Option.bind_eq_some_iff.mp quiet
  obtain ⟨added, addition, restarted⟩ := Option.bind_eq_some_iff.mp readded
  obtain ⟨final, carried, settled⟩ := Option.map_eq_some_iff.mp restarted
  have past := Trace.of_foldlM Step step_of_move? paused
  have step := step_of_move? addition
  have future := Trace.of_foldlM (Undisturbed "a") undisturbed_of_carryOn? carried
  have owned : Owned "a" added := owned_of_trace (past.snoc step) (by simp [pausing, draining])
  rcases resume_is_kept past step owned (settled_of_isQuiet settled) future with kept | completed
  · obtain ⟨entry, queued, runnable⟩ := kept
    exact ⟨before, added, final, entry, past, step, future, queued, runnable⟩
  · -- None of the moves brings a report.
    obtain ⟨_, move, _, _, within, _, _, work, report, rfl, brought, _⟩ := completed
    have member := within.subset (List.mem_append_right _ (List.mem_singleton_self _))
    simp only [restarting, List.mem_cons, List.not_mem_nil, Move.work.injEq, or_false,
      reduceCtorEq, false_or] at member
    rcases member with rfl | rfl | rfl <;> cases brought

/-- A file that is added again before its engine has drained does not. -/
theorem drained_resume_is_lost :
    ∃ before added final entry,
      Trace (Fair "a")
          { limit := 10, executor := { hosting := .background, tuning := Config.tuning {} } }
          pausing before ∧
        Step before (.add ⟨0, .ofBytes [1]⟩ "a") added ∧
        Trace (Undisturbed "a") added draining final ∧
        final.queue.find? "a" = some entry ∧ entry.runnable = false ∧
        final.executor.shutDown = false := by
  have lost :
      ((pausing.foldlM (proceed? "a")
          { limit := 10, executor := { hosting := .background, tuning := Config.tuning {} } }).bind
        fun before =>
          (before.move? (.add ⟨0, .ofBytes [1]⟩ "a")).bind fun added =>
            (draining.foldlM (carryOn? "a") added)).map
        (fun final => ((final.queue.find? "a").map (·.runnable), final.executor.shutDown)) =
          some (some false, false) := by
    decide
  obtain ⟨final, made, ends⟩ := Option.map_eq_some_iff.mp lost
  obtain ⟨before, paused, readded⟩ := Option.bind_eq_some_iff.mp made
  obtain ⟨added, addition, drained⟩ := Option.bind_eq_some_iff.mp readded
  rw [Prod.mk.injEq, Option.map_eq_some_iff] at ends
  obtain ⟨⟨entry, queued, stopped⟩, working⟩ := ends
  exact ⟨before, added, final, entry, Trace.of_foldlM (Fair "a") fair_of_proceed? paused,
    step_of_move? addition, Trace.of_foldlM (Undisturbed "a") undisturbed_of_carryOn? drained,
    queued, stopped, working⟩

end Scheduler

end ResumableUpload
