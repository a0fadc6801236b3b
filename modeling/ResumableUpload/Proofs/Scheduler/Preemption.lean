import ResumableUpload.Proofs.Scheduler.Resume

/-!
# Preemption

An entry that was made runnable stays so until it is removed as complete, if nobody stops or discards
its path, no upload of it fails, and no snapshot takes the transfer slot from an engine of the path
before all of the file is sent.

That last condition is needed.  An engine that loses the slot to an earlier entry ends with the same
report as one whose entry was paused, and that report pauses the entry (`preempted_file_is_paused`).
-/

namespace ResumableUpload

namespace Scheduler

variable {scheduler next : Scheduler} {path : String}

/-! ## Final reports -/

/--
The report with which an engine ends is the last one that waits for delivery, and while it does no
engine is at work.
-/
structure Trailing (executor : Executor) : Prop where
  direct : executor.Direct
  going : ∀ report ∈ executor.undelivered.dropLast, report.runnable = true
  idle :
    ∀ {report : Report} {engine : Engine},
      report ∈ executor.undelivered → report.runnable = false → ¬ executor.AtWork engine

namespace Trailing

theorem start
    (hosting : Hosting)
    (tuning : Tuning) :
    Trailing { hosting := hosting, tuning := tuning } where
  direct _ := rfl
  going := by rintro _ ⟨⟩
  idle := by rintro _ _ ⟨⟩

/-- While an engine is at work every report that waits is from an engine that goes on. -/
theorem runnable_of_atWork
    {executor : Executor}
    {report : Report}
    {engine : Engine}
    (trailing : Trailing executor)
    (working : executor.AtWork engine)
    (under : report ∈ executor.undelivered) :
    report.runnable = true := by
  rw [← Bool.not_eq_false]
  intro last
  exact trailing.idle under last working

theorem drives
    {move : Executor.Move}
    (trailing : Trailing scheduler.executor)
    (accounted : Accounted scheduler)
    (drives : Drives scheduler move next) :
    Trailing next.executor := by
  have effect := drives.step.effect accounted.one
  have direct := effect.direct drives.step.hosting_eq trailing.direct
  -- No report is made, and whoever is at work comes from an engine at work.
  have quiet (undelivered : next.executor.undelivered = scheduler.executor.undelivered)
      (engines : ∀ {engine : Engine}, next.executor.AtWork engine →
        ∃ before, scheduler.executor.AtWork before) :
      Trailing next.executor := by
    refine ⟨direct, undelivered ▸ trailing.going, ?_⟩
    intro report engine under last working
    obtain ⟨before, earlier⟩ := engines working
    exact trailing.idle (undelivered ▸ under) last earlier
  cases effect with
  | calm engines _ undelivered => exact quiet undelivered fun working => ⟨_, engines working⟩
  | received engines _ undelivered => exact quiet undelivered fun working => ⟨_, engines working⟩
  | stopped _ engines _ undelivered =>
      refine quiet undelivered ?_
      intro engine working
      obtain ⟨before, earlier, _⟩ := engines working
      exact ⟨before, earlier⟩
  | closed engines _ undelivered =>
      refine quiet undelivered ?_
      intro engine working
      obtain ⟨before, earlier, _⟩ := engines working
      exact ⟨before, earlier⟩
  | acted _ working _ _ _ _ undelivered => exact quiet undelivered fun _ => ⟨_, working⟩
  | started handles _ _ current _ _ undelivered =>
      have none := accounted.undelivered_of_current (drives.handled handles) current
      rw [none] at undelivered
      refine ⟨direct, ?_, ?_⟩
      · rw [undelivered]
        rintro _ ⟨⟩
      · rw [undelivered]
        rintro _ _ ⟨⟩
  | @reported _ report _ after _ _ working step engines _ undelivered =>
      have before : ∀ other ∈ scheduler.executor.undelivered, other.runnable = true :=
        fun other under => trailing.runnable_of_atWork working under
      refine ⟨direct, ?_, ?_⟩
      · intro other member
        rw [undelivered] at member
        split at member
        · rw [List.dropLast_concat] at member
          exact before other member
        · exact before other ((List.dropLast_prefix _).subset member)
      · intro other engine member last atWork
        rcases Executor.mem_of_reported undelivered member with earlier | rfl
        · cases (before other earlier).symm.trans last
        · obtain rfl := engines atWork
          cases atWork.going.symm.trans (step.hasEnded_of_report last)
  | @delivered report _ engines _ undelivered =>
      refine ⟨direct, ?_, ?_⟩
      · intro other member
        apply trailing.going
        rw [undelivered]
        cases rest : next.executor.undelivered with
        | nil =>
            rw [rest] at member
            cases member
        | cons second further =>
            rw [rest] at member
            exact List.mem_cons_of_mem _ member
      · intro other engine member last working
        refine trailing.idle ?_ last (engines working)
        rw [undelivered]
        exact List.mem_cons_of_mem _ member

end Trailing

/-! ## The slot is kept -/

/-- An undisturbed step in which no snapshot takes the slot from an engine that is sending. -/
structure Unpreempted (path : String) (scheduler : Scheduler) (move : Move) (next : Scheduler) :
    Prop extends Undisturbed path scheduler move next where
  kept :
    ∀ {snapshot : Snapshot} {engine : Engine},
      scheduler.Handles move snapshot → scheduler.executor.Sending path engine →
        Executor.keeps snapshot path = true

/-- No engine of the path was told to stop, and whatever was reported about its entry lasts. -/
structure Held (path : String) (scheduler : Scheduler) : Prop where
  accounted : Accounted scheduler
  trailing : Trailing scheduler.executor
  owned : Owned path scheduler
  unstopped :
    ∀ {engine : Engine}, scheduler.executor.Sending path engine → engine.stopRequested = false
  lasting :
    ∀ {report : Report},
      report ∈ scheduler.executor.undelivered → report.path = path →
        ∃ entry, scheduler.queue.find? path = some entry ∧ Lasting entry.size report

namespace Held

theorem start
    (limit : Nat)
    (hosting : Hosting)
    (tuning : Tuning)
    (path : String) :
    Held path { limit := limit, executor := { hosting := hosting, tuning := tuning } } where
  accounted := .start limit hosting tuning
  trailing := .start hosting tuning
  owned := .start limit hosting tuning path
  unstopped := by rintro _ ⟨⟨_, _, ⟨⟩, _⟩, _, _⟩
  lasting := by rintro _ ⟨⟩

section Work

variable {move : Executor.Move}

theorem lasting_of_drives
    (held : Held path scheduler)
    (drives : Drives scheduler move next)
    (fair : scheduler.executor.Fair path move)
    {report : Report}
    (under : report ∈ next.executor.undelivered)
    (about : report.path = path) :
    ∃ entry, next.queue.find? path = some entry ∧ Lasting entry.size report := by
  have accounted := held.accounted
  have quiet (silent : move.report? scheduler.executor.hosting = none)
      (undelivered : next.executor.undelivered = scheduler.executor.undelivered) :
      ∃ entry, next.queue.find? path = some entry ∧ Lasting entry.size report := by
    rw [drives.queue_of_silent silent]
    exact held.lasting (undelivered ▸ under) about
  cases drives.step.effect accounted.one with
  | calm _ _ undelivered _ silent => exact quiet silent undelivered
  | received _ _ undelivered => exact quiet rfl undelivered
  | stopped _ _ _ undelivered _ silent => exact quiet silent undelivered
  | started _ _ _ _ _ _ undelivered _ silent => exact quiet silent undelivered
  | acted _ _ _ _ _ _ undelivered _ silent => exact quiet silent undelivered
  | closed => exact absurd rfl fair.running
  | @reported index made _ _ _ _ working step _ _ undelivered =>
      cases hosting : scheduler.executor.hosting with
      | inline =>
          rw [undelivered, hosting, held.trailing.direct hosting] at under
          cases under
      | background =>
          have silent : (Executor.Move.act index (.report made)).report?
              scheduler.executor.hosting = none := by
            rw [hosting]
            rfl
          rw [drives.queue_of_silent silent]
          rcases Executor.mem_of_reported undelivered under with earlier | rfl
          · exact held.lasting earlier about
          · exact lasting_of_made accounted held.owned held.unstopped fair working step about
  | @delivered first _ _ _ undelivered =>
      have later : report ∈ scheduler.executor.undelivered := by
        rw [undelivered]
        exact List.mem_cons_of_mem _ under
      obtain ⟨entry, queued, lasts⟩ := held.lasting later about
      -- A report that is followed by another one does not complete the entry.
      have runnable : first.runnable = true := by
        apply held.trailing.going
        rw [undelivered, List.dropLast_cons_of_ne_nil (List.ne_nil_of_mem under)]
        exact List.mem_cons_self
      obtain ⟨after, still, size⟩ := drives.still_queued accounted.tidy queued <| by
        rintro _ ⟨⟩ here
        have waiting : first ∈ scheduler.executor.undelivered := by
          rw [undelivered]
          exact List.mem_cons_self
        obtain ⟨other, found, below | whole⟩ := held.lasting waiting here
        · cases queued.symm.trans found
          exact below.2
        · cases runnable.symm.trans whole.1
      exact ⟨after, still, size ▸ lasts⟩

theorem drives
    (held : Held path scheduler)
    (drives : Drives scheduler move next)
    (fair : scheduler.executor.Fair path move)
    (kept :
      ∀ {snapshot : Snapshot} {engine : Engine},
        scheduler.executor.Handles move snapshot → scheduler.executor.Sending path engine →
          Executor.keeps snapshot path = true) :
    Held path next where
  accounted := held.accounted.drives drives
  trailing := held.trailing.drives held.accounted drives
  owned := held.owned.drives held.accounted drives
  unstopped := Scheduler.unstopped_of_drives held.accounted drives fair held.unstopped kept
  lasting := held.lasting_of_drives drives fair

/-- The entry stays runnable unless a report confirms all of it, which removes it. -/
theorem queued_of_drives
    {entry : Entry}
    (held : Held path scheduler)
    (drives : Drives scheduler move next)
    (fair : scheduler.executor.Fair path move)
    (queued : scheduler.queue.find? path = some entry)
    (runnable : entry.runnable = true) :
    (∃ after,
        next.queue.find? path = some after ∧ after.runnable = true ∧ after.size = entry.size) ∨
      ∃ report,
        move.report? scheduler.executor.hosting = some report ∧ report.path = path ∧
          entry.size ≤ report.uploaded ∧ next.queue.find? path = none := by
  refine queued_of_lasting held.accounted drives queued runnable ?_
  intro report brought about
  have lasts : ∃ entry, scheduler.queue.find? path = some entry ∧ Lasting entry.size report := by
    rcases (drives.step.effect held.accounted.one).brought brought with
      ⟨_, _, working, step⟩ | under
    · exact lasting_of_made held.accounted held.owned held.unstopped fair working step about
    · exact held.lasting under about
  obtain ⟨other, found, lasts⟩ := lasts
  cases queued.symm.trans found
  exact lasts.imp And.left And.right

end Work

/-- What the caller does changes nothing of what is under way. -/
theorem called
    {move : Move}
    (held : Held path scheduler)
    (step : Step scheduler move next)
    (idle : scheduler.work? move = none)
    (spared : move ≠ .discard path)
    (executor : next.executor = scheduler.executor) :
    Held path next where
  accounted := held.accounted.step step
  trailing := executor ▸ held.trailing
  owned := held.owned.step held.accounted step spared
  unstopped := executor ▸ held.unstopped
  lasting {report} under about := by
    rw [executor] at under
    obtain ⟨entry, queued, lasts⟩ := held.lasting under about
    obtain ⟨after, still, size⟩ := step.still_queued held.accounted.tidy queued idle spared
    exact ⟨after, still, size ▸ lasts⟩

theorem step
    {move : Move}
    (held : Held path scheduler)
    (unpreempted : Unpreempted path scheduler move next) :
    Held path next := by
  have taken := unpreempted.step
  have spared := unpreempted.spared
  cases unpreempted.step with
  | add | stop | discard | restore | tick => exact held.called taken rfl spared rfl
  | post found =>
      have works := congrArg (Option.map Executor.Move.send) found
      exact held.drives (drives_post found) (unpreempted.fair works)
        fun handles => unpreempted.kept ⟨_, works, handles⟩
  | work own acting =>
      exact held.drives (drives_work own acting) (unpreempted.fair rfl)
        fun handles => unpreempted.kept ⟨_, rfl, handles⟩

/-- A runnable entry stays so until the report that completes it is heard. -/
theorem still_runnable
    {move : Move}
    {entry : Entry}
    (held : Held path scheduler)
    (unpreempted : Unpreempted path scheduler move next)
    (queued : scheduler.queue.find? path = some entry)
    (runnable : entry.runnable = true) :
    (∃ after,
        next.queue.find? path = some after ∧ after.runnable = true ∧ after.size = entry.size) ∨
      Completes path entry.size scheduler move next := by
  have called (idle : scheduler.work? move = none) :=
    unpreempted.still_runnable held.accounted.tidy queued runnable idle
  cases unpreempted.step with
  | add | stop | discard | restore | tick => exact .inl (called rfl)
  | post found =>
      have fair := unpreempted.fair (congrArg (Option.map _) found)
      rcases held.queued_of_drives (drives_post found) fair queued runnable with
        still | ⟨_, ⟨⟩, _⟩
      exact .inl still
  | work own acting =>
      have fair := unpreempted.fair rfl
      rcases held.queued_of_drives (drives_work own acting) fair queued runnable with
        still | ⟨report, brought, whole⟩
      · exact .inl still
      · exact .inr ⟨_, report, rfl, brought, whole⟩

end Held

theorem runnable_of_trace
    {size : Nat}
    {moves : List Move}
    {start final : Scheduler}
    (held : Held path start)
    (queued :
      ∃ entry,
        start.queue.find? path = some entry ∧ entry.runnable = true ∧ entry.size = size)
    (run : Trace (Unpreempted path) start moves final) :
    Held path final ∧
        (∃ entry,
          final.queue.find? path = some entry ∧ entry.runnable = true ∧ entry.size = size) ∨
      Completed path size start moves := by
  apply holds_until_completed Unpreempted.toUndisturbed _ ⟨held, queued⟩ run
  rintro state move next ⟨held, entry, found, runnable, rfl⟩ last
  rcases held.still_runnable last found runnable with kept | completes
  · exact .inl ⟨held.step last, kept⟩
  · exact .inr completes

/--
On every run in which nobody stops or discards a path, none of its uploads fails, the executor is not
closed and no snapshot takes the slot from an engine of the path that is sending, an entry stays
runnable from when a file was added to the path until a report that confirms all of it removes it.
-/
theorem unpreempted_entry_stays_runnable
    {limit : Nat}
    {hosting : Hosting}
    {tuning : Tuning}
    {earlier later : List Move}
    {file : FileHandle}
    {before added final : Scheduler}
    (past :
      Trace (Unpreempted path)
        { limit := limit, executor := { hosting := hosting, tuning := tuning } } earlier before)
    (addition : Step before (.add file path) added)
    (future : Trace (Unpreempted path) added later final) :
    (∃ entry, final.queue.find? path = some entry ∧ entry.runnable = true) ∨
      Completed path file.size added later := by
  have before := past.invariant (.start limit hosting tuning path) Held.step
  have held := before.called addition rfl (by rintro ⟨⟩) <| by
    cases addition
    rfl
  have queued :
      ∃ entry,
        added.queue.find? path = some entry ∧ entry.runnable = true ∧ entry.size = file.size := by
    cases addition with
    | add succeeded =>
        obtain ⟨entry, found, _, size, runnable⟩ := Queue.find?_add succeeded
        exact ⟨entry, found, runnable, size⟩
  rcases runnable_of_trace held queued future with ⟨_, entry, found, runnable, _⟩ | completed
  · exact .inl ⟨entry, found, runnable⟩
  · exact .inr completed

/-! ## A file that keeps the slot, and one that loses it -/

/-- Whether the caller only adds, restores and ticks in a move, and nothing panics or shuts down. -/
def Move.isGentle : Move → Bool
  | .stop _ | .discard _ => false
  | .work (.panic _) | .work .shutDown | .work .close => false
  | _ => true

/-- A gentle step in which no upload fails. -/
structure Gentle (scheduler : Scheduler) (move : Move) (next : Scheduler) : Prop where
  step : Step scheduler move next
  gentle : move.isGentle = true
  unfailed :
    ∀ run ∈ scheduler.executor.runs, ∀ error, run.engine.phase ≠ .concluding (.failed error)

/-- All that is left to ask of a gentle step is that the slot is kept. -/
theorem Gentle.unpreempted
    {move : Move}
    (gentle : Gentle scheduler move next)
    (kept : ∀ snapshot ∈ scheduler.waiting, Executor.keeps snapshot path = true) :
    Unpreempted path scheduler move next where
  step := gentle.step
  unpaused := by
    rintro rfl
    cases gentle.gentle
  spared := by
    rintro rfl
    cases gentle.gentle
  kept := by
    rintro snapshot _ ⟨_, works, handles⟩ _
    exact kept snapshot ((gentle.step.drives works).handled handles)
  fair := by
    intro work works
    constructor
    · rintro _ ⟨⟨_, run, found, _, rfl, _⟩, _, _⟩
      exact gentle.unfailed run (List.mem_of_getElem? found)
    · intro snapshot _ handles _
      rw [Snapshot.preempts, kept snapshot ((gentle.step.drives works).handled handles),
        Bool.not_true, Bool.and_false]
    · rintro rfl
      have shut := gentle.gentle
      cases gentle.step with
      | work =>
          cases works
          cases shut
      | post found =>
          rw [work?, found] at works
          cases works
      | add | stop | discard | restore | tick => cases works

/-- The scheduler after a move, if that is seen to be gentle. -/
def gently? (scheduler : Scheduler) (move : Move) : Option Scheduler :=
  if move.isGentle &&
      scheduler.executor.runs.all fun run =>
        match run.engine.phase with
        | .concluding (.failed _) => false
        | _ => true then
    scheduler.move? move
  else none

theorem gentle_of_gently?
    {move : Move}
    (made : scheduler.gently? move = some next) :
    Gentle scheduler move next := by
  unfold gently? at made
  split at made
  case isTrue seen =>
      rw [Bool.and_eq_true, List.all_eq_true] at seen
      refine ⟨step_of_move? made, seen.1, ?_⟩
      intro run listed error failing
      have going := seen.2 run listed
      rw [failing] at going
      cases going
  case isFalse => cases made

/-- The scheduler after a gentle move, if a path keeps the slot in all that waits. -/
def keepOn? (path : String) (scheduler : Scheduler) (move : Move) : Option Scheduler :=
  if scheduler.waiting.all fun snapshot => Executor.keeps snapshot path then
    scheduler.gently? move
  else none

theorem unpreempted_of_keepOn?
    {move : Move}
    (made : keepOn? path scheduler move = some next) :
    Unpreempted path scheduler move next := by
  unfold keepOn? at made
  split at made
  case isTrue kept => exact (gentle_of_gently? made).unpreempted (List.all_eq_true.mp kept)
  case isFalse => cases made

/-- The endpoint holds part of a file that nobody has added yet. -/
def listed : List Move :=
  [.restore [⟨"a", 2, 0⟩]]

/-- An engine of a second file has read the first chunk. -/
def underWay : List Move :=
  [ .tick, .post 0, .work .handle, .work (.act 0 (.create (.ok (Response.success ⟨"b", 2⟩)))),
    .work (.act 0 .check), .work (.act 0 (.read (.ok [1]))) ]

/-- That chunk arrives. -/
def arrives : List Move :=
  [ .work (.act 0 (.chunk 0 "AQ==" (.ok (Response.success ⟨"b", 1, 2⟩)))),
    .work (.act 0 (.report ⟨"b", 1, true, ""⟩)), .work (.act 0 .check) ]

/-- The first file is still missing, so the engine goes on. -/
def undisputed : List Move :=
  underWay ++ [.tick, .post 0, .work .handle] ++ arrives ++
    [.work (.act 0 (.read (.ok [2]))), .work (.deliver (.progress ⟨"b", 1, true, ""⟩))]

/-- The first file is added, so the engine stops, which the queue hears of. -/
def contested : List Move :=
  underWay ++ [.add ⟨0, .ofBytes [1, 2]⟩ "a", .tick, .post 0, .work .handle] ++ arrives ++
    [ .work (.act 0 (.report ⟨"b", 1, false, Outcome.stopped.message⟩)),
      .work (.deliver (.progress ⟨"b", 1, true, ""⟩)),
      .work (.deliver (.progress ⟨"b", 1, false, Outcome.stopped.message⟩)) ]

theorem undisputed_file_stays_runnable :
    ∃ before added final entry,
      Trace (Unpreempted "b")
          { limit := 10, executor := { hosting := .background, tuning := Config.tuning {} } }
          listed before ∧
        Step before (.add ⟨1, .ofBytes [1, 2]⟩ "b") added ∧
        Trace (Unpreempted "b") added undisputed final ∧
        final.queue.find? "b" = some entry ∧ entry.runnable = true := by
  have made :
      ((listed.foldlM (keepOn? "b")
          { limit := 10, executor := { hosting := .background, tuning := Config.tuning {} } }).bind
        fun before =>
          (before.move? (.add ⟨1, .ofBytes [1, 2]⟩ "b")).bind fun added =>
            undisputed.foldlM (keepOn? "b") added).isSome = true := by
    decide
  obtain ⟨final, made⟩ := Option.isSome_iff_exists.mp made
  obtain ⟨before, restored, rest⟩ := Option.bind_eq_some_iff.mp made
  obtain ⟨added, addition, sent⟩ := Option.bind_eq_some_iff.mp rest
  have past := Trace.of_foldlM (Unpreempted "b") unpreempted_of_keepOn? restored
  have step := step_of_move? addition
  have future := Trace.of_foldlM (Unpreempted "b") unpreempted_of_keepOn? sent
  rcases unpreempted_entry_stays_runnable past step future with kept | completed
  · obtain ⟨entry, queued, runnable⟩ := kept
    exact ⟨before, added, final, entry, past, step, future, queued, runnable⟩
  · -- The only report that is heard confirms the first of two bytes.
    obtain ⟨_, move, middle, _, within, between, _, work, report, rfl, brought, _, whole, _⟩ :=
      completed
    have hosted : middle.executor.hosting = .background :=
      hosting_of_trace <|
        ((past.imp fun taken => taken.step).snoc step).append (between.imp fun taken => taken.step)
    rw [hosted] at brought
    have heard : report ∈ undisputed.filterMap (Move.heard? .background) := by
      apply List.mem_filterMap.mpr
      exact ⟨.work work, within.subset (List.mem_append_right _ (List.mem_singleton_self _)), brought⟩
    obtain rfl : report = ⟨"b", 1, true, ""⟩ := List.mem_singleton.mp heard
    exact absurd whole (by decide)

/-- The file that loses the slot is paused, although nobody asked for that. -/
theorem preempted_file_is_paused :
    ∃ before added final entry,
      Trace Gentle
          { limit := 10, executor := { hosting := .background, tuning := Config.tuning {} } }
          listed before ∧
        Step before (.add ⟨1, .ofBytes [1, 2]⟩ "b") added ∧
        Trace Gentle added contested final ∧
        final.queue.find? "b" = some entry ∧ entry.runnable = false := by
  have paused :
      ((listed.foldlM gently?
          { limit := 10, executor := { hosting := .background, tuning := Config.tuning {} } }).bind
        fun before =>
          (before.move? (.add ⟨1, .ofBytes [1, 2]⟩ "b")).bind fun added =>
            (contested.foldlM gently? added).bind fun final =>
              (final.queue.find? "b").map (·.runnable)) =
          some false := by
    decide
  obtain ⟨before, restored, rest⟩ := Option.bind_eq_some_iff.mp paused
  obtain ⟨added, addition, rest⟩ := Option.bind_eq_some_iff.mp rest
  obtain ⟨final, preempted, found⟩ := Option.bind_eq_some_iff.mp rest
  obtain ⟨entry, queued, stopped⟩ := Option.map_eq_some_iff.mp found
  exact ⟨before, added, final, entry, Trace.of_foldlM Gentle gentle_of_gently? restored,
    step_of_move? addition, Trace.of_foldlM Gentle gentle_of_gently? preempted, queued, stopped⟩

end Scheduler

end ResumableUpload
