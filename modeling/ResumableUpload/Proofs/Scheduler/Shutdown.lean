import ResumableUpload.Proofs.Executor.Panics
import ResumableUpload.Proofs.Scheduler.Handling
import ResumableUpload.Proofs.Scheduler.Ownership

/-!
# Shutting down

An executor in the background that is told to shut down closes before long: its worker drops the
snapshots that wait and tells the engine in the slot to stop.  From then on no snapshot is handled, so
no engine is started, and the engine at work sends at most the chunk that it has begun to read.  The
queue is left alone; what leaves it later was discarded, or a report confirms all of it.

To be told so wakes the worker, wherever it waits.  When it next runs it may still handle snapshots that
wait, but it does not wait for another one: that it was told to shut down ends its loop at the latest
when there is no snapshot left.  So the executor has closed as soon as everybody has run who could run
when it was told, and what holds after `close` holds from then on.

An executor that runs engines inline ignores that it is told to shut down
(`inline_shutdown_is_ignored`).
-/

namespace ResumableUpload

namespace Executor

variable {executor next : Executor} {move : Move} {snapshot : Snapshot}

/-- Whoever is at work in a closed executor was told to stop. -/
def ToldWhenClosed (executor : Executor) : Prop :=
  executor.closed = true →
    ∀ {engine : Engine}, executor.AtWork engine → engine.stopRequested = true

/-- Only an open executor handles snapshots. -/
theorem Step.open_of_handles
    (step : Step executor move next)
    (one : OneTransfer executor)
    (handles : executor.Handles move snapshot) :
    executor.closed = false := by
  cases handles with
  | inlined inlined => exact one.open_of_inline inlined
  | queued =>
      cases step with
      | handle _ working => exact working

/-- When an executor closes it tells its engine to stop, unless it had closed before. -/
theorem ToldWhenClosed.close
    {engine : Engine}
    (before : executor.ToldWhenClosed)
    (one : OneTransfer executor)
    (atWork : executor.close.AtWork engine) :
    engine.stopRequested = true := by
  obtain ⟨index, working⟩ := atWork
  have stopped : executor.stopHolder.Working index engine := working
  obtain ⟨first, earlier, rfl⟩ := stopped.of_stopHolder
  split
  case isTrue => rfl
  case isFalse unheld =>
      cases closed : executor.closed with
      | true => exact before closed ⟨index, earlier⟩
      | false =>
          obtain ⟨run, found, running, _⟩ := earlier
          exact absurd (one.holder_of_running closed found running) unheld

theorem ToldWhenClosed.step
    (before : executor.ToldWhenClosed)
    (one : OneTransfer executor)
    (step : Step executor move next) :
    next.ToldWhenClosed := by
  intro closed engine atWork
  by_cases closes : move = .close
  · subst closes
    cases step with
    | close => exact before.close one atWork
  · have earlier : executor.closed = true := by
      rw [step.frame.2.2] at closed
      unfold closedAfter at closed
      split at closed
      case h_1 => exact absurd rfl closes
      case h_2 => exact closed
    obtain ⟨index, working⟩ := atWork
    rcases step.working working with ⟨_, working, goes⟩ | ⟨_, _, _, handles, _⟩
    · exact goes.stopRequested (before earlier ⟨index, working⟩)
    · cases earlier.symm.trans (step.open_of_handles one handles)

end Executor

namespace Scheduler

variable {scheduler next final : Scheduler} {moves : List Move} {path : String}

/-! ## A closed executor -/

theorem toldWhenClosed_of_trace
    {limit : Nat}
    {hosting : Hosting}
    {tuning : Tuning}
    (run :
      Trace Step { limit := limit, executor := { hosting := hosting, tuning := tuning } }
        moves next) :
    next.executor.ToldWhenClosed := by
  induction run with
  | refl => rintro ⟨⟩
  | snoc past last before =>
      rcases last.executor_cases with same | ⟨_, _, moved⟩
      · rw [same]
        exact before
      · exact before.step (accounted_of_trace past).one moved

/-- An executor that was told to shut down is told so for good. -/
theorem told_of_trace
    (run : Trace Step scheduler moves next)
    (told : scheduler.executor.shutDown = true) :
    next.executor.shutDown = true := by
  apply run.invariant told
  intro before move after told step
  rcases step.executor_cases with same | ⟨_, _, moved⟩
  · rw [same]
    exact told
  · exact moved.still_told told

/-- After the executor has closed no snapshot is handled. -/
theorem quiet_of_closed
    (accounted : Accounted scheduler)
    (closed : scheduler.executor.closed = true)
    (run : Trace Step scheduler moves final) :
    Trace Quiet scheduler moves final := by
  suffices quiet :
      Trace Quiet scheduler moves final ∧ Accounted final ∧ final.executor.closed = true from
    quiet.1
  induction run with
  | refl => exact ⟨.refl, accounted, closed⟩
  | snoc _ last earlier =>
      obtain ⟨quiet, accounted, closed⟩ := earlier
      refine ⟨quiet.snoc ⟨last, ?_⟩, accounted.step last, ?_⟩
      · rintro snapshot ⟨work, works, handles⟩
        have opened := (last.drives works).step.open_of_handles accounted.one handles
        cases closed.symm.trans opened
      · rcases last.executor_cases with same | ⟨_, _, moved⟩
        · rw [same]
          exact closed
        · exact moved.still_closed closed

/-- While no snapshot is handled no engine is started. -/
theorem started_of_quiet (run : Trace Quiet scheduler moves final) :
    final.executor.started = scheduler.executor.started := by
  induction run with
  | refl => rfl
  | snoc _ last same =>
      rcases last.step.executor_cases with kept | ⟨work, works, moved⟩
      · rw [kept]
        exact same
      · cases moved.launches with
        | none unchanged => exact unchanged.trans same
        | one handles => exact absurd ⟨work, works, handles⟩ last.unhandled

/-! ## What stays in the queue -/

/-- An entry of a path that is not discarded stays unless a report confirms all of it. -/
theorem Step.kept
    {move : Move}
    {entry : Entry}
    (step : Step scheduler move next)
    (tidy : scheduler.queue.Tidy)
    (queued : scheduler.queue.find? path = some entry)
    (spared : move ≠ .discard path) :
    (∃ after, next.queue.find? path = some after ∧ after.size = entry.size) ∨
      ∃ report,
        move.heard? scheduler.executor.hosting = some report ∧ report.path = path ∧
          entry.size ≤ report.uploaded := by
  cases works : scheduler.work? move with
  | none => exact .inl (step.still_queued tidy queued works spared)
  | some work =>
      have cases := (step.drives works).queued_cases tidy queued
      rcases cases with same | ⟨report, brought, about, ended | applied⟩
      · exact .inl ⟨entry, same, rfl⟩
      · refine .inr ⟨report, ?_, about, ended.1⟩
        cases step with
        | work => cases works; exact brought
        | post found =>
            rw [work?, found] at works
            cases works
            cases brought
        | add | stop | discard | restore | tick => cases works
      · exact .inl ⟨entry.apply report, applied.2, rfl⟩

theorem kept_of_trace
    {entry : Entry}
    (accounted : Accounted scheduler)
    (run : Trace Step scheduler moves final)
    (queued : scheduler.queue.find? path = some entry)
    (spared : Move.discard path ∉ moves) :
    (∃ after, final.queue.find? path = some after ∧ after.size = entry.size) ∨
      ∃ report ∈ moves.filterMap (Move.heard? scheduler.executor.hosting),
        report.path = path ∧ entry.size ≤ report.uploaded := by
  induction run with
  | refl => exact .inl ⟨entry, queued, rfl⟩
  | @snoc labels middle final label past last earlier =>
      rw [List.mem_append, List.mem_singleton, not_or] at spared
      rw [filterMap_concat]
      rcases earlier spared.1 with ⟨before, found, size⟩ | ⟨report, heard, confirmed⟩
      · have tidy := (past.invariant accounted Accounted.step).tidy
        rcases last.kept tidy found (Ne.symm spared.2) with
          ⟨after, still, same⟩ | ⟨report, heard, about, whole⟩
        · exact .inl ⟨after, still, same.trans size⟩
        · rw [hosting_of_trace past] at heard
          refine .inr ⟨report, List.mem_append_right _ ?_, about, size ▸ whole⟩
          rw [heard]
          exact List.mem_singleton_self report
      · exact .inr ⟨report, List.mem_append_left _ heard, confirmed⟩

/--
Once an executor in the background was told to shut down it can close at any time; its worker, which
that wakes, closes it when it next runs.  When it has closed no engine is started any more, and at most
one more chunk is sent, by an engine that had already looked whether to stop.  Neither takes anything out
of the queue: from the shutdown on, the entry of a path that is not discarded stays until a report
confirms all of it.
-/
theorem shutdown_stops_transfer
    {limit : Nat}
    {tuning : Tuning}
    {before told : Scheduler}
    (run :
      Trace Step { limit := limit, executor := { hosting := .background, tuning := tuning } }
        moves before)
    (asked : Step before (.work .shutDown) told) :
    (∀ {between : List Move} {closing : Scheduler},
      Trace Step told between closing → ∃ closed, Step closing (.work .close) closed) ∧
    ∀ {between further : List Move} {closing closed final : Scheduler},
      Trace Step told between closing → Step closing (.work .close) closed →
        Trace Step closed further final →
          final.executor.started = closing.executor.started ∧
            Subsides (fun _ => true) closing further final ∧
            ∀ {path : String} {entry : Entry},
              before.queue.find? path = some entry → Move.discard path ∉ between ++ further →
                (∃ after, final.queue.find? path = some after ∧ after.size = entry.size) ∨
                  ∃ report ∈ (between ++ further).filterMap (Move.heard? .background),
                    report.path = path ∧ entry.size ≤ report.uploaded := by
  have toldAll := run.snoc asked
  have hosted : told.executor.hosting = .background := hosting_of_trace toldAll
  have shutDown : told.executor.shutDown = true := by
    cases asked with
    | work _ moved =>
        cases moved with
        | shutDown =>
            have before : Executor.hosting _ = .background := hosting_of_trace run
            simp only [Executor.requestShutdown, before]
  have untouched : told.queue = before.queue := (asked.drives rfl).queue_of_silent rfl
  refine ⟨?_, ?_⟩
  · intro between closing meanwhile
    have hosts := (hosting_of_trace meanwhile).trans hosted
    exact ⟨_, .work rfl (.close hosts (told_of_trace meanwhile shutDown))⟩
  · intro between further closing closed final meanwhile closes afterwards
    have past := toldAll.append meanwhile
    have accounted := accounted_of_trace past
    have moved := (closes.drives rfl).step
    have quiet : Trace Quiet closed further final :=
      quiet_of_closed (accounted.step closes) moved.frame.2.2 afterwards
    refine ⟨?_, ?_, ?_⟩
    · refine (started_of_quiet quiet).trans ?_
      cases moved.launches with
      | none same => exact same
      | one handles => cases handles
    · refine subsides_of_told accounted.one moved rfl ?_ (quiet.imp Quiet.spares)
      intro engine atWork _
      have stopped := toldWhenClosed_of_trace (past.snoc closes)
      exact stopped moved.frame.2.2 atWork
    · intro path entry queued spared
      have all := (meanwhile.snoc closes).append afterwards
      have kept := kept_of_trace (accounted_of_trace toldAll) all (untouched ▸ queued)
        (by simpa using spared)
      simpa [hosted, Move.heard?, Executor.Move.report?] using kept

/-- The executor is shut down while an engine is about to read a chunk. -/
theorem shutdown_while_reading :
    ∃ before told closed final,
      Trace Step { limit := 10, executor := { hosting := .background, tuning := Config.tuning {} } }
          aboutToRead before ∧
        Step before (.work .shutDown) told ∧ Step told (.work .close) closed ∧
        Trace Step closed lastChunk final ∧ senders (fun _ => true) lastChunk final = [0] ∧
        final.executor.started = told.executor.started ∧
        Subsides (fun _ => true) told lastChunk final ∧
        ∃ after, final.queue.find? "a" = some after ∧ after.size = 2 := by
  have made :
      (aboutToRead.foldlM move?
          { limit := 10, executor := { hosting := .background, tuning := Config.tuning {} } }).bind
        (fun before =>
          (before.move? (.work .shutDown)).bind fun told =>
            (told.move? (.work .close)).bind fun closed =>
              (lastChunk.foldlM move? closed).map fun final =>
                (before.queue.find? "a", senders (fun _ => true) lastChunk final)) =
          some (some ⟨some ⟨0, .ofBytes [1, 2]⟩, "a", 2, 0, true, ""⟩, [0]) := by
    rfl
  obtain ⟨before, reading, rest⟩ := Option.bind_eq_some_iff.mp made
  obtain ⟨told, asking, rest⟩ := Option.bind_eq_some_iff.mp rest
  obtain ⟨closed, closing, rest⟩ := Option.bind_eq_some_iff.mp rest
  obtain ⟨final, sent, seen⟩ := Option.map_eq_some_iff.mp rest
  obtain ⟨queued, sender⟩ := Prod.mk.inj seen
  have run := Trace.of_foldlM Step step_of_move? reading
  have asked := step_of_move? asking
  have closes := step_of_move? closing
  have later := Trace.of_foldlM Step step_of_move? sent
  have stops := (shutdown_stops_transfer run asked).2 .refl closes later
  obtain ⟨started, subsides, kept⟩ := stops
  refine ⟨before, told, closed, final, run, asked, closes, later, sender, started, subsides, ?_⟩
  rcases kept queued (by simp [lastChunk]) with still | ⟨report, heard, _⟩
  · exact still
  · have unheard : ([] ++ lastChunk).filterMap (Move.heard? .background) = [] := rfl
    rw [unheard] at heard
    cases heard

/-- Two files are added, and an inline engine of the first one is about to read. -/
def inlineReading : List Move :=
  [ .add ⟨0, .ofBytes [1, 2, 3, 4]⟩ "a", .add ⟨1, .ofBytes [5]⟩ "b", .tick, .post 0,
    .work (.act 0 (.create (.ok (Response.success ⟨"a", 4⟩)))), .work (.act 0 .check) ]

/-- The engine goes on to the end of its file, and a tick starts one for the second file. -/
def inlineRest : List Move :=
  [ .work (.act 0 (.read (.ok [1]))),
    .work (.act 0 (.chunk 0 "AQ==" (.ok (Response.success ⟨"a", 1, 4⟩)))),
    .work (.act 0 (.report ⟨"a", 1, true, ""⟩)), .work (.act 0 .check),
    .work (.act 0 (.read (.ok [2, 3]))),
    .work (.act 0 (.chunk 1 "AgM=" (.ok (Response.success ⟨"a", 3, 4⟩)))),
    .work (.act 0 (.report ⟨"a", 3, true, ""⟩)), .work (.act 0 .check),
    .work (.act 0 (.read (.ok [4]))),
    .work (.act 0 (.chunk 3 "BA==" (.ok (Response.success ⟨"a", 4, 4⟩)))), .work (.act 0 .check),
    .work (.act 0 (.report ⟨"a", 4, false, ""⟩)), .work (.finish 0), .tick, .post 0 ]

/-- An inline engine sends all chunks of its file after the shutdown, and another one is started. -/
theorem inline_shutdown_is_ignored :
    ∃ before told final,
      Trace Step
          { limit := 10,
            executor := { hosting := .inline, tuning := Config.tuning { chunkLength := 1 } } }
          inlineReading before ∧
        Step before (.work .shutDown) told ∧ Trace Step told inlineRest final ∧
        senders (fun _ => true) inlineRest final = [0, 0, 0] ∧
        told.executor.started = ["a"] ∧ final.executor.started = ["a", "b"] := by
  have made :
      (inlineReading.foldlM move?
          { limit := 10,
            executor := { hosting := .inline, tuning := Config.tuning { chunkLength := 1 } } }).bind
        (fun before =>
          (before.move? (.work .shutDown)).bind fun told =>
            (inlineRest.foldlM move? told).map fun final =>
              (senders (fun _ => true) inlineRest final, told.executor.started,
                final.executor.started)) =
          some ([0, 0, 0], ["a"], ["a", "b"]) := by
    decide
  obtain ⟨before, reading, rest⟩ := Option.bind_eq_some_iff.mp made
  obtain ⟨told, asking, rest⟩ := Option.bind_eq_some_iff.mp rest
  obtain ⟨final, sent, seen⟩ := Option.map_eq_some_iff.mp rest
  simp only [Prod.mk.injEq] at seen
  exact ⟨before, told, final, Trace.of_foldlM Step step_of_move? reading, step_of_move? asking,
    Trace.of_foldlM Step step_of_move? sent, seen⟩

end Scheduler

end ResumableUpload
