import ResumableUpload.Proofs.Scheduler.Requests

/-!
# What came before a start

Reports are applied to the queue in the order in which they are made, and every snapshot was taken in
a tick.  An engine is started from a snapshot that had seen as many reports as were made, so all of
them were applied before that tick: none is under way, and what is reported later comes from the new
engine or from one after it.

The new engine begins where its entry was in the snapshot.  `Origin` says where that is: at the last
report that was applied to the entry, or where the entry began.
-/

namespace ResumableUpload

namespace Scheduler

variable {scheduler next start final : Scheduler} {move : Move} {moves : List Move}
variable {path : String} {snapshot : Snapshot}

/-! ## Reports made and reports applied -/

theorem Step.reports
    (step : Step scheduler move next)
    (accounted : Accounted scheduler)
    (direct : scheduler.executor.Direct) :
    scheduler.executor.undelivered ++ move.made?.toList =
        (move.heard? scheduler.executor.hosting).toList ++ next.executor.undelivered ∧
      next.executor.Direct := by
  cases step with
  | post found =>
      have step := (drives_post found).step
      have effect := step.effect accounted.one
      exact ⟨effect.reports direct, effect.direct step.hosting_eq direct⟩
  | work own acting =>
      have effect := acting.effect accounted.one
      exact ⟨effect.reports direct, effect.direct acting.hosting_eq direct⟩
  | add | stop | discard | restore | tick => exact ⟨List.append_nil _, direct⟩

theorem Step.reportsSeen_eq (step : Step scheduler move next) :
    next.queue.reportsSeen =
      scheduler.queue.reportsSeen +
        (move.heard? scheduler.executor.hosting).toList.length := by
  cases step with
  | add added => exact Queue.reportsSeen_add added
  | stop stopped => exact Queue.reportsSeen_stop stopped
  | discard deleted => exact Queue.reportsSeen_delete deleted
  | restore infos => exact Queue.reportsSeen_restore _ _ infos
  | tick => rfl
  | post => rfl
  | @work work _ own acting =>
      have heard : (Move.work work).heard? scheduler.executor.hosting =
          work.report? scheduler.executor.hosting := rfl
      rw [heard]
      cases work.report? scheduler.executor.hosting with
      | none => rfl
      | some report => exact Queue.reportsSeen_reconcile _ _

theorem Handles.made?_eq_none (handles : scheduler.Handles move snapshot) : move.made? = none := by
  obtain ⟨work, works, handles⟩ := handles
  cases move with
  | work =>
      cases works
      exact Executor.Move.made?_eq_none handles.isAct
  | _ => rfl

/-- What was made on a run, and what of it was applied. -/
structure Reported (start : Scheduler) (moves : List Move) (final : Scheduler) : Prop where
  accounted : Accounted final
  direct : final.executor.Direct
  /-- The reports are applied in the order in which they were made. -/
  order :
    start.executor.undelivered ++ moves.filterMap Move.made? =
      moves.filterMap (Move.heard? start.executor.hosting) ++ final.executor.undelivered
  seen :
    final.queue.reportsSeen =
      start.queue.reportsSeen + (moves.filterMap (Move.heard? start.executor.hosting)).length

theorem reported_of_trace
    (accounted : Accounted start)
    (direct : start.executor.Direct)
    (run : Trace Step start moves final) :
    Reported start moves final := by
  induction run with
  | refl => exact ⟨accounted, direct, List.append_nil _, rfl⟩
  | @snoc labels middle final label past last earlier =>
      obtain ⟨flows, still⟩ := last.reports earlier.accounted earlier.direct
      have seen := last.reportsSeen_eq
      rw [hosting_of_trace past] at flows seen
      refine ⟨earlier.accounted.step last, still, ?_, ?_⟩
      · rw [filterMap_concat, filterMap_concat, List.append_assoc, ← flows, ← List.append_assoc,
          ← List.append_assoc, earlier.order]
      · rw [filterMap_concat, List.length_append, seen, earlier.seen]
        exact Nat.add_assoc _ _ _

/-- No run is ever taken back. -/
theorem Step.runs_le
    (step : Step scheduler move next)
    (accounted : Accounted scheduler) :
    scheduler.executor.runs.length ≤ next.executor.runs.length := by
  have longer : ∀ {work : Executor.Move}, Drives scheduler work next →
      scheduler.executor.runs.length ≤ next.executor.runs.length := by
    intro work drives
    rcases drives.step.length accounted.one with same | ⟨more, _⟩ <;> omega
  cases step with
  | post found => exact longer (drives_post found)
  | work own acting => exact longer (drives_work own acting)
  | add | stop | discard | restore | tick => exact Nat.le_refl _

/-- Only the newest engine reports, so once one was started no engine before it does. -/
theorem reporter_of_trace
    {started : Nat}
    (accounted : Accounted start)
    (newer : started < start.executor.runs.length)
    (run : Trace Step start moves final) :
    (Accounted final ∧ started < final.executor.runs.length) ∧
      ∀ {index : Nat} {report : Report},
        Move.work (.act index (.report report)) ∈ moves → started ≤ index := by
  induction run with
  | refl =>
      refine ⟨⟨accounted, newer⟩, ?_⟩
      rintro _ _ ⟨⟩
  | @snoc labels middle final label past last earlier =>
      obtain ⟨⟨counted, longer⟩, reporters⟩ := earlier
      refine ⟨⟨counted.step last, Nat.lt_of_lt_of_le longer (last.runs_le counted)⟩, ?_⟩
      intro index report member
      rcases List.mem_append.mp member with before | here
      · exact reporters before
      · obtain rfl := List.mem_singleton.mp here
        cases last with
        | work own acting =>
            cases acting with
            | act found running =>
                have newest := counted.one.newest found running
                omega

/-! ## The tick in which a snapshot was taken -/

/-- On a run the snapshot is taken in the tick between two parts of it. -/
structure Taken
    (start : Scheduler)
    (snapshot : Snapshot)
    (past : List Move)
    (middle : Scheduler)
    (since : List Move)
    (final : Scheduler) : Prop where
  before : Trace Step start past middle
  taken : middle.queue.snapshot = snapshot
  after : Trace Step { middle with taken := middle.taken ++ [middle.queue.snapshot] } since final

/-- Every snapshot that waits was taken in a tick of the run. -/
theorem taken_of_waiting
    (accounted : Accounted start)
    (vacant : start.waiting = [])
    (run : Trace Step start moves final)
    (member : snapshot ∈ final.waiting) :
    ∃ past middle since,
      moves = past ++ .tick :: since ∧ Taken start snapshot past middle since final := by
  induction run with
  | refl =>
      rw [vacant] at member
      cases member
  | @snoc labels middle final label past last earlier =>
      have counted := past.invariant accounted Accounted.step
      rcases last.waiting_cases member with waited | ⟨rfl, rfl⟩
      · obtain ⟨first, between, rest, rfl, taken⟩ := earlier waited
        refine ⟨first, between, rest ++ [label], ?_, taken.before, taken.taken, taken.after.snoc last⟩
        rw [List.append_assoc, List.cons_append]
      · cases last with
        | tick => exact ⟨labels, middle, [], rfl, past, rfl, .refl⟩

/-! ## Where the offset of an entry comes from -/

/-- The offset after the reports about a path, the last of which counts. -/
def offsetAfter (first : Nat) (path : String) (reports : List Report) : Nat :=
  ((reports.filter (·.path == path)).getLast?.map (·.uploaded)).getD first

theorem offsetAfter_append
    (first : Nat)
    (path : String)
    (earlier later : List Report) :
    offsetAfter first path (earlier ++ later) =
      offsetAfter (offsetAfter first path earlier) path later := by
  unfold offsetAfter
  rw [List.filter_append, List.getLast?_append]
  cases (later.filter (·.path == path)).getLast? <;> rfl

theorem offsetAfter_singleton
    (first : Nat)
    (path : String)
    (report : Report) :
    offsetAfter first path [report] = if report.path = path then report.uploaded else first := by
  unfold offsetAfter
  by_cases here : report.path = path <;> simp [here]

/-- A path that was not queued is queued in a move, and its entry begins with this offset. -/
inductive Begins (path : String) (scheduler : Scheduler) : Move → Scheduler → Nat → Prop where
  | added {file : FileHandle} {next : Scheduler}
      (missing : scheduler.queue.find? path = none)
      (step : Step scheduler (.add file path) next) :
      Begins path scheduler (.add file path) next 0
  | restored {infos : List PartialInfo} {info : PartialInfo} {next : Scheduler}
      (missing : scheduler.queue.find? path = none)
      (step : Step scheduler (.restore infos) next)
      (listed : info ∈ infos)
      (about : info.path = path)
      (queued : next.queue.find? path = some (.ofInfo info)) :
      Begins path scheduler (.restore infos) next (min info.uploaded info.size)

/-- A step after which the path is queued. -/
structure Lasts (path : String) (scheduler : Scheduler) (move : Move) (next : Scheduler) :
    Prop where
  step : Step scheduler move next
  queued : ∃ entry, next.queue.find? path = some entry

/--
The entry of the path was queued in a move of the run and has stayed queued since, and its offset is
that of the last report applied to it, or the one that it began with.
-/
def Origin
    (path : String)
    (start : Scheduler)
    (moves : List Move)
    (final : Scheduler)
    (offset : Nat) : Prop :=
  ∃ earlier birth life before created first,
    moves = earlier ++ birth :: life ∧ Trace Step start earlier before ∧
      Begins path before birth created first ∧ Trace (Lasts path) created life final ∧
      offset = offsetAfter first path (life.filterMap (Move.heard? start.executor.hosting))

/-- The entry of a path is new, or it was queued and has taken over what was reported. -/
theorem Step.entry_cases
    {entry : Entry}
    (step : Step scheduler move next)
    (tidy : scheduler.queue.Tidy)
    (queued : next.queue.find? path = some entry) :
    Begins path scheduler move next entry.uploaded ∨
      ∃ before,
        scheduler.queue.find? path = some before ∧
          entry.uploaded =
            offsetAfter before.uploaded path
              (move.heard? scheduler.executor.hosting).toList := by
  have taken := step
  cases step with
  | @add file other queue added =>
      by_cases here : other = path
      · subst here
        rcases Queue.uploaded_add added queued with ⟨before, found, same⟩ | ⟨missing, zero⟩
        · exact .inr ⟨before, found, same⟩
        · rw [zero]
          exact .inl (.added missing taken)
      · have found := (Queue.find?_add_of_ne added (Ne.symm here)).symm.trans queued
        exact .inr ⟨entry, found, rfl⟩
  | @stop other queue stopped =>
      refine .inr ?_
      have found : queue.find? path = some entry := queued
      rw [Queue.find?_stop stopped] at found
      split at found
      · obtain ⟨before, earlier, rfl⟩ := Option.map_eq_some_iff.mp found
        exact ⟨before, earlier, rfl⟩
      · exact ⟨entry, found, rfl⟩
  | @discard other queue deleted =>
      have found : queue.find? path = some entry := queued
      rw [tidy.find?_delete deleted] at found
      split at found
      · cases found
      · exact .inr ⟨entry, found, rfl⟩
  | restore infos =>
      cases earlier : scheduler.queue.find? path with
      | none =>
          obtain ⟨info, listed, about, rfl⟩ := Queue.restored earlier queued
          exact .inl (.restored earlier taken listed about queued)
      | some before =>
          cases (Queue.find?_restore_of_some earlier).symm.trans queued
          exact .inr ⟨entry, rfl, rfl⟩
  | tick => exact .inr ⟨entry, queued, rfl⟩
  | post => exact .inr ⟨entry, queued, rfl⟩
  | @work work _ own acting =>
      refine .inr ?_
      have heard : (Move.work work).heard? scheduler.executor.hosting =
          work.report? scheduler.executor.hosting := rfl
      rw [heard]
      cases brought : work.report? scheduler.executor.hosting with
      | none =>
          rw [brought] at queued
          exact ⟨entry, queued, rfl⟩
      | some report =>
          rw [brought] at queued
          have found : (scheduler.queue.reconcile report).find? path = some entry := queued
          rw [tidy.find?_reconcile] at found
          by_cases here : path = report.path
          · rw [if_pos here] at found
            obtain ⟨before, earlier, kept⟩ := Option.bind_eq_some_iff.mp found
            split at kept
            · cases kept
            · cases kept
              refine ⟨before, here ▸ earlier, ?_⟩
              rw [Option.toList_some, offsetAfter_singleton, if_pos here.symm]
              rfl
          · rw [if_neg here] at found
            refine ⟨entry, found, ?_⟩
            rw [Option.toList_some, offsetAfter_singleton, if_neg (Ne.symm here)]

theorem origin_of_trace
    {entry : Entry}
    (accounted : Accounted start)
    (vacant : start.queue.find? path = none)
    (run : Trace Step start moves final)
    (queued : final.queue.find? path = some entry) :
    Origin path start moves final entry.uploaded := by
  induction run generalizing entry with
  | refl =>
      rw [vacant] at queued
      cases queued
  | @snoc labels middle final label past last earlier =>
      have counted := past.invariant accounted Accounted.step
      have hosting := hosting_of_trace past
      rcases last.entry_cases counted.tidy queued with begins | ⟨before, found, same⟩
      · exact ⟨labels, label, [], middle, final, _, rfl, past, begins, .refl, rfl⟩
      · obtain ⟨first, birth, life, unborn, created, offset, rfl, preceding, begins, lasts, value⟩ :=
          earlier found
        refine ⟨first, birth, life ++ [label], unborn, created, offset, ?_, preceding, begins,
          lasts.snoc ⟨last, entry, queued⟩, ?_⟩
        · rw [List.append_assoc, List.cons_append]
        · rw [filterMap_concat, offsetAfter_append, ← value, ← hosting]
          exact same

/-! ## What an engine starts from -/

/-- An engine is only started by the executor, from a snapshot that it handles. -/
theorem Step.starts
    (step : Step scheduler move next)
    (accounted : Accounted scheduler)
    (longer : scheduler.executor.runs.length < next.executor.runs.length) :
    ∃ snapshot entry file,
      scheduler.Handles move snapshot ∧ snapshot ∈ scheduler.waiting ∧
        snapshot.next? = some (entry, file) ∧
        scheduler.executor.emitted ≤ snapshot.reportsSeen ∧
        next.executor.runs = scheduler.executor.runs ++ [scheduler.executor.runOf entry file] := by
  have driven : ∀ {work : Executor.Move}, scheduler.work? move = some work →
      ∃ snapshot entry file,
        scheduler.Handles move snapshot ∧ snapshot ∈ scheduler.waiting ∧
          snapshot.next? = some (entry, file) ∧
          scheduler.executor.emitted ≤ snapshot.reportsSeen ∧
          next.executor.runs =
            scheduler.executor.runs ++ [scheduler.executor.runOf entry file] := by
    intro work works
    rcases (step.drives works).starts accounted with
      same | ⟨snapshot, entry, file, handles, member, first, current, _, runs⟩
    · have length := congrArg List.length same
      simp only [Executor.started, List.length_map] at length
      omega
    · exact ⟨snapshot, entry, file, ⟨work, works, handles⟩, member, first, current, runs⟩
  cases step with
  | post found => exact driven (congrArg (Option.map _) found)
  | work => exact driven rfl
  | add | stop | discard | restore | tick => exact absurd longer (Nat.lt_irrefl _)

/-- Between the tick of a snapshot that may start an engine and the start no report is applied. -/
theorem Reported.made_eq_heard
    {past since : List Move}
    {middle : Scheduler}
    (reported : Reported start (past ++ .tick :: since) final)
    (earlier : Reported start past middle)
    (idle : start.executor.undelivered = [])
    (fresh : start.queue.reportsSeen = 0)
    (delivered : final.executor.undelivered = [])
    (current : final.executor.emitted ≤ middle.queue.reportsSeen) :
    (past ++ .tick :: since).filterMap Move.made? =
      past.filterMap (Move.heard? start.executor.hosting) := by
  have order := reported.order
  rw [idle, delivered, List.nil_append, List.append_nil] at order
  have split :
      (past ++ Move.tick :: since).filterMap (Move.heard? start.executor.hosting) =
        past.filterMap (Move.heard? start.executor.hosting) ++
          since.filterMap (Move.heard? start.executor.hosting) := by
    rw [List.filterMap_append, List.filterMap_cons_none rfl]
  have counted := reported.accounted.counted
  have seen := reported.seen
  have before := earlier.seen
  rw [delivered, List.length_nil] at counted
  rw [split, List.length_append] at seen
  have none : since.filterMap (Move.heard? start.executor.hosting) = [] := by
    apply List.eq_nil_of_length_eq_zero
    omega
  rw [order, split, none, List.append_nil]

/--
Whenever an engine starts, all reports that were ever made had been applied to the queue before the
snapshot was taken from which it starts; so no report is under way.  The engine begins at the last
offset reported for the entry of the snapshot, or where that entry began.  And every report that is
applied from then on is one that this engine makes or an engine after it.
-/
theorem starts_from_applied_reports
    {limit : Nat}
    {hosting : Hosting}
    {tuning : Tuning}
    {before after : Scheduler}
    (run :
      Trace Step { limit := limit, executor := { hosting := hosting, tuning := tuning } }
        moves before)
    (step : Step before move after)
    (starts : before.executor.runs.length < after.executor.runs.length) :
    ∃ snapshot entry engine,
      before.Handles move snapshot ∧ entry ∈ snapshot.entries ∧
        after.executor.runs = before.executor.runs ++ [⟨engine, .running, false⟩] ∧
        engine.path = entry.path ∧ engine.offset = entry.uploaded ∧
        before.executor.undelivered = [] ∧
        (∃ past middle since,
          moves = past ++ .tick :: since ∧
            Taken { limit := limit, executor := { hosting := hosting, tuning := tuning } }
              snapshot past middle since before) ∧
        (∀ {past : List Move} {middle : Scheduler} {since : List Move},
          moves = past ++ .tick :: since →
            Taken { limit := limit, executor := { hosting := hosting, tuning := tuning } }
              snapshot past middle since before →
              moves.filterMap Move.made? = past.filterMap (Move.heard? hosting) ∧
                Origin entry.path
                  { limit := limit, executor := { hosting := hosting, tuning := tuning } }
                  past middle entry.uploaded) ∧
        ∀ {further : List Move} {later : Scheduler},
          Trace Step after further later →
            further.filterMap Move.made? =
                further.filterMap (Move.heard? hosting) ++ later.executor.undelivered ∧
              ∀ {index : Nat} {report : Report},
                Move.work (.act index (.report report)) ∈ further →
                  before.executor.runs.length ≤ index := by
  have initially := Accounted.start limit hosting tuning
  have accounted := accounted_of_trace run
  have reported := reported_of_trace initially (fun _ => rfl) run
  have continued := reported_of_trace initially (fun _ => rfl) (run.snoc step)
  obtain ⟨snapshot, entry, file, handles, member, first, current, runs⟩ :=
    step.starts accounted starts
  obtain ⟨listed, eligible, held⟩ := Snapshot.next?_eq_some first
  have delivered := accounted.undelivered_of_current member current
  have size := (accounted.snapshots member).fits listed held
  simp only [Entry.isEligible, Bool.and_eq_true, decide_eq_true_eq] at eligible
  have below := eligible.1.2
  have offset : (before.executor.runOf entry file).engine.offset = entry.uploaded :=
    Nat.min_eq_left (by omega)
  refine ⟨snapshot, entry, (before.executor.runOf entry file).engine, handles, listed, runs, rfl,
    offset, delivered, taken_of_waiting initially rfl run member, ?_, ?_⟩
  · rintro past middle since rfl taken
    have earlier := reported_of_trace initially (fun _ => rfl) taken.before
    constructor
    · refine reported.made_eq_heard earlier rfl rfl delivered ?_
      rw [← taken.taken] at current
      exact current
    · apply origin_of_trace initially rfl taken.before
      rw [← taken.taken] at listed
      exact earlier.accounted.tidy.find?_of_mem listed
  · intro further later future
    have flow := reported_of_trace continued.accounted continued.direct future
    have settled : after.executor.undelivered = [] := by
      have flows := (step.reports accounted reported.direct).1
      rw [delivered, handles.made?_eq_none] at flows
      exact (List.append_eq_nil_iff.mp flows.symm).2
    constructor
    · have order := flow.order
      rw [settled, List.nil_append, hosting_of_trace (run.snoc step)] at order
      exact order
    · exact (reporter_of_trace continued.accounted starts future).2

/-- A file is stopped after its first byte has arrived. -/
def stoppedHalfway : List Move :=
  [ .add ⟨0, .ofBytes [1, 2]⟩ "a", .tick, .post 0, .work .handle,
    .work (.act 0 (.create (.ok (Response.success ⟨"a", 2⟩)))), .work (.act 0 .check),
    .work (.act 0 (.read (.ok [1]))),
    .work (.act 0 (.chunk 0 "AQ==" (.ok (Response.success ⟨"a", 1, 2⟩)))),
    .work (.act 0 (.report ⟨"a", 1, true, ""⟩)), .stop "a", .tick, .post 0, .work .handle,
    .work (.act 0 .check), .work (.act 0 (.report ⟨"a", 1, false, Outcome.stopped.message⟩)) ]

/-- The engine ends, its reports are applied, and the file is added again. -/
def addedAgain : List Move :=
  [ .work (.finish 0), .work (.notice 0), .work (.deliver (.progress ⟨"a", 1, true, ""⟩)),
    .work (.deliver (.progress ⟨"a", 1, false, Outcome.stopped.message⟩)),
    .add ⟨0, .ofBytes [1, 2]⟩ "a", .tick, .post 0 ]

theorem second_engine_starts_halfway :
    ∃ before after engine,
      Trace Step { limit := 10, executor := { hosting := .background, tuning := Config.tuning {} } }
          (stoppedHalfway ++ addedAgain) before ∧
        Step before (.work .handle) after ∧
        after.executor.runs = before.executor.runs ++ [⟨engine, .running, false⟩] ∧
        engine.offset = 1 ∧ before.executor.undelivered = [] := by
  have made :
      (((stoppedHalfway ++ addedAgain).foldlM move?
          { limit := 10, executor := { hosting := .background, tuning := Config.tuning {} } }).bind
        fun before =>
          (before.move? (.work .handle)).map fun after =>
            (before.executor.runs.length, after.executor.runs.map (·.engine.offset))) =
          some (1, [1, 1]) := by
    decide
  obtain ⟨before, moved, rest⟩ := Option.bind_eq_some_iff.mp made
  obtain ⟨after, handled, counts⟩ := Option.map_eq_some_iff.mp rest
  rw [Prod.mk.injEq] at counts
  obtain ⟨one, offsets⟩ := counts
  have two := congrArg List.length offsets
  rw [List.length_map] at two
  have run := Trace.of_foldlM Step step_of_move? moved
  have step := step_of_move? handled
  have longer : before.executor.runs.length < after.executor.runs.length := by
    rw [one, two]
    exact Nat.lt_succ_self _
  obtain ⟨_, _, engine, _, _, runs, _, _, delivered, _⟩ := starts_from_applied_reports run step longer
  have last := congrArg List.getLast? offsets
  rw [runs, List.map_append, List.map_singleton, List.getLast?_concat] at last
  exact ⟨before, after, engine, run, step, runs, Option.some.inj last, delivered⟩

end Scheduler

end ResumableUpload
