import ResumableUpload.Proofs.Executor.Panics
import ResumableUpload.Proofs.Scheduler.Handling

/-!
# The slot is never lost

Whatever has happened before, once every engine has ended, every snapshot was handled and every event
was delivered, the next snapshot starts an engine for the first runnable entry.  No history leaves
behind a report that is counted as made and never as applied, so the snapshot has seen them all; and
the slot of an engine whose end was noticed can be had.  Only the file of an engine that panicked is
passed over.
-/

namespace ResumableUpload

namespace Scheduler

variable {scheduler next ready : Scheduler} {moves between : List Move}

/-- Every engine has ended, which was noticed; no snapshot waits to be handled, and no event. -/
structure Quiescent (scheduler : Scheduler) : Prop where
  ended : ∀ run ∈ scheduler.executor.runs, run.fate ≠ .running ∧ run.noticed = true
  handled : scheduler.executor.requests = []
  delivered : scheduler.executor.events = []

/-- Whether a move is one of the caller: a call, a tick, or a snapshot that reaches the executor. -/
def Move.isCall : Move → Bool
  | .work _ => false
  | _ => true

theorem Quiescent.vacant (quiescent : Quiescent scheduler) : scheduler.executor.Vacant := by
  intro run held
  obtain ⟨index, _, found⟩ := Option.bind_eq_some_iff.mp held
  exact (quiescent.ended run (List.mem_of_getElem? found)).2

/-- If nothing is under way every report that was made has been applied. -/
theorem Quiescent.emitted_eq
    (quiescent : Quiescent scheduler)
    (accounted : Accounted scheduler) :
    scheduler.executor.emitted = scheduler.queue.reportsSeen := by
  have counted := accounted.counted
  unfold Executor.undelivered at counted
  rw [quiescent.delivered] at counted
  exact counted

/-- What the caller does changes nothing of a background executor but the snapshots that wait. -/
theorem executor_of_calls
    (hosted : scheduler.executor.hosting = .background)
    (run : Trace Step scheduler moves next)
    (calls : ∀ move ∈ moves, move.isCall = true) :
    ∃ requests, next.executor = { scheduler.executor with requests := requests } := by
  induction run with
  | refl => exact ⟨scheduler.executor.requests, rfl⟩
  | @snoc earlier middle final move past last same =>
      obtain ⟨requests, before⟩ :=
        same fun other member => calls other (List.mem_append_left _ member)
      have call : move.isCall = true :=
        calls move (List.mem_append_right _ (List.mem_singleton_self _))
      cases last with
      | add | stop | discard | restore | tick => exact ⟨requests, before⟩
      | work => cases call
      | post =>
          have hosts : Executor.hosting _ = .background := (congrArg _ before).trans hosted
          dsimp only
          rw [Executor.receive_of_background hosts, before]
          exact Executor.enqueue_frame _ _

theorem marked_of_trace
    {limit : Nat}
    {hosting : Hosting}
    {tuning : Tuning}
    (run :
      Trace Step { limit := limit, executor := { hosting := hosting, tuning := tuning } }
        moves next) :
    next.executor.Marked ∧ next.executor.ClosedWhenTold := by
  induction run with
  | refl => exact ⟨by rintro _ _ ⟨⟩, by rintro ⟨⟩⟩
  | snoc _ last held =>
      rcases last.executor_cases with same | ⟨_, _, moved⟩
      · rw [same]
        exact held
      · exact ⟨held.1.step moved, held.2.step moved⟩

/-- Once nothing is under way the snapshot of a tick can reach the worker and be handled. -/
theorem Quiescent.can_handle
    (quiescent : Quiescent scheduler)
    (hosted : scheduler.executor.hosting = .background)
    (working : scheduler.executor.closed = false) :
    ∃ ready next,
      Trace Step scheduler [.tick, .post scheduler.taken.length] ready ∧
        ready.Handles (.work .handle) scheduler.queue.snapshot ∧
        Step ready (.work .handle) next := by
  let ticked : Scheduler :=
    { scheduler with taken := scheduler.taken ++ [scheduler.queue.snapshot] }
  have taken : Step scheduler .tick ticked := .tick
  have posted : Step ticked (.post scheduler.taken.length) _ :=
    .post List.getElem?_concat_length
  have received :
      ticked.executor.receive scheduler.queue.snapshot =
        { scheduler.executor with requests := [scheduler.queue.snapshot] } :=
    Executor.receive_of_idle hosted working quiescent.handled _
  rw [received] at posted
  exact ⟨_, _, (Trace.snoc .refl taken).snoc posted, ⟨.handle, rfl, .queued hosted rfl⟩,
    .work rfl (.handle hosted working)⟩

/--
Once nothing is under way, whatever came before, the snapshot of the next tick can be handled, and
when it is, no matter what the caller does in between, an engine starts for the entry that was the
first runnable one.  Only if the entry has the path and the file that are marked for an engine that
panicked, nothing starts.
-/
theorem quiescent_tick_starts_first
    {limit : Nat}
    {tuning : Tuning}
    {entry : Entry}
    (run :
      Trace Step { limit := limit, executor := { hosting := .background, tuning := tuning } }
        moves scheduler)
    (up : scheduler.executor.shutDown = false)
    (quiescent : Quiescent scheduler)
    (first : scheduler.queue.snapshot.first? = some entry) :
    ∃ file,
      entry.file = some file ∧
        (∃ ready next,
          Trace Step scheduler [.tick, .post scheduler.taken.length] ready ∧
            ready.Handles (.work .handle) scheduler.queue.snapshot ∧
            Step ready (.work .handle) next) ∧
        (scheduler.executor.reap.failed = some (entry.path, file.identity) →
          scheduler.executor.Panicked entry.path file.identity) ∧
        ∀ {between : List Move} {ready next : Scheduler},
          Trace Step scheduler (.tick :: between) ready →
            (∀ move ∈ between, move.isCall = true) →
              ready.Handles (.work .handle) scheduler.queue.snapshot →
                Step ready (.work .handle) next →
                  scheduler.executor.reap.failed ≠ some (entry.path, file.identity) →
                    next.executor.runs =
                        scheduler.executor.runs ++ [scheduler.executor.runOf entry file] ∧
                      next.executor.holder = some scheduler.executor.runs.length := by
  have hosted : scheduler.executor.hosting = .background := hosting_of_trace run
  obtain ⟨marked, closedWhenTold⟩ := marked_of_trace run
  have working : scheduler.executor.closed = false := by
    rw [Bool.eq_false_iff]
    intro closed
    rw [closedWhenTold closed] at up
    cases up
  have queued : ∀ entry ∈ scheduler.queue.snapshot.entries, entry.Ready :=
    (ready_of_trace run).queued
  have chosen := Snapshot.next?_eq_first? queued
  rw [first] at chosen
  obtain ⟨⟨_, file⟩, next, rfl⟩ := Option.map_eq_some_iff.mp chosen
  obtain ⟨_, _, held⟩ := Snapshot.next?_eq_some next
  refine ⟨file, held, quiescent.can_handle hosted working, marked.reap, ?_⟩
  intro between ready after past calls handles step spared
  obtain ⟨requests, same⟩ := executor_of_calls hosted past fun move member => by
    rcases List.mem_cons.mp member with rfl | later
    · rfl
    · exact calls move later
  have current : scheduler.executor.emitted ≤ scheduler.queue.snapshot.reportsSeen :=
    Nat.le_of_eq (quiescent.emitted_eq (accounted_of_trace run))
  obtain ⟨_, ⟨⟩, handling⟩ := handles
  cases step with
  | work _ acting =>
      cases acting
      cases handling with
      | queued _ waiting =>
          unfold Executor.handleNext
          simp only [waiting]
          rw [same]
          rw [← Executor.failed_reap_requests] at spared
          exact Executor.launched_of_sync quiescent.vacant next current spared

/--
The engine of a file reports a byte and panics; the report comes when the file is no longer queued.
Then the file is queued again behind another one.
-/
def panickedAndReplaced : List Move :=
  [ .add ⟨0, .ofBytes [1, 2]⟩ "a", .tick, .post 0, .work .handle,
    .work (.act 0 (.create (.ok (Response.success ⟨"a", 2⟩)))), .work (.act 0 .check),
    .work (.act 0 (.read (.ok [1]))),
    .work (.act 0 (.chunk 0 "AQ==" (.ok (Response.success ⟨"a", 1, 2⟩)))),
    .work (.act 0 (.report ⟨"a", 1, true, ""⟩)), .discard "a", .work (.panic 0),
    .work (.notice 0), .work (.deliver (.progress ⟨"a", 1, true, ""⟩)),
    .work (.deliver (.failure "executor error: task panicked")),
    .add ⟨1, .ofBytes [3]⟩ "b", .add ⟨0, .ofBytes [1, 2]⟩ "a" ]

/-- Whether nothing is under way. -/
def isQuiescent (scheduler : Scheduler) : Bool :=
  (scheduler.executor.runs.all fun run => decide (run.fate ≠ .running) && run.noticed) &&
    scheduler.executor.requests.isEmpty && scheduler.executor.events.isEmpty

theorem quiescent_of_isQuiescent (quiet : scheduler.isQuiescent = true) : Quiescent scheduler := by
  simp only [isQuiescent, Bool.and_eq_true, List.all_eq_true, decide_eq_true_eq,
    List.isEmpty_iff] at quiet
  exact ⟨quiet.1.1, quiet.1.2, quiet.2⟩

theorem other_file_starts_after_panic :
    ∃ scheduler ready next entry file,
      Trace Step { limit := 10, executor := { hosting := .background, tuning := Config.tuning {} } }
          panickedAndReplaced scheduler ∧
        scheduler.executor.shutDown = false ∧ Quiescent scheduler ∧
        scheduler.queue.snapshot.first? = some entry ∧ entry.path = "b" ∧
        scheduler.executor.reap.failed = some ("a", 0) ∧
        Trace Step scheduler [.tick, .post scheduler.taken.length] ready ∧
        Step ready (.work .handle) next ∧
        next.executor.runs = scheduler.executor.runs ++ [scheduler.executor.runOf entry file] := by
  have made :
      (panickedAndReplaced.foldlM move?
          { limit := 10,
            executor := { hosting := .background, tuning := Config.tuning {} } }).map
        (fun scheduler =>
          (scheduler.executor.shutDown, scheduler.isQuiescent,
            scheduler.queue.snapshot.first?.map (·.path), scheduler.executor.reap.failed)) =
        some (false, true, some "b", some ("a", 0)) := by
    decide
  obtain ⟨scheduler, moved, seen⟩ := Option.map_eq_some_iff.mp made
  simp only [Prod.mk.injEq] at seen
  obtain ⟨up, quiet, chosen, marked⟩ := seen
  obtain ⟨entry, first, path⟩ := Option.map_eq_some_iff.mp chosen
  have run := Trace.of_foldlM Step step_of_move? moved
  have quiescent := quiescent_of_isQuiescent quiet
  obtain ⟨file, _, ⟨ready, next, past, handles, step⟩, _, starts⟩ :=
    quiescent_tick_starts_first run up quiescent first
  have spared : scheduler.executor.reap.failed ≠ some (entry.path, file.identity) := by
    rw [marked, path]
    simp
  have calls : ∀ move ∈ [Move.post scheduler.taken.length], move.isCall = true := by
    intro move member
    rw [List.mem_singleton.mp member]
    rfl
  have started := starts past calls handles step spared
  exact ⟨scheduler, ready, next, entry, file, run, up, quiescent, first, path, marked, past, step,
    started.1⟩

end Scheduler

end ResumableUpload
