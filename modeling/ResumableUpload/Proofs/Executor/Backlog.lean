import ResumableUpload.Proofs.Executor.Effects

/-!
# The snapshots that wait

A background executor lets a few snapshots wait and handles them in the order in which they came.
When there is no room, it is the snapshot just sent that is lost, and not one of the older ones that
wait.  `Passage` says what becomes of a snapshot in a move.  As long as the executor is open, the
snapshots that were let in are those that were handled, followed by those that wait
(`admitted_eq`).  So once nothing waits any more, the last snapshot that was handled is the last one
that was sent if there was room for that; otherwise it is an older one.
-/

namespace ResumableUpload

namespace Executor

/-- What becomes of a snapshot in a move of a background executor. -/
inductive Passage where
  /-- It is sent, and there is room for it or not. -/
  | sent (snapshot : Snapshot) (room : Bool)
  /-- It is handled. -/
  | handled (snapshot : Snapshot)
  /-- The move is about no snapshot. -/
  | unmoved

/-- The snapshots that were sent, and whether there was room for them. -/
def sent (passages : List Passage) : List (Snapshot × Bool) :=
  passages.filterMap fun
    | .sent snapshot room => some (snapshot, room)
    | _ => none

/-- The snapshots that were let in. -/
def admitted (passages : List Passage) : List Snapshot :=
  (sent passages).filterMap fun (snapshot, room) => if room then some snapshot else none

/-- The snapshots that were handled. -/
def handled (passages : List Passage) : List Snapshot :=
  passages.filterMap fun
    | .handled snapshot => some snapshot
    | _ => none

variable {executor start next final : Executor} {move : Move} {moves : List Move}
variable {passage : Passage} {passages : List Passage} {snapshot : Snapshot}

theorem admitted_concat (passages : List Passage) (passage : Passage) :
    admitted (passages ++ [passage]) = admitted passages ++ admitted [passage] := by
  simp only [admitted, sent, List.filterMap_append]

theorem handled_concat (passages : List Passage) (passage : Passage) :
    handled (passages ++ [passage]) = handled passages ++ handled [passage] :=
  List.filterMap_append

/-- If there was room for the last snapshot that was sent, it is the last one that was let in. -/
theorem getLast?_admitted (last : (sent passages).getLast? = some (snapshot, true)) :
    (admitted passages).getLast? = some snapshot := by
  obtain ⟨earlier, sends⟩ := List.getLast?_eq_some_iff.mp last
  rw [admitted, sends, List.filterMap_append]
  exact List.getLast?_concat

/-! ## What a move does -/

/-- Whether a snapshot that is sent may wait. -/
def hasRoom (executor : Executor) : Bool :=
  !executor.closed && executor.requests.length < requestDepth

/-- What becomes of a snapshot if an executor makes a move. -/
def passageOf (executor : Executor) : Move → Passage
  | .send snapshot => .sent snapshot executor.hasRoom
  | .handle =>
    match executor.requests with
    | [] => .unmoved
    | snapshot :: _ => .handled snapshot
  | _ => .unmoved

/-- An executor makes a move that does this to a snapshot. -/
def Passing (executor : Executor) (passage : Passage) (next : Executor) : Prop :=
  ∃ move, Step executor move next ∧ executor.passageOf move = passage

theorem requests_enqueue (executor : Executor) (snapshot : Snapshot) :
    (executor.enqueue snapshot).requests =
      executor.requests ++ if executor.hasRoom then [snapshot] else [] := by
  unfold enqueue hasRoom
  cases executor.closed with
  | true => exact (List.append_nil _).symm
  | false =>
      by_cases room : executor.requests.length < requestDepth
      · simp [room, Nat.not_le_of_lt room]
      · simp [room, Nat.le_of_not_lt room]

/-- In an open executor what waits moves up by what is handled and is extended by what is let in. -/
theorem Passing.requests
    (passing : Passing executor passage next)
    (hosted : executor.hosting = .background)
    (working : next.closed = false) :
    executor.requests ++ admitted [passage] = handled [passage] ++ next.requests := by
  obtain ⟨move, step, rfl⟩ := passing
  obtain ⟨_, requests, closed⟩ := step.frame
  rw [requests]
  cases move with
  | send snapshot =>
      simp only [waitingAfter, hosted, requests_enqueue]
      cases room : executor.hasRoom <;> simp [passageOf, admitted, sent, handled, room]
  | handle =>
      cases waiting : executor.requests with
      | nil => simp [passageOf, waitingAfter, waiting, admitted, sent, handled]
      | cons => simp [passageOf, waitingAfter, waiting, admitted, sent, handled]
  | close => cases closed.symm.trans working
  | act | panic | finish | notice | deliver | shutDown =>
      exact List.append_nil _

/-- Never do more snapshots wait than there is room for. -/
theorem Passing.length_requests
    (passing : Passing executor passage next)
    (few : executor.requests.length ≤ requestDepth) :
    next.requests.length ≤ requestDepth := by
  obtain ⟨move, step, _⟩ := passing
  rw [step.frame.2.1]
  cases move with
  | send snapshot =>
      simp only [waitingAfter]
      split
      case h_1 =>
          rw [requests_enqueue]
          cases room : executor.hasRoom with
          | false => simpa using few
          | true =>
              simp only [hasRoom, Bool.and_eq_true, decide_eq_true_eq] at room
              rw [if_pos rfl, List.length_append]
              exact room.2
      case h_2 => exact few
  | handle => exact Nat.le_trans (by simp [waitingAfter]) few
  | close => exact Nat.zero_le _
  | act | panic | finish | notice | deliver | shutDown => exact few

/-- If an open executor loses a snapshot, as many wait as may, and all of them stay. -/
theorem Passing.full
    (passing : Passing executor (.sent snapshot false) next)
    (hosted : executor.hosting = .background)
    (few : executor.requests.length ≤ requestDepth)
    (working : executor.closed = false) :
    executor.requests.length = requestDepth ∧ next.requests = executor.requests := by
  obtain ⟨move, step, seen⟩ := passing
  cases move with
  | send sent =>
      simp only [passageOf, Passage.sent.injEq] at seen
      obtain ⟨rfl, room⟩ := seen
      have full : ¬ executor.requests.length < requestDepth := by
        simpa [hasRoom, working] using room
      refine ⟨Nat.le_antisymm few (Nat.le_of_not_lt full), ?_⟩
      rw [step.frame.2.1]
      simp [waitingAfter, hosted, requests_enqueue, room]
  | handle =>
      simp only [passageOf] at seen
      split at seen <;> cases seen
  | act | panic | finish | notice | deliver | shutDown | close => cases seen

/-! ## What a run does -/

/-- Of every run one can tell what becomes of the snapshots. -/
theorem exists_passages (run : Trace Step start moves final) :
    ∃ passages, Trace Passing start passages final :=
  run.relabel fun step => ⟨_, _, step, rfl⟩

theorem hosting_of_passages (run : Trace Passing start passages final) :
    final.hosting = start.hosting := by
  obtain ⟨_, steps⟩ := run.relabel fun ⟨move, step, _⟩ => ⟨move, step⟩
  exact hosting_of_steps steps

/-- While an executor is open, what was let in is what was handled, and then what waits. -/
theorem admitted_eq
    {tuning : Tuning}
    (run : Trace Passing { hosting := .background, tuning := tuning } passages final)
    (working : final.closed = false) :
    admitted passages = handled passages ++ final.requests := by
  induction run with
  | refl => rfl
  | @snoc passages middle final passage past last earlier =>
      have still : middle.closed = false := by
        obtain ⟨_, step, _⟩ := last
        cases closed : middle.closed with
        | false => rfl
        | true => cases working.symm.trans (step.still_closed closed)
      have moved := last.requests (hosting_of_passages past) working
      rw [admitted_concat, handled_concat, earlier still, List.append_assoc, moved,
        List.append_assoc]

theorem length_requests_of_passages
    {tuning : Tuning}
    (run : Trace Passing { hosting := .background, tuning := tuning } passages final) :
    final.requests.length ≤ requestDepth :=
  run.invariant (Nat.zero_le _) fun few passing => passing.length_requests few

/-- What becomes of the snapshots if an executor makes some moves one after the other. -/
def passagesOf (executor : Executor) : List Move → List Passage
  | [] => []
  | move :: rest =>
    executor.passageOf move ::
      match executor.move? move with
      | some next => next.passagesOf rest
      | none => []

theorem trace_passagesOf (computed : moves.foldlM move? start = some final) :
    Trace Passing start (start.passagesOf moves) final := by
  induction moves generalizing start with
  | nil =>
      cases computed
      exact .refl
  | cons move rest continued =>
      rw [List.foldlM_cons] at computed
      obtain ⟨next, made, remaining⟩ := Option.bind_eq_some_iff.mp computed
      have first : Passing start (start.passageOf move) next := ⟨move, step_of_move? made, rfl⟩
      simp only [passagesOf, made]
      exact (Trace.snoc .refl first).append (continued remaining)

/--
A background executor that is open handles the snapshots that it let in, in the order in which they
were sent.  So if none waits any more and there was room for the last one that was sent, it is the
last one that was handled.  But one that is sent while as many wait as may is lost, and all that wait
stay.
-/
theorem backlog_keeps_order
    {tuning : Tuning}
    (run : Trace Passing { hosting := .background, tuning := tuning } passages final)
    (working : final.closed = false) :
    admitted passages = handled passages ++ final.requests ∧
      (final.requests = [] →
        ∀ snapshot : Snapshot,
          (sent passages).getLast? = some (snapshot, true) →
            (handled passages).getLast? = some snapshot) ∧
      ∀ (snapshot : Snapshot) (next : Executor),
        Passing final (.sent snapshot false) next →
          final.requests.length = requestDepth ∧ next.requests = final.requests := by
  have order := admitted_eq run working
  refine ⟨order, ?_, ?_⟩
  · intro drained snapshot last
    rw [drained, List.append_nil] at order
    exact order ▸ getLast?_admitted last
  · intro snapshot next lost
    exact lost.full (hosting_of_passages run) (length_requests_of_passages run) working

/-- A snapshot of an empty queue. -/
def idle : Snapshot :=
  ⟨[], 0⟩

/-- A snapshot of a queue to which a file was added. -/
def occupied : Snapshot :=
  ⟨[.ofFile ⟨0, .ofBytes [1]⟩ "a"], 0⟩

/-- A file is added after four snapshots were sent, and before any of them is handled. -/
def overflowing : List Move :=
  List.replicate 4 (.send idle) ++ .send occupied :: List.replicate 4 .handle

/-- A further snapshot is sent once these have been handled. -/
def resending : List Move :=
  overflowing ++ [.send occupied, .handle]

/-- A snapshot that is sent again is handled, although it was lost the first time. -/
theorem resent_snapshot_is_handled :
    ∃ passages final snapshot,
      Trace Passing { hosting := .background, tuning := Config.tuning {} } passages final ∧
        final.closed = false ∧ final.requests = [] ∧
        (sent passages).map Prod.snd = [true, true, true, true, false, true] ∧
        (handled passages).getLast? = some snapshot ∧ snapshot.next?.isSome = true := by
  let start : Executor := { hosting := .background, tuning := Config.tuning {} }
  have seen :
      (resending.foldlM move? start).map
          (fun final => (final.closed, final.requests.isEmpty)) =
        some (false, true) := by
    decide
  have rooms :
      (sent (start.passagesOf resending)).map Prod.snd = [true, true, true, true, false, true] := by
    decide
  have last :
      (sent (start.passagesOf resending)).getLast?.map
          (fun (snapshot, room) => (snapshot.next?.isSome, room)) =
        some (true, true) := by
    decide
  obtain ⟨final, made, after⟩ := Option.map_eq_some_iff.mp seen
  obtain ⟨⟨snapshot, room⟩, sends, eligible⟩ := Option.map_eq_some_iff.mp last
  simp only [Prod.mk.injEq, List.isEmpty_iff] at after eligible
  obtain ⟨working, drained⟩ := after
  obtain ⟨first, rfl⟩ := eligible
  have run := trace_passagesOf made
  obtain ⟨_, newest, _⟩ := backlog_keeps_order run working
  exact ⟨_, final, snapshot, run, working, drained, rooms, newest drained snapshot sends, first⟩

/-- Nobody shuts the executor down and nothing waits any more, but what was sent last is lost. -/
theorem newest_snapshot_is_lost :
    ∃ passages final,
      Trace Passing { hosting := .background, tuning := Config.tuning {} } passages final ∧
        final.shutDown = false ∧ final.closed = false ∧ final.requests = [] ∧
        (handled passages).getLast? ≠ (sent passages).getLast?.map Prod.fst := by
  let start : Executor := { hosting := .background, tuning := Config.tuning {} }
  have seen :
      (overflowing.foldlM move? start).map
          (fun final => (final.shutDown, final.closed, final.requests.isEmpty)) =
        some (false, false, true) := by
    decide
  have differs :
      (handled (start.passagesOf overflowing)).getLast?.map (·.next?.isSome) ≠
        ((sent (start.passagesOf overflowing)).getLast?.map Prod.fst).map (·.next?.isSome) := by
    decide
  obtain ⟨final, made, after⟩ := Option.map_eq_some_iff.mp seen
  simp only [Prod.mk.injEq, List.isEmpty_iff] at after
  exact ⟨_, final, trace_passagesOf made, after.1, after.2.1, after.2.2,
    fun same => differs (congrArg _ same)⟩

end Executor

end ResumableUpload
