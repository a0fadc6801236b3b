import ResumableUpload.Proofs.Executor.Flight
import ResumableUpload.Proofs.Queue.Entries
import ResumableUpload.Proofs.Scheduler.Moves
import ResumableUpload.Proofs.Transfer.Service

/-!
# Clients

A `Client` is a scheduler with the endpoint that its engines call, of whatever kind that is, and the
callback that it notifies.  The caller makes one call at a time and lets everything come to rest before
the next one; in between the tasks of the executor go on in any order (`Client.Step`).  What can be
seen of it from outside is the `View`: the queue, the endpoint with the calls that it has answered, and
what the callback was given.  A `Record` is one call with the view that it has led to.

No engine panics, nobody shuts the executor down, and the callback does not call back.
-/

namespace ResumableUpload

variable {State : Type}

/-- The queue that the status callback is given for a report; a path that is not queued has none. -/
def Queue.notice? (queue : Queue) (report : Report) : Option (List Entry) :=
  (queue.find? report.path).map fun _ => (queue.reconcile report).entries

/-- A scheduler with the endpoint that its engines call. -/
structure Client (State : Type) where
  scheduler : Scheduler
  remote : Remote State
  /-- What the status callback was given, in order. -/
  told : List (List Entry) := []

namespace Client

/-- A client with nothing queued. -/
def new (config : Config) (hosting : Hosting) (state : State) : Client State where
  scheduler :=
    { limit := config.maxQueued, executor := { hosting := hosting, tuning := config.tuning } }
  remote := { state := state }

/-- What can be seen of a client from outside. -/
structure View (State : Type) where
  queue : Queue
  remote : Remote State
  told : List (List Entry)

/-- What can be seen of a client. -/
def view (client : Client State) : View State :=
  ⟨client.scheduler.queue, client.remote, client.told⟩

/-- The endpoint after a move of the executor, which only an engine that calls it changes. -/
def Serves (service : Service State) (client : Client State) (remote : Remote State) :
    Executor.Move → Prop
  | .act run act =>
    ∃ engine,
      client.scheduler.executor.engine? run = some engine ∧
        service.next? engine client.remote = some (act, remote)
  | _ => remote = client.remote

/-- What the callback was given once the report of a move was applied. -/
def toldAfter (client : Client State) (move : Executor.Move) : List (List Entry) :=
  let heard := move.report? client.scheduler.executor.hosting
  client.told ++ (heard.bind client.scheduler.queue.notice?).toList

theorem isWork_of_isTask
    {move : Executor.Move}
    (task : move.isTask = true) :
    Scheduler.isWork move = true := by
  cases move with
  | send => cases task
  | _ => rfl

/-- One move of a task of the executor. -/
inductive Step (service : Service State) (client : Client State) :
    Executor.Move → Client State → Prop where
  | intro {move : Executor.Move} {scheduler : Scheduler} {remote : Remote State}
      (task : move.isTask = true)
      (served : client.Serves service remote move)
      (step : Scheduler.Step client.scheduler (.work move) scheduler) :
      Step service client move ⟨scheduler, remote, client.toldAfter move⟩

theorem trace_of_steps
    {service : Service State}
    {client final : Client State}
    {moves : List Executor.Move}
    (run : Trace (Step service) client moves final) :
    ∃ moves, Trace Scheduler.Step client.scheduler moves final.scheduler := by
  induction run with
  | refl => exact ⟨[], .refl⟩
  | snoc _ last before =>
      obtain ⟨earlier, past⟩ := before
      obtain ⟨_, _, step⟩ := last
      exact ⟨_, past.snoc step⟩

/-- Who goes on; what an engine does is for itself and the endpoint to say. -/
inductive Turn where
  | engine (run : Nat)
  | other (move : Executor.Move)

/-- The client after a turn, if there is one to take. -/
def turn? (service : Service State) (client : Client State) : Turn → Option (Client State)
  | .engine run =>
    (client.scheduler.executor.engine? run).bind fun engine =>
      (service.next? engine client.remote).bind fun (act, remote) =>
        (client.scheduler.move? (.work (.act run act))).map fun scheduler =>
          ⟨scheduler, remote, client.toldAfter (.act run act)⟩
  | .other move =>
    if move.isTask = true ∧ move.isAct = false then
      (client.scheduler.move? (.work move)).map fun scheduler =>
        ⟨scheduler, client.remote, client.toldAfter move⟩
    else none

theorem step_of_turn?
    {service : Service State}
    {client next : Client State}
    {turn : Turn}
    (taken : client.turn? service turn = some next) :
    ∃ move, Step service client move next := by
  cases turn with
  | engine run =>
      obtain ⟨engine, found, answered⟩ := Option.bind_eq_some_iff.mp taken
      obtain ⟨⟨act, remote⟩, served, moved⟩ := Option.bind_eq_some_iff.mp answered
      obtain ⟨scheduler, made, rfl⟩ := Option.map_eq_some_iff.mp moved
      exact ⟨_, .intro rfl ⟨engine, found, served⟩ (Scheduler.step_of_move? made)⟩
  | other move =>
      simp only [turn?] at taken
      split at taken
      case isTrue able =>
          obtain ⟨task, still⟩ := able
          obtain ⟨scheduler, made, rfl⟩ := Option.map_eq_some_iff.mp taken
          have served : client.Serves service client.remote move := by
            cases move with
            | act => cases still
            | _ => rfl
          exact ⟨move, .intro task served (Scheduler.step_of_move? made)⟩
      case isFalse => cases taken

/-- A call of the caller. -/
inductive Operation where
  | add (file : FileHandle) (path : String)
  | stop (path : String)
  | discard (path : String)
  | restore (infos : List PartialInfo)
  | tick

/-- The queue after a call; one that is refused changes nothing. -/
def Operation.change (limit : Nat) (queue : Queue) : Operation → Queue
  | .add file path =>
    match queue.add limit file path with
    | .ok changed => changed
    | .error _ => queue
  | .stop path =>
    match queue.stop? path with
    | some changed => changed
    | none => queue
  | .discard path =>
    match queue.delete? path with
    | some changed => changed
    | none => queue
  | .restore infos => (queue.restore limit infos).1
  | .tick => queue

/-- The executor after a call; a tick sends it a snapshot of the queue. -/
def Operation.post (executor : Executor) (queue : Queue) : Operation → Executor
  | .tick => executor.receive queue.snapshot
  | _ => executor

/-- The client right after a call, before any task has gone on. -/
def call (client : Client State) (operation : Operation) : Client State :=
  let scheduler := client.scheduler
  { client with
    scheduler := { scheduler with
      executor := operation.post scheduler.executor scheduler.queue
      queue := operation.change scheduler.limit scheduler.queue } }

/-- To the scheduler a call is one move, none if it is refused, and two if it is a tick. -/
theorem trace_call
    (client : Client State)
    (operation : Operation) :
    ∃ moves, Trace Scheduler.Step client.scheduler moves (client.call operation).scheduler := by
  cases operation with
  | add file path =>
      unfold call Operation.change
      dsimp only
      split
      case h_1 added => exact ⟨_, .snoc .refl (.add added)⟩
      case h_2 => exact ⟨[], .refl⟩
  | stop path =>
      unfold call Operation.change
      dsimp only
      split
      case h_1 stopped => exact ⟨_, .snoc .refl (.stop stopped)⟩
      case h_2 => exact ⟨[], .refl⟩
  | discard path =>
      unfold call Operation.change
      dsimp only
      split
      case h_1 deleted => exact ⟨_, .snoc .refl (.discard deleted)⟩
      case h_2 => exact ⟨[], .refl⟩
  | restore infos => exact ⟨_, .snoc .refl (.restore infos)⟩
  | tick =>
      have posted := (Trace.snoc .refl (@Scheduler.Step.tick client.scheduler)).snoc
        (.post List.getElem?_concat_length)
      rw [List.eraseIdx_append_of_length_le (Nat.le_refl _), Nat.sub_self] at posted
      simp only [List.eraseIdx_cons_zero, List.append_nil] at posted
      exact ⟨_, posted⟩

/-- A call, with what could be seen once everything had come to rest. -/
structure Record (State : Type) where
  operation : Operation
  after : View State

/-- The client makes a call and comes to rest. -/
inductive Performs (service : Service State) (client : Client State) :
    Record State → Client State → Prop where
  | intro {operation : Operation} {moves : List Executor.Move} {final : Client State}
      (run : Trace (Step service) (client.call operation) moves final)
      (rest : final.scheduler.executor.AtRest) :
      Performs service client ⟨operation, final.view⟩ final

/-- The life of a client is a run of its scheduler. -/
theorem trace_of_performs
    {service : Service State}
    {client final : Client State}
    {records : List (Record State)}
    (life : Trace (Performs service) client records final) :
    ∃ moves, Trace Scheduler.Step client.scheduler moves final.scheduler := by
  induction life with
  | refl => exact ⟨[], .refl⟩
  | @snoc _ middle _ _ _ last before =>
      obtain ⟨earlier, past⟩ := before
      obtain ⟨run, _⟩ := last
      obtain ⟨calls, called⟩ := middle.trace_call _
      obtain ⟨further, went⟩ := trace_of_steps run
      exact ⟨_, (past.append called).append went⟩

/-- A call after which everybody takes these turns and comes to rest. -/
theorem performs_of_turns
    {service : Service State}
    {client final : Client State}
    (operation : Operation)
    (turns : List Turn)
    (taken : turns.foldlM (turn? service) (client.call operation) = some final)
    (rest : final.scheduler.executor.AtRest) :
    Performs service client ⟨operation, final.view⟩ final := by
  let Takes (client : Client State) (turn : Turn) (next : Client State) :=
    client.turn? service turn = some next
  have run : Trace Takes (client.call operation) turns final :=
    Trace.of_foldlM Takes (fun took => took) taken
  obtain ⟨moves, stepped⟩ := run.relabel step_of_turn?
  exact .intro stepped rest

/-! ## What is seen of a move -/

/-- Applies reports; the callback is given the queue after each. -/
def View.hear (view : View State) (reports : List Report) : View State :=
  reports.foldl
    (fun view report =>
      { view with
        queue := view.queue.reconcile report
        told := view.told ++ (view.queue.notice? report).toList })
    view

theorem View.hear_append
    (view : View State)
    (earlier later : List Report) :
    view.hear (earlier ++ later) = (view.hear earlier).hear later :=
  List.foldl_append

/-- The endpoint has no part in what is heard of an engine. -/
theorem View.hear_remote
    (view : View State)
    (remote : Remote State)
    (reports : List Report) :
    hear { view with remote := remote } reports = { view.hear reports with remote := remote } := by
  induction reports generalizing view with
  | nil => rfl
  | cons report rest same => exact same (view.hear [report])

theorem View.reportsSeen_hear
    (view : View State)
    (reports : List Report) :
    (view.hear reports).queue.reportsSeen = view.queue.reportsSeen + reports.length := by
  induction reports generalizing view with
  | nil => rfl
  | cons report rest counted =>
      have first : (view.hear [report]).queue.reportsSeen = view.queue.reportsSeen + 1 :=
        Queue.reportsSeen_reconcile view.queue report
      have later := counted (view.hear [report])
      rw [first] at later
      rw [List.length_cons, Nat.add_comm rest.length 1, ← Nat.add_assoc]
      exact later

theorem Step.view_eq
    {service : Service State}
    {client next : Client State}
    {move : Executor.Move}
    (step : Step service client move next) :
    next.view =
      { client.view.hear (move.report? client.scheduler.executor.hosting).toList with
        remote := next.remote } := by
  obtain ⟨_, _, ⟨⟩⟩ := step
  unfold view toldAfter
  cases move.report? client.scheduler.executor.hosting with
  | none => simp [View.hear, Scheduler.hear]
  | some report => simp [View.hear, Scheduler.hear]

theorem Step.limit_eq
    {service : Service State}
    {client next : Client State}
    {move : Executor.Move}
    (step : Step service client move next) :
    next.scheduler.limit = client.scheduler.limit := by
  obtain ⟨_, _, ⟨⟩⟩ := step
  rfl

end Client

end ResumableUpload
