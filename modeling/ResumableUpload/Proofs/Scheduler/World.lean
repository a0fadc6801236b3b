import ResumableUpload.Proofs.Scheduler.Accounting
import ResumableUpload.Proofs.Transfer.Integrity

/-!
# A scheduler with its endpoint

In a `World` the engines of a scheduler are served by an endpoint that no other client uses.  The
network may lose calls and answers, and reads may fail, as for a single transfer.
-/

namespace ResumableUpload

/-- A scheduler with the endpoint that serves its engines. -/
structure World where
  scheduler : Scheduler
  endpoint : Endpoint

namespace World

/-- A scheduler without entries and an endpoint without uploads. -/
def empty (limit : Nat) (hosting : Hosting) (tuning : Tuning) : World where
  scheduler := { limit := limit, executor := { hosting := hosting, tuning := tuning } }
  endpoint := {}

/-- The endpoint after a move of the executor: only what engines do concerns it. -/
inductive Answers (executor : Executor) (endpoint : Endpoint) : Executor.Move → Endpoint → Prop where
  | act {index : Nat} {engine : Engine} {act : Engine.Act} {next : Endpoint}
      (found : executor.engine? index = some engine)
      (served : Transfer.Served engine endpoint act next) :
      Answers executor endpoint (.act index act) next
  | idle {move : Executor.Move}
      (still : move.isAct = false) :
      Answers executor endpoint move endpoint

/-- The steps of a scheduler whose engines are served by the endpoint. -/
inductive Step : World → Scheduler.Move → World → Prop where
  | work {world : World} {move : Executor.Move} {scheduler : Scheduler} {endpoint : Endpoint}
      (step : Scheduler.Step world.scheduler (.work move) scheduler)
      (answers : Answers world.scheduler.executor world.endpoint move endpoint) :
      Step world (.work move) ⟨scheduler, endpoint⟩
  | call {world : World} {move : Scheduler.Move} {scheduler : Scheduler}
      (others : ∀ {work : Executor.Move}, move ≠ .work work)
      (step : Scheduler.Step world.scheduler move scheduler) :
      Step world move ⟨scheduler, world.endpoint⟩

/-- What an observer asks of a world: a move, or that an engine goes on and its call is answered. -/
inductive Cue where
  | move (move : Scheduler.Move)
  | go (index : Nat)

/-- Whether an engine does something in a move. -/
def isAct : Scheduler.Move → Bool
  | .work move => move.isAct
  | _ => false

/-- The world after a cue, if that can be followed. -/
def follow? (world : World) : Cue → Option World
  | .go index =>
    (world.scheduler.executor.engine? index).bind fun engine =>
      (Transfer.serve? engine world.endpoint).bind fun (act, endpoint) =>
        (world.scheduler.move? (.work (.act index act))).map fun scheduler =>
          ⟨scheduler, endpoint⟩
  | .move move =>
    if isAct move then none
    else (world.scheduler.move? move).map fun scheduler => ⟨scheduler, world.endpoint⟩

theorem step_of_follow?_move
    {world next : World}
    {move : Scheduler.Move}
    (followed : world.follow? (.move move) = some next) :
    Step world move next := by
  simp only [follow?] at followed
  split at followed
  case isTrue => cases followed
  case isFalse others =>
      obtain ⟨scheduler, moved, rfl⟩ := Option.map_eq_some_iff.mp followed
      have step := Scheduler.step_of_move? moved
      cases move with
      | work work => exact .work step (.idle (Bool.eq_false_iff.mpr others))
      | add | stop | discard | restore | tick | post => exact .call (by rintro _ ⟨⟩) step

theorem step_of_follow?_go
    {world next : World}
    {index : Nat}
    (followed : world.follow? (.go index) = some next) :
    ∃ act, Step world (.work (.act index act)) next := by
  obtain ⟨engine, found, going⟩ := Option.bind_eq_some_iff.mp followed
  obtain ⟨⟨act, endpoint⟩, served, stepped⟩ := Option.bind_eq_some_iff.mp going
  obtain ⟨scheduler, moved, rfl⟩ := Option.map_eq_some_iff.mp stepped
  refine ⟨act, .work (Scheduler.step_of_move? moved) ?_⟩
  exact .act found (Transfer.served_of_serve? served)

theorem step_of_follow?
    {world next : World}
    {cue : Cue}
    (followed : world.follow? cue = some next) :
    ∃ move, Step world move next := by
  cases cue with
  | move move => exact ⟨move, step_of_follow?_move followed⟩
  | go index =>
      obtain ⟨act, step⟩ := step_of_follow?_go followed
      exact ⟨_, step⟩

/-- The world after a cue other than that a file is added. -/
def proceed? (world : World) : Cue → Option World
  | .move (.add _ _) => none
  | cue => world.follow? cue

theorem step_of_proceed?
    {world next : World}
    {cue : Cue}
    (proceeded : world.proceed? cue = some next) :
    ∃ move, Step world move next ∧ ∀ {file : FileHandle} {path : String}, move ≠ .add file path := by
  cases cue with
  | go index =>
      obtain ⟨act, step⟩ := step_of_follow?_go proceeded
      exact ⟨_, step, nofun⟩
  | move move =>
      cases move with
      | add => cases proceeded
      | stop path => exact ⟨.stop path, step_of_follow?_move proceeded, nofun⟩
      | discard path => exact ⟨.discard path, step_of_follow?_move proceeded, nofun⟩
      | restore infos => exact ⟨.restore infos, step_of_follow?_move proceeded, nofun⟩
      | tick => exact ⟨.tick, step_of_follow?_move proceeded, nofun⟩
      | post position => exact ⟨.post position, step_of_follow?_move proceeded, nofun⟩
      | work work => exact ⟨.work work, step_of_follow?_move proceeded, nofun⟩

/-! ## Moves of the executor -/

theorem Step.cases
    {world next : World}
    {move : Scheduler.Move}
    (step : Step world move next) :
    Scheduler.Step world.scheduler move next.scheduler := by
  cases step with
  | work step => exact step
  | call _ step => exact step

theorem Answers.unscripted
    {executor : Executor}
    {endpoint next : Endpoint}
    {move : Executor.Move}
    (answers : Answers executor endpoint move next)
    (unscripted : endpoint.Unscripted) :
    next.Unscripted := by
  cases answers with
  | act _ served => exact served.unscripted unscripted
  | idle => exact unscripted

theorem Answers.served
    {executor : Executor}
    {endpoint next : Endpoint}
    {index : Nat}
    {act : Engine.Act}
    {engine : Engine}
    (answers : Answers executor endpoint (.act index act) next)
    (found : executor.engine? index = some engine) :
    Transfer.Served engine endpoint act next := by
  cases answers with
  | act same served =>
      cases same.symm.trans found
      exact served
  | idle still => cases still

theorem Answers.endpoint_eq
    {executor : Executor}
    {endpoint next : Endpoint}
    {move : Executor.Move}
    (answers : Answers executor endpoint move next)
    (still : move.isAct = false) :
    next = endpoint := by
  cases answers with
  | act => cases still
  | idle => rfl

end World

end ResumableUpload
