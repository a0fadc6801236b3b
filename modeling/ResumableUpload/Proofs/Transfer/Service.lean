import ResumableUpload.Proofs.Transfer.Steps

/-!
# Transfers against any endpoint

A `Service` answers the calls of an engine from a state of its own, whatever that is, so an answer may
depend on every call before it.  A `Course` is an engine with the endpoint that serves it; reads bring
what the file holds, and no answer gets lost.  Then nothing is left to chance: a transfer that comes
to its end can do so in one way only (`Course.eq_of_ended`).
-/

namespace ResumableUpload

/-- A call of an endpoint, with all that it is given. -/
inductive Call where
  | create (path : String) (size : Nat)
  | chunk (path content : String) (offset : Nat)
  | status (path : String)
deriving DecidableEq, Repr

/-- The state of an endpoint, with the calls that it has answered. -/
structure Remote (State : Type) where
  state : State
  calls : List Call := []

/-- An endpoint of any kind. -/
structure Service (State : Type) where
  create : State → (path : String) → (size : Nat) → State × Answer CreateReply
  chunk : State → (path content : String) → (offset : Nat) → State × Answer StatusReply
  status : State → (path : String) → State × Answer StatusReply

namespace Service

variable {State : Type}

/-- What an engine does next, with the endpoint after it. -/
def next? (service : Service State) (engine : Engine) (remote : Remote State) :
    Option (Engine.Act × Remote State) :=
  match engine.phase with
  | .creating _ =>
    let (state, answer) := service.create remote.state engine.path engine.size
    some (.create answer, ⟨state, remote.calls ++ [.create engine.path engine.size]⟩)
  | .reading => some (.read (engine.file.source.read engine.offset engine.chunkLast), remote)
  | .sending content =>
    let (state, answer) := service.chunk remote.state engine.path content engine.offset
    some (.chunk engine.offset content answer,
      ⟨state, remote.calls ++ [.chunk engine.path content engine.offset]⟩)
  | .resyncing =>
    let (state, answer) := service.status remote.state engine.path
    some (.status answer, ⟨state, remote.calls ++ [.status engine.path]⟩)
  | .checking => some (.check, remote)
  | .pausingCreate _ | .backingOff => some (.wait, remote)
  | .accepted | .refused _ | .concluding _ =>
    engine.report?.map fun report => (.report report, remote)
  | .idle | .ended _ => none

/-- The endpoint that keeps uploads in memory. -/
def ofEndpoint : Service Endpoint where
  create := Endpoint.create
  chunk := Endpoint.chunk
  status := Endpoint.status

/-- It serves an engine as a network does that loses nothing. -/
theorem next?_ofEndpoint
    (engine : Engine)
    (remote : Remote Endpoint) :
    (ofEndpoint.next? engine remote).map (fun (act, after) => (act, after.state)) =
      Transfer.serve? engine remote.state := by
  unfold next? Transfer.serve?
  cases engine.phase with
  | accepted | refused | concluding => rw [Option.map_map]; rfl
  | _ => rfl

end Service

/-- An engine with the endpoint that serves it. -/
structure Course (State : Type) where
  engine : Engine
  remote : Remote State

namespace Course

variable {State : Type} {service : Service State}

/-- The steps of a transfer in which every call is answered. -/
inductive Step (service : Service State) (course : Course State) :
    Engine.Act → Course State → Prop where
  | intro {act : Engine.Act} {engine : Engine} {remote : Remote State}
      (served : service.next? course.engine course.remote = some (act, remote))
      (step : Engine.Step course.engine act engine) :
      Step service course act ⟨engine, remote⟩

theorem Step.unique
    {course first second : Course State}
    {act also : Engine.Act}
    (step : Step service course act first)
    (twin : Step service course also second) :
    act = also ∧ first = second := by
  obtain ⟨served, stepped⟩ := step
  obtain ⟨answered, moved⟩ := twin
  cases served.symm.trans answered
  cases stepped.next_eq moved
  exact ⟨rfl, rfl⟩

/-- A transfer has only one way to its end. -/
theorem eq_of_ended
    {course first second : Course State}
    {acts others : List Engine.Act}
    (run : Trace (Step service) course acts first)
    (twin : Trace (Step service) course others second)
    (ended : first.engine.hasEnded = true)
    (also : second.engine.hasEnded = true) :
    acts = others ∧ first = second := by
  refine run.eq_of_stuck (fun step twin => step.unique twin) twin ?_ ?_
  · rintro _ _ ⟨_, step⟩
    cases ended.symm.trans step.not_ended
  · rintro _ _ ⟨_, step⟩
    cases also.symm.trans step.not_ended

end Course

end ResumableUpload
