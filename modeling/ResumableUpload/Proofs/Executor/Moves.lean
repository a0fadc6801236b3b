import ResumableUpload.Executor
import ResumableUpload.Proofs.Engine.Steps
import ResumableUpload.Proofs.Trace

/-!
# Moves of an executor

An executor is driven from all sides: snapshots are sent to it, its worker handles those that wait,
its engines go on, panic or return, supervisors notice their ends, events are delivered, and it is
shut down.  `Executor.Step` lets these moves happen in any order.  Each is one atomic move: what
the program does between two of its locks, awaits or channel operations that another actor could
observe.

An engine that returned and the release of its inline slot are one move, since an ended engine that
still holds the slot differs in nothing from one that has yet to return.
-/

namespace ResumableUpload

namespace Executor

/-- One move of an executor or of what it runs. -/
inductive Move where
  /-- A snapshot is sent. -/
  | send (snapshot : Snapshot)
  /-- The background worker handles the oldest waiting snapshot. -/
  | handle
  /-- An engine does something. -/
  | act (run : Nat) (act : Engine.Act)
  /-- An engine panics. -/
  | panic (run : Nat)
  /-- An engine that made its final report returns. -/
  | finish (run : Nat)
  /-- The supervisor of an engine notices its end. -/
  | notice (run : Nat)
  /-- The oldest waiting event is delivered. -/
  | deliver (event : ExecutorEvent)
  /-- The executor is told to shut down. -/
  | shutDown
  /-- The background worker ends. -/
  | close

/-- The run whose engine calls the endpoint in a move. -/
def Move.caller? : Move → Option Nat
  | .act run call => if call.isCall then some run else none
  | _ => none

/-- Whether an engine does something in a move. -/
def Move.isAct : Move → Bool
  | .act _ _ => true
  | _ => false

/-- The report that a move brings to the listener; an inline executor delivers it as it is made. -/
def Move.report? (hosting : Hosting) : Move → Option Report
  | .deliver (.progress report) => some report
  | .act _ (.report report) =>
    match hosting with
    | .inline => some report
    | .background => none
  | _ => none

/-- The report that an engine makes in a move. -/
def Move.made? : Move → Option Report
  | .act _ (.report report) => some report
  | _ => none

/-- If an act brings a report at once, it is the one that it makes. -/
theorem Move.report?_report
    {index : Nat}
    {hosting : Hosting}
    {made heard : Report}
    (brought : (Move.act index (.report made)).report? hosting = some heard) :
    heard = made := by
  cases hosting <;> cases brought
  rfl

theorem Move.made?_act (index : Nat) (act : Engine.Act) :
    (Move.act index act).made? = act.report? := by
  cases act <;> rfl

theorem Move.report?_act_background (index : Nat) (act : Engine.Act) :
    (Move.act index act).report? .background = none := by
  cases act <;> rfl

theorem Move.report?_act_inline (index : Nat) (act : Engine.Act) :
    (Move.act index act).report? .inline = act.report? := by
  cases act <;> rfl

/-- The executor after a snapshot was sent: it waits, or is handled at once. -/
def receive (executor : Executor) (snapshot : Snapshot) : Executor :=
  match executor.hosting with
  | .background => executor.enqueue snapshot
  | .inline => (executor.sync snapshot).1

/-- The executor after an act of an engine, which only counts if it is a report. -/
def hear (executor : Executor) : Engine.Act → Executor
  | .report report => executor.emit report
  | _ => executor

/-- The executor after an engine returned; an inline one frees the slot. -/
def conclude (executor : Executor) (run : Nat) (path : String) : Executor :=
  match executor.hosting with
  | .background => executor.settle run .returned
  | .inline => (executor.settle run .returned).release path

theorem emit_eq
    (executor : Executor)
    (report : Report) :
    executor.emit report =
      { executor with
        emitted := executor.emitted + 1
        events :=
          match executor.hosting with
          | .background => executor.events ++ [.progress report]
          | .inline => executor.events } := by
  obtain ⟨hosting⟩ := executor
  cases hosting <;> rfl

/-- A snapshot that begins to wait changes nothing else. -/
theorem enqueue_frame
    (executor : Executor)
    (snapshot : Snapshot) :
    ∃ requests, executor.enqueue snapshot = { executor with requests := requests } := by
  unfold enqueue
  split
  · exact ⟨executor.requests, rfl⟩
  · exact ⟨_, rfl⟩

theorem receive_of_background
    {executor : Executor}
    (hosted : executor.hosting = .background)
    (snapshot : Snapshot) :
    executor.receive snapshot = executor.enqueue snapshot := by
  unfold receive
  rw [hosted]

/-- An open background executor lets a snapshot wait while no other does. -/
theorem receive_of_idle
    {executor : Executor}
    (hosted : executor.hosting = .background)
    (working : executor.closed = false)
    (handled : executor.requests = [])
    (snapshot : Snapshot) :
    executor.receive snapshot = { executor with requests := [snapshot] } := by
  rw [receive_of_background hosted]
  unfold enqueue
  simp only [working, handled]
  rfl

/-- An act that is heard of changes only the count of reports and what waits for delivery. -/
theorem hear_frame
    (executor : Executor)
    (act : Engine.Act) :
    ∃ emitted events,
      executor.hear act = { executor with emitted := emitted, events := events } := by
  unfold hear
  split
  case h_1 => exact ⟨_, _, emit_eq executor _⟩
  case h_2 => exact ⟨_, _, rfl⟩

/-- To free the slot of an inline engine is all that is done. -/
theorem release_frame (executor : Executor) (path : String) :
    ∃ holder, executor.release path = { executor with holder := holder } := by
  unfold release
  split
  case h_1 => split <;> exact ⟨_, rfl⟩
  case h_2 => exact ⟨_, rfl⟩

/-- Beside the run that returned only the slot may change. -/
theorem conclude_frame
    (executor : Executor)
    (index : Nat)
    (path : String) :
    ∃ holder,
      executor.conclude index path =
        { executor.settle index .returned with holder := holder } := by
  unfold conclude
  split
  case h_1 => exact ⟨_, rfl⟩
  case h_2 => exact release_frame _ path

/-- A shutdown is at most asked for. -/
theorem requestShutdown_frame (executor : Executor) :
    ∃ shutDown, executor.requestShutdown = { executor with shutDown := shutDown } := by
  unfold requestShutdown
  split <;> exact ⟨_, rfl⟩

/-- To notice the end of an engine may add an event. -/
theorem notice_frame
    {executor : Executor}
    {index : Nat}
    {run : Run}
    (found : executor.runs[index]? = some run) :
    ∃ events,
      executor.notice index =
        { executor.modifyRun index fun run => { run with noticed := true } with
          events := events } := by
  unfold notice
  rw [found]
  dsimp only
  split <;> exact ⟨_, rfl⟩

/-- Only the engine as it was matters to how it is changed. -/
theorem modifyEngine_congr
    {executor : Executor}
    {index : Nat}
    {run : Run}
    (found : executor.runs[index]? = some run)
    (change : Engine → Engine) :
    executor.modifyEngine index change = executor.modifyEngine index fun _ => change run.engine := by
  have same :
      executor.runs.modify index (fun run => { run with engine := change run.engine }) =
        executor.runs.modify index fun state => { state with engine := change run.engine } := by
    refine List.ext_getElem? fun other => ?_
    rw [List.getElem?_modify, List.getElem?_modify]
    by_cases here : index = other
    · subst here
      rw [found]
      simp only [Option.map_eq_map, Option.map_some]
    · simp only [here, ↓reduceIte]
  simp only [modifyEngine, modifyRun, same]

/-- The event that is delivered is the oldest one, and it waits no more. -/
theorem takeEvent_eq_some
    {executor rest : Executor}
    {event : ExecutorEvent}
    (taken : executor.takeEvent = some (event, rest)) :
    ∃ waiting, executor.events = event :: waiting ∧ rest = { executor with events := waiting } := by
  unfold takeEvent at taken
  split at taken
  case h_1 => cases taken
  case h_2 waiting events =>
      cases taken
      exact ⟨waiting, events, rfl⟩

/-- The moves that an executor can make. -/
inductive Step : Executor → Move → Executor → Prop where
  | send {executor : Executor} (snapshot : Snapshot) :
      Step executor (.send snapshot) (executor.receive snapshot)
  | handle {executor : Executor}
      (hosted : executor.hosting = .background)
      (working : executor.closed = false) :
      Step executor .handle executor.handleNext.1
  | act {executor : Executor} {run : Nat} {state : Run} {act : Engine.Act} {engine : Engine}
      (found : executor.runs[run]? = some state)
      (running : state.fate = .running)
      (step : Engine.Step state.engine act engine) :
      Step executor (.act run act) ((executor.modifyEngine run fun _ => engine).hear act)
  | panic {executor : Executor} {run : Nat} {state : Run}
      (found : executor.runs[run]? = some state)
      (running : state.fate = .running) :
      Step executor (.panic run) (executor.settle run .panicked)
  | finish {executor : Executor} {run : Nat} {state : Run}
      (found : executor.runs[run]? = some state)
      (running : state.fate = .running)
      (ended : state.engine.hasEnded = true) :
      Step executor (.finish run) (executor.conclude run state.engine.path)
  | notice {executor : Executor} {run : Nat} {state : Run}
      (hosted : executor.hosting = .background)
      (found : executor.runs[run]? = some state)
      (atRest : state.fate ≠ .running)
      (unnoticed : state.noticed = false) :
      Step executor (.notice run) (executor.notice run)
  | deliver {executor rest : Executor} {event : ExecutorEvent}
      (taken : executor.takeEvent = some (event, rest)) :
      Step executor (.deliver event) rest
  | shutDown {executor : Executor} :
      Step executor .shutDown executor.requestShutdown
  | close {executor : Executor}
      (hosted : executor.hosting = .background)
      (asked : executor.shutDown = true) :
      Step executor .close executor.close

/-- The executor after a move, if it can make that. -/
def move? (executor : Executor) : Move → Option Executor
  | .send snapshot => some (executor.receive snapshot)
  | .handle =>
    if executor.hosting = .background ∧ executor.closed = false then
      some executor.handleNext.1
    else none
  | .act run act =>
    match executor.runs[run]? with
    | some state =>
      if state.fate = .running then
        (state.engine.act? act).map fun engine =>
          (executor.modifyEngine run fun _ => engine).hear act
      else none
    | none => none
  | .panic run =>
    match executor.runs[run]? with
    | some state =>
      if state.fate = .running then some (executor.settle run .panicked) else none
    | none => none
  | .finish run =>
    match executor.runs[run]? with
    | some state =>
      if state.fate = .running ∧ state.engine.hasEnded = true then
        some (executor.conclude run state.engine.path)
      else none
    | none => none
  | .notice run =>
    match executor.runs[run]? with
    | some state =>
      if executor.hosting = .background ∧ state.fate ≠ .running ∧ state.noticed = false then
        some (executor.notice run)
      else none
    | none => none
  | .deliver event =>
    match executor.takeEvent with
    | some (oldest, rest) => if oldest = event then some rest else none
    | none => none
  | .shutDown => some executor.requestShutdown
  | .close =>
    if executor.hosting = .background ∧ executor.shutDown = true then some executor.close
    else none

theorem step_of_move?
    {executor next : Executor}
    {move : Move}
    (made : executor.move? move = some next) :
    Step executor move next := by
  cases move with
  | send snapshot => cases made; exact .send snapshot
  | handle =>
      simp only [move?] at made
      split at made
      case isTrue able => cases made; exact .handle able.1 able.2
      case isFalse => cases made
  | act run act =>
      simp only [move?] at made
      split at made
      case h_1 state found =>
          split at made
          case isTrue running =>
              obtain ⟨engine, done, rfl⟩ := Option.map_eq_some_iff.mp made
              exact .act found running (Engine.step_of_act? done)
          case isFalse => cases made
      case h_2 => cases made
  | panic run =>
      simp only [move?] at made
      split at made
      case h_1 state found =>
          split at made
          case isTrue running => cases made; exact .panic found running
          case isFalse => cases made
      case h_2 => cases made
  | finish run =>
      simp only [move?] at made
      split at made
      case h_1 state found =>
          split at made
          case isTrue able => cases made; exact .finish found able.1 able.2
          case isFalse => cases made
      case h_2 => cases made
  | notice run =>
      simp only [move?] at made
      split at made
      case h_1 state found =>
          split at made
          case isTrue able => cases made; exact .notice able.1 found able.2.1 able.2.2
          case isFalse => cases made
      case h_2 => cases made
  | deliver event =>
      simp only [move?] at made
      split at made
      case h_1 oldest rest taken =>
          split at made
          case isTrue same =>
              subst same
              cases made
              exact .deliver taken
          case isFalse => cases made
      case h_2 => cases made
  | shutDown => cases made; exact .shutDown
  | close =>
      simp only [move?] at made
      split at made
      case isTrue able => cases made; exact .close able.1 able.2
      case isFalse => cases made

end Executor

end ResumableUpload
