import ResumableUpload.Proofs.Executor.Panics

/-!
# One engine in flight

Between two rests an executor runs at most one engine.  An executor is `AtRest` when no task of it has
anything left to do.  If all its engines have returned and it is still open it is `Settled`: the next
snapshot that has seen all reports then starts the engine of its first entry, or leaves it settled.

A `Flight` is what such an engine has come to: how far its run is, how many reports it has made, and
which of them were not delivered yet.  `Settled.step_holding_iff` says that what a settled executor
with an engine in flight can do is what the flight can do; there is nothing else to know of it.
-/

namespace ResumableUpload

namespace Executor

variable {executor next base : Executor} {move : Move} {snapshot : Snapshot}

/-! ## Executors at rest -/

/-- Whether a move is one of the executor's own tasks, while none panics and nobody shuts it down. -/
def Move.isTask : Move → Bool
  | .handle | .act .. | .finish _ | .notice _ | .deliver _ => true
  | .send _ | .panic _ | .shutDown | .close => false

/-- No engine runs, and no supervisor of one; no snapshot and no event waits. -/
structure AtRest (executor : Executor) : Prop where
  ended : ∀ run ∈ executor.runs, run.fate ≠ .running
  noticed : executor.hosting = .background → ∀ run ∈ executor.runs, run.noticed = true
  handled : executor.requests = []
  delivered : executor.events = []

instance : Decidable executor.AtRest :=
  decidable_of_iff
    ((∀ run ∈ executor.runs, run.fate ≠ .running) ∧
      (executor.hosting = .background → ∀ run ∈ executor.runs, run.noticed = true) ∧
      executor.requests.isEmpty = true ∧ executor.events.isEmpty = true)
    ⟨fun ⟨ended, noticed, handled, delivered⟩ =>
        ⟨ended, noticed, List.isEmpty_iff.mp handled, List.isEmpty_iff.mp delivered⟩,
      fun ⟨ended, noticed, handled, delivered⟩ =>
        ⟨ended, noticed, List.isEmpty_iff.mpr handled, List.isEmpty_iff.mpr delivered⟩⟩

/-- An open executor at rest, of which no engine has panicked. -/
structure Settled (executor : Executor) : Prop where
  rest : executor.AtRest
  returned : ∀ run ∈ executor.runs, run.fate = .returned
  vacant : executor.Vacant
  unmarked : executor.failed = none
  working : executor.closed = false

theorem Settled.start
    (hosting : Hosting)
    (tuning : Tuning) :
    Settled { hosting := hosting, tuning := tuning } where
  rest := ⟨by rintro _ ⟨⟩, by rintro _ _ ⟨⟩, rfl, rfl⟩
  returned := by rintro _ ⟨⟩
  vacant := by rintro _ ⟨⟩
  unmarked := rfl
  working := rfl

/-- Freeing the slot of a settled executor leaves no mark. -/
theorem Settled.reap_eq (settled : executor.Settled) :
    ∃ holder, executor.reap = { executor with holder := holder } := by
  unfold reap
  split
  case h_1 run held =>
      obtain ⟨index, _, found⟩ := Option.bind_eq_some_iff.mp held
      have returned := settled.returned run (List.mem_of_getElem? found)
      split
      case isTrue =>
          have unpanicked : ¬ run.fate = .panicked := by
            rw [returned]
            decide
          exact ⟨none, by rw [if_neg unpanicked]⟩
      case isFalse => exact ⟨executor.holder, rfl⟩
  case h_2 => exact ⟨executor.holder, rfl⟩

theorem Settled.reap (settled : executor.Settled) : executor.reap.Settled := by
  have vacant : executor.reap.Vacant := by
    rcases reap_cases executor with ⟨same, _⟩ | ⟨_, _, freed⟩
    · rw [same]
      exact settled.vacant
    · rw [freed]
      rintro _ ⟨⟩
  obtain ⟨holder, freed⟩ := settled.reap_eq
  rw [freed] at vacant ⊢
  exact ⟨⟨settled.rest.ended, settled.rest.noticed, settled.rest.handled, settled.rest.delivered⟩,
    settled.returned, vacant, settled.unmarked, settled.working⟩

/-- A settled executor does nothing but to handle the snapshots that it is sent. -/
theorem Settled.eq_handle
    {requests : List Snapshot}
    (settled : executor.Settled)
    (step : Step { executor with requests := requests } move next)
    (task : move.isTask = true) :
    move = .handle ∧ next = (handleNext { executor with requests := requests }).1 := by
  cases step with
  | handle => exact ⟨rfl, rfl⟩
  | act found running =>
      exact absurd running (settled.rest.ended _ (List.mem_of_getElem? found))
  | finish found running =>
      exact absurd running (settled.rest.ended _ (List.mem_of_getElem? found))
  | notice hosted found _ unnoticed =>
      have noticed := settled.rest.noticed hosted _ (List.mem_of_getElem? found)
      cases unnoticed.symm.trans noticed
  | deliver taken =>
      obtain ⟨_, waits, _⟩ := takeEvent_eq_some taken
      cases settled.rest.delivered.symm.trans waits
  | send | panic | shutDown | close => cases task

theorem Settled.eq_of_task
    (settled : executor.Settled)
    (step : Step executor move next)
    (task : move.isTask = true) :
    move = .handle ∧ next = executor := by
  have left : Step { executor with requests := executor.requests } move next := step
  obtain ⟨rfl, rfl⟩ := settled.eq_handle left task
  have handled := settled.rest.handled
  obtain ⟨hosting⟩ := executor
  cases handled
  exact ⟨rfl, rfl⟩

/-! ## Flights -/

/-- How far the run of an engine in flight is. -/
inductive Flight.Stage where
  | running
  | returned
  /-- The supervisor of the engine has noticed its end. -/
  | noticed
deriving DecidableEq, Repr

/-- What an engine that was started has come to. -/
structure Flight where
  engine : Engine
  stage : Flight.Stage := .running
  /-- How many reports it has made. -/
  made : Nat := 0
  /-- The reports that were not delivered yet. -/
  waiting : List Report := []

namespace Flight

/-- The run of an engine in flight. -/
def run (flight : Flight) : Run :=
  match flight.stage with
  | .running => ⟨flight.engine, .running, false⟩
  | .returned => ⟨flight.engine, .returned, false⟩
  | .noticed => ⟨flight.engine, .returned, true⟩

/-- Who holds the slot: an inline engine frees it as it returns. -/
def holder (hosting : Hosting) (index : Nat) (flight : Flight) : Option Nat :=
  match hosting, flight.stage with
  | .inline, .returned | .inline, .noticed => none
  | .inline, .running | .background, _ => some index

/-- The flight after an act of its engine. -/
def hear (hosting : Hosting) (flight : Flight) (act : Engine.Act) (engine : Engine) : Flight :=
  { flight with
    engine := engine
    made := flight.made + act.report?.toList.length
    waiting :=
      match hosting with
      | .background => flight.waiting ++ act.report?.toList
      | .inline => flight.waiting }

/-- What can happen while an engine is in flight; `index` is the number of its run. -/
inductive Step (hosting : Hosting) (index : Nat) (flight : Flight) : Move → Flight → Prop where
  /-- The background worker finds no snapshot. -/
  | handle (hosted : hosting = .background) : Step hosting index flight .handle flight
  | act {act : Engine.Act} {engine : Engine}
      (running : flight.stage = .running)
      (step : Engine.Step flight.engine act engine) :
      Step hosting index flight (.act index act) (flight.hear hosting act engine)
  | finish
      (running : flight.stage = .running)
      (ended : flight.engine.hasEnded = true) :
      Step hosting index flight (.finish index) { flight with stage := .returned }
  | notice
      (hosted : hosting = .background)
      (returned : flight.stage = .returned) :
      Step hosting index flight (.notice index) { flight with stage := .noticed }
  | deliver {report : Report} {rest : List Report}
      (waits : flight.waiting = report :: rest) :
      Step hosting index flight (.deliver (.progress report)) { flight with waiting := rest }

theorem run_engine (flight : Flight) : flight.run.engine = flight.engine := by
  unfold run
  split <;> rfl

theorem run_running (flight : Flight) : flight.run.fate = .running ↔ flight.stage = .running := by
  unfold run
  cases flight.stage <;> simp

/-- Which reports the engine has made, and which of them were heard of. -/
structure Tells (hosting : Hosting) (flight : Flight) (reports heard : List Report) : Prop where
  made : flight.made = reports.length
  split : heard ++ flight.waiting = reports
  direct : hosting = .inline → flight.waiting = []

/-- Reports are heard of in the order in which they are made, inline as they are made. -/
theorem Step.tells
    {hosting : Hosting}
    {index : Nat}
    {flight after : Flight}
    {reports heard : List Report}
    (step : Step hosting index flight move after)
    (tells : flight.Tells hosting reports heard) :
    after.Tells hosting (reports ++ move.made?.toList)
      (heard ++ (move.report? hosting).toList) := by
  obtain ⟨made, split, direct⟩ := tells
  cases step with
  | handle | finish | notice =>
      simp only [Move.made?, Move.report?, Option.toList_none, List.append_nil]
      exact ⟨made, split, direct⟩
  | @act act engine =>
      rw [Move.made?_act]
      refine ⟨?_, ?_, ?_⟩
      · simp only [Flight.hear, made, List.length_append]
      · cases hosting with
        | background =>
            rw [Move.report?_act_background, ← split]
            simp only [Flight.hear, Option.toList_none, List.append_nil, List.append_assoc]
        | inline =>
            rw [Move.report?_act_inline, ← split, direct rfl]
            simp only [Flight.hear, direct rfl, List.append_nil]
      · intro inlined
        subst inlined
        exact direct rfl
  | @deliver report rest waits =>
      simp only [Move.made?, Move.report?, Option.toList_none, Option.toList_some, List.append_nil]
      refine ⟨made, ?_, ?_⟩
      · rw [← split, waits, List.append_assoc, List.singleton_append]
      · intro inlined
        rw [direct inlined] at waits
        cases waits

theorem Step.isTask
    {hosting : Hosting}
    {index : Nat}
    {flight after : Flight}
    (step : Step hosting index flight move after) :
    move.isTask = true := by
  cases step <;> rfl

end Flight

/-- A settled executor with one more engine, which is in flight. -/
def holding (base : Executor) (flight : Flight) : Executor :=
  { base with
    runs := base.runs ++ [flight.run]
    holder := flight.holder base.hosting base.runs.length
    emitted := base.emitted + flight.made
    events := flight.waiting.map .progress }

variable {flight : Flight}

/-! ## What happens to an engine in flight -/

theorem holding_last (base : Executor) (flight : Flight) :
    (base.holding flight).runs[base.runs.length]? = some flight.run :=
  List.getElem?_concat_length

theorem run_of_holding
    {index : Nat}
    {run : Run}
    (found : (base.holding flight).runs[index]? = some run) :
    run ∈ base.runs ∨ index = base.runs.length ∧ run = flight.run := by
  simp only [holding, List.getElem?_append] at found
  split at found
  case isTrue => exact .inl (List.mem_of_getElem? found)
  case isFalse beyond =>
      rw [List.getElem?_singleton] at found
      split at found
      case isTrue first => exact .inr ⟨by omega, (Option.some.inj found).symm⟩
      case isFalse => cases found

/-- Only the engine in flight runs. -/
theorem Settled.running_of_holding
    {index : Nat}
    {run : Run}
    (settled : base.Settled)
    (found : (base.holding flight).runs[index]? = some run)
    (running : run.fate = .running) :
    index = base.runs.length ∧ run = flight.run ∧ flight.stage = .running := by
  rcases run_of_holding found with earlier | ⟨last, rfl⟩
  · exact absurd running (settled.rest.ended run earlier)
  · exact ⟨last, rfl, flight.run_running.mp running⟩

theorem modify_holding (base : Executor) (flight : Flight) (change : Run → Run) :
    (base.holding flight).runs.modify base.runs.length change =
      base.runs ++ [change flight.run] := by
  unfold holding
  rw [List.modify_eq_take_drop, List.take_left, List.drop_left]
  rfl

theorem hear_holding
    (running : flight.stage = .running)
    (act : Engine.Act)
    (engine : Engine) :
    ((base.holding flight).modifyEngine base.runs.length fun _ => engine).hear act =
      base.holding (flight.hear base.hosting act engine) := by
  obtain ⟨_, stage, made, waiting⟩ := flight
  cases running
  unfold modifyEngine modifyRun
  rw [modify_holding]
  unfold hear Flight.hear
  split
  case h_1 report =>
      rw [emit_eq]
      cases hosted : base.hosting <;>
        simp [holding, hosted, Flight.run, Flight.holder, Engine.Act.report?, Nat.add_assoc]
  case h_2 silent =>
      have none : act.report? = none := by
        cases act with
        | report made => exact absurd rfl (silent made)
        | _ => rfl
      cases hosted : base.hosting <;> simp [holding, hosted, Flight.run, Flight.holder, none]

theorem conclude_holding (running : flight.stage = .running) :
    (base.holding flight).conclude base.runs.length flight.engine.path =
      base.holding { flight with stage := .returned } := by
  obtain ⟨engine, stage, made, waiting⟩ := flight
  cases running
  unfold conclude settle modifyRun
  rw [modify_holding]
  cases hosted : base.hosting <;>
    simp [holding, hosted, Flight.run, Flight.holder, release, holder?]

theorem notice_holding
    (hosted : base.hosting = .background)
    (returned : flight.stage = .returned) :
    (base.holding flight).notice base.runs.length =
      base.holding { flight with stage := .noticed } := by
  obtain ⟨engine, stage, made, waiting⟩ := flight
  cases returned
  unfold notice modifyRun
  rw [holding_last, modify_holding]
  simp [holding, hosted, Flight.run, Flight.holder]

theorem takeEvent_holding
    {report : Report}
    {rest : List Report}
    (waits : flight.waiting = report :: rest) :
    (base.holding flight).takeEvent =
      some (.progress report, base.holding { flight with waiting := rest }) := by
  simp only [takeEvent, holding, waits, List.map_cons]
  rfl

/--
What the tasks of a settled executor with an engine in flight do is what can happen to the flight, as
the settled part has nothing to do.
-/
theorem Settled.step_holding_iff
    (settled : base.Settled)
    (task : move.isTask = true) :
    Step (base.holding flight) move next ↔
      ∃ after,
        Flight.Step base.hosting base.runs.length flight move after ∧
          next = base.holding after := by
  constructor
  · intro step
    -- Only the last run can do anything, so the number of the run that moves is known.
    cases step with
    | handle hosted =>
        refine ⟨flight, .handle hosted, ?_⟩
        have none : (base.holding flight).requests = [] := settled.rest.handled
        unfold handleNext
        rw [none]
    | act found running step =>
        obtain ⟨rfl, rfl, flying⟩ := settled.running_of_holding found running
        rw [flight.run_engine] at step
        exact ⟨_, .act flying step, hear_holding flying _ _⟩
    | finish found running ended =>
        obtain ⟨rfl, rfl, flying⟩ := settled.running_of_holding found running
        rw [flight.run_engine] at ended ⊢
        exact ⟨_, .finish flying ended, conclude_holding flying⟩
    | notice hosted found atRest unnoticed =>
        rcases run_of_holding found with earlier | ⟨rfl, rfl⟩
        · cases unnoticed.symm.trans (settled.rest.noticed hosted _ earlier)
        · have returned : flight.stage = .returned := by
            unfold Flight.run at atRest unnoticed
            cases stage : flight.stage <;> simp_all
          exact ⟨_, .notice hosted returned, notice_holding hosted returned⟩
    | deliver taken =>
        obtain ⟨_, waits, _⟩ := takeEvent_eq_some taken
        obtain ⟨report, rest, waiting, rfl, _⟩ := List.map_eq_cons_iff.mp waits
        cases (takeEvent_holding waiting).symm.trans taken
        exact ⟨_, .deliver waiting, rfl⟩
    | send | panic | shutDown | close => cases task
  · rintro ⟨after, step, rfl⟩
    cases step with
    | handle hosted =>
        have none : (base.holding flight).requests = [] := settled.rest.handled
        have step : Step (base.holding flight) .handle (base.holding flight).handleNext.1 :=
          .handle hosted settled.working
        unfold handleNext at step
        rwa [none] at step
    | act running step =>
        rw [← hear_holding running]
        rw [← flight.run_engine] at step
        exact .act (holding_last base flight) (flight.run_running.mpr running) step
    | finish running ended =>
        rw [← conclude_holding running]
        rw [← flight.run_engine] at ended ⊢
        exact .finish (holding_last base flight) (flight.run_running.mpr running) ended
    | notice hosted returned =>
        rw [← notice_holding hosted returned]
        refine .notice hosted (holding_last base flight) ?_ ?_
        · rw [Ne, flight.run_running, returned]
          decide
        · unfold Flight.run
          rw [returned]
    | deliver waits => exact .deliver (takeEvent_holding waits)

/-! ## From one rest to the next -/

theorem Settled.receive_eq
    (settled : executor.Settled)
    (hosted : executor.hosting = .background)
    (snapshot : Snapshot) :
    executor.receive snapshot = { executor with requests := [snapshot] } :=
  receive_of_idle hosted settled.working settled.rest.handled snapshot

theorem Settled.eq_of_pending
    (settled : executor.Settled)
    (step : Step { executor with requests := [snapshot] } move next)
    (task : move.isTask = true) :
    move = .handle ∧ next = (executor.sync snapshot).1 := by
  obtain ⟨rfl, rfl⟩ := settled.eq_handle step task
  have handled := settled.rest.handled
  obtain ⟨hosting⟩ := executor
  cases handled
  exact ⟨rfl, rfl⟩

/-- A settled executor with nothing to start is settled after it has handled a snapshot. -/
theorem Settled.sync_of_idle
    (settled : executor.Settled)
    (idle : snapshot.next? = none) :
    (executor.sync snapshot).1 = executor.reap := by
  rw [sync_of_vacant settled.vacant]
  unfold fill
  rw [idle]

/-- A settled executor that is given a snapshot which has seen all reports starts its first entry. -/
theorem Settled.sync_of_next?
    {entry : Entry}
    {file : FileHandle}
    (settled : executor.Settled)
    (first : snapshot.next? = some (entry, file))
    (current : executor.emitted ≤ snapshot.reportsSeen) :
    (executor.sync snapshot).1 =
      executor.holding
        { engine := (Engine.new executor.tuning entry.path file entry.uploaded).start } := by
  obtain ⟨holder, freed⟩ := settled.reap_eq
  have spared : executor.reap.failed ≠ some (entry.path, file.identity) := by
    rw [settled.reap.unmarked]
    rintro ⟨⟩
  have seen : executor.reap.emitted ≤ snapshot.reportsSeen := by
    rw [freed]
    exact current
  rw [sync_of_vacant settled.vacant, fill_of_spared first seen spared, freed]
  have unmarked := settled.unmarked
  have delivered := settled.rest.delivered
  obtain ⟨hosting⟩ := executor
  cases unmarked
  cases delivered
  cases hosting <;> rfl

/-- Once the engine in flight has come to rest the executor is settled again. -/
theorem Settled.holding
    (settled : base.Settled)
    (rest : (base.holding flight).AtRest) :
    (base.holding flight).Settled ∧ flight.stage ≠ .running ∧ flight.waiting = [] := by
  have last : flight.run ∈ (base.holding flight).runs := List.mem_of_getElem? (holding_last _ _)
  have stage : flight.stage ≠ .running := by
    rw [Ne, ← flight.run_running]
    exact rest.ended _ last
  refine ⟨⟨rest, ?_, ?_, settled.unmarked, settled.working⟩, stage, ?_⟩
  · intro run member
    obtain ⟨index, found⟩ := List.mem_iff_getElem?.mp member
    rcases run_of_holding found with earlier | ⟨_, rfl⟩
    · exact settled.returned run earlier
    · unfold Flight.run
      cases here : flight.stage with
      | running => exact absurd here stage
      | returned | noticed => rfl
  · intro run held
    obtain ⟨index, slot, found⟩ := Option.bind_eq_some_iff.mp held
    cases hosted : base.hosting with
    | background => exact rest.noticed hosted run (List.mem_of_getElem? found)
    | inline =>
        cases here : flight.stage with
        | running => exact absurd here stage
        | returned | noticed =>
            simp only [Executor.holding, Flight.holder, hosted, here] at slot
            cases slot
  · exact List.map_eq_nil_iff.mp rest.delivered

/-- An engine in flight has come to rest with its last report, and in the background unobserved. -/
theorem Settled.atRest_holding
    (settled : base.Settled)
    (landed : flight.stage ≠ .running)
    (noticed : base.hosting = .background → flight.stage = .noticed)
    (heard : flight.waiting = []) :
    (base.holding flight).AtRest where
  ended run member := by
    obtain ⟨index, found⟩ := List.mem_iff_getElem?.mp member
    intro running
    exact landed (settled.running_of_holding found running).2.2
  noticed hosted run member := by
    obtain ⟨index, found⟩ := List.mem_iff_getElem?.mp member
    rcases run_of_holding found with earlier | ⟨_, rfl⟩
    · exact settled.rest.noticed hosted run earlier
    · unfold Flight.run
      rw [noticed hosted]
  handled := settled.rest.handled
  delivered := by
    simp only [Executor.holding, heard, List.map_nil]

end Executor

end ResumableUpload
