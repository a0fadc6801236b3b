import ResumableUpload.Proofs.Executor.Panics

/-!
# Files that are held back

A file whose engine panicked in the background is not started again by itself.  First the engine
still has the slot; then its end is noticed, and the next snapshot frees the slot and marks the file;
and a marked file is passed over.  `HeldBack` says which of these it is, and no move changes it except
handling a snapshot that puts another path or another file first (`Snapshot.Supplants`).  Such a
snapshot takes the mark away, be it so old that it starts nothing itself.

The mark holds back no file but its own: a snapshot that puts another file first, be it for the same
path, starts an engine as if there were no mark (`launched_iff`).
-/

namespace ResumableUpload

/-- A snapshot puts another path or another file first. -/
def Snapshot.Supplants (snapshot : Snapshot) (path : String) (identity : Nat) : Prop :=
  ∃ entry file,
    snapshot.next? = some (entry, file) ∧ (entry.path ≠ path ∨ file.identity ≠ identity)

/-- If a snapshot puts nothing else first, what it puts first is this file. -/
theorem Snapshot.same_of_not_supplants
    {snapshot : Snapshot}
    {path : String}
    {identity : Nat}
    {entry : Entry}
    {file : FileHandle}
    (first : snapshot.next? = some (entry, file))
    (loyal : ¬ snapshot.Supplants path identity) :
    entry.path = path ∧ file.identity = identity := by
  have neither := not_or.mp fun differs => loyal ⟨entry, file, first, differs⟩
  exact ⟨Decidable.not_not.mp neither.1, Decidable.not_not.mp neither.2⟩

namespace Executor

variable {executor next final : Executor} {move : Move} {moves : List Move} {snapshot : Snapshot}
variable {path : String} {identity : Nat} {entry : Entry} {file : FileHandle}

/--
Why a file is not started: its engine has panicked and has the slot, or the file is marked, or the
executor has closed.
-/
inductive HeldBack (executor : Executor) (path : String) (identity : Nat) : Prop where
  | holding {index : Nat}
      (slot : executor.holder = some index)
      (panicked : executor.PanickedAt index path identity)
  | marked
      (free : executor.holder = none)
      (marked : executor.failed = some (path, identity))
  | closed (closed : executor.closed = true)

/-! ## Handling a snapshot -/

theorem fill_of_marked
    (marked : executor.failed = some (path, identity))
    (loyal : ¬ snapshot.Supplants path identity) :
    executor.fill snapshot = (executor, none) := by
  unfold fill
  split
  case h_1 => rfl
  case h_2 entry file first =>
      obtain ⟨rfl, rfl⟩ := Snapshot.same_of_not_supplants first loyal
      exact if_pos marked

theorem sync_of_marked
    (vacant : executor.Vacant)
    (marked : executor.reap.failed = some (path, identity))
    (loyal : ¬ snapshot.Supplants path identity) :
    executor.sync snapshot = (executor.reap, none) := by
  rw [sync_of_vacant vacant, fill_of_marked marked loyal]

theorem reap_of_free (free : executor.holder? = none) : executor.reap = executor := by
  unfold reap
  rw [free]

/-- When the slot of an engine that panicked is freed, its file is marked. -/
theorem reap_of_panickedAt
    {index : Nat}
    (slot : executor.holder = some index)
    (panicked : executor.PanickedAt index path identity)
    (vacant : executor.Vacant) :
    executor.reap =
      { executor with holder := none, failed := some (path, identity) } := by
  obtain ⟨run, found, fate, rfl, rfl⟩ := panicked
  have held : executor.holder? = some run := by rw [holder?, slot, Option.bind_some, found]
  unfold reap
  simp only [held, vacant run held, fate, ↓reduceIte]

/-- A snapshot that puts nothing else first starts no engine and keeps the file back. -/
theorem HeldBack.sync
    (held : executor.HeldBack path identity)
    (working : executor.closed = false)
    (loyal : ¬ snapshot.Supplants path identity) :
    (executor.sync snapshot).1.HeldBack path identity ∧
      (executor.sync snapshot).1.runs.length = executor.runs.length := by
  cases held with
  | closed closed => cases working.symm.trans closed
  | marked free marked =>
      have nobody := holder?_eq_none free
      have same := reap_of_free nobody
      have mark : executor.reap.failed = some (path, identity) := by rw [same, marked]
      rw [sync_of_marked (vacant_of_free nobody) mark loyal, same]
      exact ⟨.marked free marked, rfl⟩
  | holding slot panicked =>
      by_cases vacant : executor.Vacant
      · have freed := reap_of_panickedAt slot panicked vacant
        rw [sync_of_marked vacant (by rw [freed]) loyal, freed]
        exact ⟨.marked rfl rfl, rfl⟩
      · have synced := synced_sync executor snapshot
        generalize (executor.sync snapshot).1 = next at synced ⊢
        cases synced with
        | quiet failed still =>
            have kept := still.resolve_right fun freed => vacant freed.2
            exact ⟨.holding (kept.trans slot) panicked, rfl⟩
        | stopped =>
            obtain ⟨_, stopped⟩ := stopHolder_frame executor
            have kept : executor.stopHolder.holder = executor.holder := by rw [stopped]
            exact ⟨.holding (kept.trans slot) panicked.stopHolder, length_stopHolder executor⟩
        | started free => exact absurd free vacant

/-! ## Other moves -/

/-- In the background only handling a snapshot and closing change the slot and the mark. -/
theorem Step.slot_eq
    (step : Step executor move next)
    (hosted : executor.hosting = .background)
    (unhandled : move ≠ .handle)
    (working : next.closed = false) :
    next.holder = executor.holder ∧ next.failed = executor.failed := by
  cases step with
  | send snapshot =>
      obtain ⟨_, waiting⟩ := enqueue_frame executor snapshot
      rw [receive_of_background hosted, waiting]
      exact ⟨rfl, rfl⟩
  | handle => exact absurd rfl unhandled
  | @act index _ act engine =>
      obtain ⟨_, _, heard⟩ := hear_frame (executor.modifyEngine index fun _ => engine) act
      rw [heard]
      exact ⟨rfl, rfl⟩
  | panic => exact ⟨rfl, rfl⟩
  | finish =>
      unfold conclude
      rw [hosted]
      exact ⟨rfl, rfl⟩
  | notice _ found =>
      obtain ⟨_, noticed⟩ := notice_frame found
      rw [noticed]
      exact ⟨rfl, rfl⟩
  | deliver taken =>
      obtain ⟨_, _, rfl⟩ := takeEvent_eq_some taken
      exact ⟨rfl, rfl⟩
  | shutDown =>
      obtain ⟨_, asked⟩ := requestShutdown_frame executor
      rw [asked]
      exact ⟨rfl, rfl⟩
  | close => cases working

/-- Unless it puts something else first, the snapshot that is handled changes nothing for the file. -/
theorem HeldBack.handle
    (held : executor.HeldBack path identity)
    (step : Step executor .handle next)
    (loyal :
      ∀ {snapshot : Snapshot},
        executor.Handles .handle snapshot → ¬ snapshot.Supplants path identity) :
    next.HeldBack path identity ∧ next.runs.length = executor.runs.length := by
  cases step with
  | handle hosted working =>
      unfold handleNext
      cases waiting : executor.requests with
      | nil => exact ⟨held, rfl⟩
      | cons snapshot rest =>
          have left : HeldBack { executor with requests := rest } path identity := by
            cases held with
            | holding slot panicked => exact .holding slot panicked
            | marked free marked => exact .marked free marked
            | closed closed => exact .closed closed
          exact left.sync working (loyal (.queued hosted waiting))

theorem HeldBack.step
    (held : executor.HeldBack path identity)
    (step : Step executor move next)
    (hosted : executor.hosting = .background)
    (loyal :
      ∀ {snapshot : Snapshot},
        executor.Handles move snapshot → ¬ snapshot.Supplants path identity) :
    next.HeldBack path identity := by
  by_cases handled : move = .handle
  · subst handled
    exact (held.handle step loyal).1
  · cases working : next.closed with
    | true => exact .closed working
    | false =>
        obtain ⟨slot, mark⟩ := step.slot_eq hosted handled working
        cases held with
        | holding held panicked => exact .holding (slot.trans held) (step.panickedAt panicked)
        | marked free marked => exact .marked (slot.trans free) (mark.trans marked)
        | closed closed => cases working.symm.trans (step.still_closed closed)

/-- A file that is held back is not started by a snapshot that puts it first. -/
theorem HeldBack.unstarted
    {launched : Run}
    (held : executor.HeldBack path identity)
    (hosted : executor.hosting = .background)
    (step : Step executor move next)
    (runs : next.runs = executor.runs ++ [launched])
    (there : launched.engine.path = path) :
    launched.engine.file.identity ≠ identity := by
  intro same
  cases step.launches with
  | none unchanged =>
      have lengths := congrArg List.length unchanged
      simp [started, runs] at lengths
  | @one snapshot entry file handles first _ launches =>
      rw [runs] at launches
      obtain rfl := List.singleton_inj.mp (List.append_cancel_left launches)
      cases handles with
      | inlined inlined => cases hosted.symm.trans inlined
      | @queued _ rest _ waiting =>
          have lengths := (held.handle step ?_).2
          · simp [runs] at lengths
          · rintro other (_ | ⟨_, taken⟩) ⟨_, _, chosen, differs⟩
            cases waiting.symm.trans taken
            cases first.symm.trans chosen
            exact differs.elim (fun elsewhere => elsewhere there) (fun different => different same)

/-! ## Until something else comes first -/

/-- Between two states a snapshot was handled that puts another path or another file first. -/
def Supplanted
    (path : String)
    (identity : Nat)
    (start : Executor)
    (moves : List Move)
    (final : Executor) : Prop :=
  ∃ earlier later state after snapshot,
    moves = earlier ++ .handle :: later ∧ Trace Step start earlier state ∧
      state.Handles .handle snapshot ∧ Step state .handle after ∧ Trace Step after later final ∧
      snapshot.Supplants path identity

theorem Supplanted.snoc
    (supplanted : Supplanted path identity executor moves next)
    (step : Step next move final) :
    Supplanted path identity executor (moves ++ [move]) final := by
  obtain ⟨earlier, later, state, after, snapshot, rfl, before, handles, handled, further, differs⟩ :=
    supplanted
  refine ⟨earlier, later ++ [move], state, after, snapshot, ?_, before, handles, handled,
    further.snoc step, differs⟩
  rw [List.append_assoc, List.cons_append]

/-- A file is held back until a snapshot is handled that puts something else first. -/
theorem HeldBack.trace
    (held : executor.HeldBack path identity)
    (hosted : executor.hosting = .background)
    (run : Trace Step executor moves final) :
    final.HeldBack path identity ∨ Supplanted path identity executor moves final := by
  induction run with
  | refl => exact .inl held
  | @snoc labels middle final move past last earlier =>
      have hosts : middle.hosting = .background := (hosting_of_steps past).trans hosted
      rcases earlier with still | supplanted
      · by_cases supplants :
          ∃ snapshot, middle.Handles move snapshot ∧ snapshot.Supplants path identity
        · obtain ⟨snapshot, handles, differs⟩ := supplants
          obtain rfl : move = .handle := by
            cases handles with
            | inlined inlined => cases hosts.symm.trans inlined
            | queued => rfl
          exact .inr ⟨labels, [], middle, final, snapshot, rfl, past, handles, last, .refl, differs⟩
        · exact .inl (still.step last hosts fun handles differs => supplants ⟨_, handles, differs⟩)
      · exact .inr (supplanted.snoc last)

theorem HeldBack.of_panic
    {index : Nat}
    {run : Run}
    (one : executor.OneTransfer)
    (found : executor.runs[index]? = some run)
    (running : run.fate = .running) :
    (executor.settle index .panicked).HeldBack run.engine.path run.engine.file.identity := by
  rcases one.held found running with slot | closed
  · refine .holding slot ⟨{ run with fate := .panicked }, ?_, rfl, rfl, rfl⟩
    simp [settle, Executor.modifyRun, found]
  · exact .closed closed

/-! ## Other files -/

/--
An engine starts for what a snapshot puts first just if the slot can be had, the snapshot has seen
all reports, and this very file is not marked.
-/
theorem launched_iff
    (executor : Executor)
    (first : snapshot.next? = some (entry, file)) :
    (executor.sync snapshot).1.runs = executor.runs ++ [executor.runOf entry file] ↔
      executor.Vacant ∧ executor.emitted ≤ snapshot.reportsSeen ∧
        executor.reap.failed ≠ some (entry.path, file.identity) := by
  constructor
  · intro launched
    have longer : (executor.sync snapshot).1.runs.length ≠ executor.runs.length := by
      simp [launched]
    obtain ⟨vacant, current⟩ : executor.Vacant ∧ executor.emitted ≤ snapshot.reportsSeen := by
      have synced := synced_sync executor snapshot
      generalize (executor.sync snapshot).1 = next at synced longer
      cases synced with
      | quiet => exact absurd rfl longer
      | stopped => exact absurd (length_stopHolder executor) longer
      | started vacant _ current => exact ⟨vacant, current⟩
    refine ⟨vacant, current, fun marked => longer ?_⟩
    have loyal : ¬ snapshot.Supplants entry.path file.identity := by
      rintro ⟨_, _, chosen, differs⟩
      cases first.symm.trans chosen
      exact differs.elim (absurd rfl) (absurd rfl)
    obtain ⟨_, _, freed⟩ := reap_frame executor
    rw [sync_of_marked vacant marked loyal, freed]
  · rintro ⟨vacant, current, spared⟩
    exact (launched_of_sync vacant first current spared).1

/--
Once the engine of a file has panicked, no engine is started for its path and this file until a
snapshot was handled that puts another path or another file first.  And when a snapshot puts another
file of the path first, the mark of this one does not count: an engine starts just if the slot can be
had and the snapshot has seen all reports.
-/
theorem panicked_file_waits
    {tuning : Tuning}
    {past further : List Move}
    {before start : Executor}
    {index : Nat}
    {engine : Engine}
    (earlier : Trace Step { hosting := .background, tuning := tuning } past before)
    (found : before.engine? index = some engine)
    (panic : Step before (.panic index) start)
    (later : Trace Step start further final)
    (step : Step final move next) :
    (∀ launched : Run,
      next.runs = final.runs ++ [launched] →
        launched.engine.path = engine.path →
          launched.engine.file.identity = engine.file.identity →
            Supplanted engine.path engine.file.identity start further final) ∧
      ∀ (snapshot : Snapshot) (entry : Entry) (file : FileHandle),
        final.Handles move snapshot →
          snapshot.next? = some (entry, file) →
            entry.path = engine.path →
              file.identity ≠ engine.file.identity →
                final.reap.failed = some (engine.path, engine.file.identity) →
                  (next.runs = final.runs ++ [final.runOf entry file] ↔
                    final.Vacant ∧ final.emitted ≤ snapshot.reportsSeen) := by
  have hosted : final.hosting = .background :=
    (hosting_of_steps later).trans (panic.hosting_eq.trans (hosting_of_steps earlier))
  constructor
  · intro launched runs there same
    cases panic with
    | @panic _ run member running =>
        obtain rfl : run.engine = engine := by
          rw [engine?, member] at found
          exact Option.some.inj found
        have held := HeldBack.of_panic (oneTransfer_of_trace earlier) member running
        have hosts := (hosting_of_steps later).symm.trans hosted
        rcases held.trace hosts later with still | supplanted
        · exact absurd same (still.unstarted hosted step runs there)
        · exact supplanted
  · intro snapshot entry file handles first there other marked
    cases handles with
    | inlined inlined => cases hosted.symm.trans inlined
    | @queued _ rest _ waiting =>
        cases step with
        | handle =>
            have spared :
                some (engine.path, engine.file.identity) ≠ some (entry.path, file.identity) := by
              simp [Ne.symm other]
            have launched := launched_iff { final with requests := rest } first
            rw [failed_reap_requests, marked, and_iff_left spared] at launched
            simp only [handleNext, waiting]
            exact launched

/-- A snapshot of a queue that wants one file of two bytes sent to one path. -/
def wanting (identity reportsSeen : Nat) : Snapshot :=
  ⟨[.ofFile ⟨identity, .ofBytes [1, 2]⟩ "a"], reportsSeen⟩

/-- An engine makes the first of its reports. -/
def reporting : List Move :=
  [ .send (wanting 0 0), .handle, .act 0 (.create (.ok (Response.success ⟨"a", 2⟩))),
    .act 0 .check, .act 0 (.read (.ok [1, 2])),
    .act 0 (.chunk 0 "AQI=" (.ok (Response.success ⟨"a", 1, 2⟩))),
    .act 0 (.report ⟨"a", 1, true, ""⟩) ]

/-- Once it has panicked its file is passed over, until an old snapshot puts another file first. -/
def unmarking : List Move :=
  [ .notice 0, .send (wanting 0 1), .handle, .send (wanting 1 0), .handle, .send (wanting 0 1) ]

/-- Its file is passed over; then another file is put in its place. -/
def replacing : List Move :=
  [ .notice 0, .send (wanting 0 1), .handle, .send (wanting 1 1) ]

/--
The file whose engine panicked is sent again after another one came first; and another file that is
put in its place is sent at once.
-/
theorem panicked_file_waits_for_another :
    (∃ before start final next,
      Trace Step { hosting := .background, tuning := Config.tuning {} } reporting before ∧
        Step before (.panic 0) start ∧ Trace Step start unmarking final ∧
        Step final .handle next ∧ next.files = final.files ++ [("a", 0)] ∧
        Supplanted "a" 0 start unmarking final) ∧
      ∃ before start final next entry file,
        Trace Step { hosting := .background, tuning := Config.tuning {} } reporting before ∧
          Step before (.panic 0) start ∧ Trace Step start replacing final ∧
          Step final .handle next ∧ final.reap.failed = some ("a", 0) ∧
          file.identity = 1 ∧ next.runs = final.runs ++ [final.runOf entry file] := by
  constructor
  · have seen :
        ((reporting.foldlM move? { hosting := .background, tuning := Config.tuning {} }).bind
            fun before =>
              (before.move? (.panic 0)).bind fun start =>
                (unmarking.foldlM move? start).bind fun final =>
                  (final.move? .handle).map fun next =>
                    ((before.engine? 0).map fun engine => (engine.path, engine.file.identity),
                      decide (next.files = final.files ++ [("a", 0)]))) =
          some (some ("a", 0), true) := by
      decide
    simp only [Option.bind_eq_some_iff, Option.map_eq_some_iff, Prod.mk.injEq,
      decide_eq_true_eq] at seen
    obtain ⟨before, reported, start, panicking, final, unmarked, next, handled,
      ⟨engine, found, path, identity⟩, grown⟩ := seen
    have earlier := Trace.of_foldlM Step step_of_move? reported
    have panic := step_of_move? panicking
    have later := Trace.of_foldlM Step step_of_move? unmarked
    have step := step_of_move? handled
    obtain ⟨_, _, _, _, _, _, runs, there, same⟩ := step.launches_of_files grown
    have waits := panicked_file_waits earlier found panic later step
    rw [path, identity] at waits
    exact ⟨before, start, final, next, earlier, panic, later, step, grown,
      waits.1 _ runs there same⟩
  · have seen :
        ((reporting.foldlM move? { hosting := .background, tuning := Config.tuning {} }).bind
            fun before =>
              (before.move? (.panic 0)).bind fun start =>
                (replacing.foldlM move? start).bind fun final =>
                  (final.move? .handle).map fun next =>
                    ((before.engine? 0).map fun engine => (engine.path, engine.file.identity),
                      (final.holder, final.reap.failed),
                      decide (next.files = final.files ++ [("a", 1)]))) =
          some (some ("a", 0), (none, some ("a", 0)), true) := by
      decide
    simp only [Option.bind_eq_some_iff, Option.map_eq_some_iff, Prod.mk.injEq,
      decide_eq_true_eq] at seen
    obtain ⟨before, reported, start, panicking, final, replaced, next, handled,
      ⟨engine, found, path, identity⟩, ⟨slot, marked⟩, grown⟩ := seen
    have earlier := Trace.of_foldlM Step step_of_move? reported
    have panic := step_of_move? panicking
    have later := Trace.of_foldlM Step step_of_move? replaced
    have step := step_of_move? handled
    obtain ⟨snapshot, entry, file, handles, first, current, _, there, other⟩ :=
      step.launches_of_files grown
    have vacant : final.Vacant := vacant_of_free (holder?_eq_none slot)
    have waits := panicked_file_waits earlier found panic later step
    rw [path, identity] at waits
    have different : file.identity ≠ 0 := by
      rw [other]
      decide
    have starts := waits.2 snapshot entry file handles first there different marked
    exact ⟨before, start, final, next, entry, file, earlier, panic, later, step, marked, other,
      starts.mpr ⟨vacant, current⟩⟩

end Executor

end ResumableUpload
