import ResumableUpload.Proofs.Executor.Panics

/-!
# The slot of an inline executor

An inline executor runs an engine on the time of whoever sent the snapshot, and frees the slot when
the engine returns.  No supervisor looks after such an engine, so nobody notices its end
(`Run.Placed`): if it panics, the sender unwinds past the release and the slot is never freed.

Hence the slot of an executor whose engines have all returned is free, and the next snapshot that
has seen all reports starts an engine for its first eligible entry; but after a panic no snapshot
starts anything any more (`slot_freed_by_return`).
-/

namespace ResumableUpload

/-- A snapshot with an eligible entry has a first one, with its file. -/
theorem Snapshot.exists_next?
    {snapshot : Snapshot}
    {entry : Entry}
    (member : entry ∈ snapshot.entries)
    (eligible : entry.isEligible = true) :
    ∃ first file, snapshot.next? = some (first, file) := by
  have held : entry.file.isSome = true := by
    simp only [Entry.isEligible, Bool.and_eq_true] at eligible
    exact eligible.2
  obtain ⟨file, found⟩ := Option.isSome_iff_exists.mp held
  have some : snapshot.next?.isSome = true := by
    refine List.findSome?_isSome_iff.mpr ⟨entry, member, ?_⟩
    simp only [eligible, ↓reduceIte, found, Option.map_some, Option.isSome_some]
  obtain ⟨⟨first, file⟩, next⟩ := Option.isSome_iff_exists.mp some
  exact ⟨first, file, next⟩

/--
How an inline run stands to the slot: nobody notices its end, it keeps the slot if it panicked, and
gives it up when it returns.
-/
structure Run.Placed (run : Run) (index : Nat) (holder : Option Nat) : Prop where
  unnoticed : run.noticed = false
  stuck : run.fate = .panicked → holder = some index
  freed : run.fate = .returned → holder ≠ some index

namespace Executor

variable {executor next final : Executor} {move : Move} {moves : List Move} {tuning : Tuning}
variable {snapshot : Snapshot} {path : String} {identity : Nat}

/-- What holds of an executor that runs its engines on the sender's time. -/
structure OnCaller (executor : Executor) : Prop where
  one : executor.OneTransfer
  inlined : executor.hosting = .inline
  unmarked : executor.failed = none
  bounded : ∀ {index : Nat}, executor.holder = some index → index < executor.runs.length
  placed :
    ∀ {index : Nat} {run : Run},
      executor.runs[index]? = some run → run.Placed index executor.holder

namespace OnCaller

theorem start (tuning : Tuning) : OnCaller { hosting := .inline, tuning := tuning } where
  one := .start .inline tuning
  inlined := rfl
  unmarked := rfl
  bounded slot := by cases slot
  placed found := by cases found

/-- Nobody is known to have ended, so the slot can only be had if it is free. -/
theorem holder_of_vacant
    (caller : executor.OnCaller)
    (vacant : executor.Vacant) :
    executor.holder = none := by
  cases slot : executor.holder with
  | none => rfl
  | some index =>
      obtain ⟨run, found⟩ : ∃ run, executor.runs[index]? = some run :=
        ⟨_, List.getElem?_eq_getElem (caller.bounded slot)⟩
      have held : executor.holder? = some run := by
        simp only [holder?, slot, Option.bind_some, found]
      cases (caller.placed found).unnoticed.symm.trans (vacant _ held)

theorem reap_eq (caller : executor.OnCaller) : executor.reap = executor := by
  unfold reap
  split
  case h_1 run held =>
      obtain ⟨index, _, found⟩ := Option.bind_eq_some_iff.mp held
      simp only [(caller.placed found).unnoticed, Bool.false_eq_true, ↓reduceIte]
  case h_2 => rfl

/-- While an engine runs it holds the slot. -/
theorem holder_of_running
    {index : Nat}
    {run : Run}
    (caller : executor.OnCaller)
    (found : executor.runs[index]? = some run)
    (running : run.fate = .running) :
    executor.holder = some index :=
  caller.one.holder_of_running (caller.one.open_of_inline caller.inlined) found running

/-! ### Moves -/

/-- What concerns neither the runs nor the slot keeps the invariant. -/
theorem congr
    (caller : executor.OnCaller)
    (one : next.OneTransfer)
    (runs : next.runs = executor.runs)
    (slot : next.holder = executor.holder)
    (failed : next.failed = executor.failed)
    (hosting : next.hosting = executor.hosting) :
    next.OnCaller where
  one := one
  inlined := hosting.trans caller.inlined
  unmarked := failed.trans caller.unmarked
  bounded := by rw [runs, slot]; exact caller.bounded
  placed := by rw [runs, slot]; exact caller.placed

theorem modifyRun
    {index : Nat}
    {change : Run → Run}
    (caller : executor.OnCaller)
    (one : (executor.modifyRun index change).OneTransfer)
    (changed :
      ∀ {run : Run},
        executor.runs[index]? = some run → (change run).Placed index executor.holder) :
    (executor.modifyRun index change).OnCaller where
  one := one
  inlined := caller.inlined
  unmarked := caller.unmarked
  bounded slot := by
    rw [length_modifyRun]
    exact caller.bounded slot
  placed found := by
    obtain ⟨before, member, rfl⟩ := run_of_modifyRun found
    split
    case isTrue same =>
        subst same
        exact changed member
    case isFalse => exact caller.placed member

theorem modifyEngine
    (caller : executor.OnCaller)
    (index : Nat)
    (change : Engine → Engine) :
    (executor.modifyEngine index change).OnCaller := by
  refine caller.modifyRun (caller.one.modifyEngine index change) fun {run} found => ?_
  obtain ⟨unnoticed, stuck, freed⟩ := caller.placed found
  exact ⟨unnoticed, stuck, freed⟩

/-- An engine that panics keeps the slot. -/
theorem panic
    {index : Nat}
    {run : Run}
    (caller : executor.OnCaller)
    (found : executor.runs[index]? = some run)
    (running : run.fate = .running) :
    (executor.settle index .panicked).OnCaller := by
  refine caller.modifyRun (caller.one.settle (by decide)) fun {state} member => ?_
  exact {
    unnoticed := (caller.placed member).unnoticed
    stuck := fun _ => caller.holder_of_running found running
    freed := fun fate => by cases fate }

/-- An engine that returns gives up the slot, and it was the one to hold it. -/
theorem conclude
    {index : Nat}
    {run : Run}
    (caller : executor.OnCaller)
    (found : executor.runs[index]? = some run)
    (running : run.fate = .running) :
    (executor.conclude index run.engine.path).OnCaller ∧
      (executor.conclude index run.engine.path).holder = none := by
  have slot := caller.holder_of_running found running
  have held :
      (executor.settle index .returned).holder? = some { run with fate := .returned } := by
    simp only [holder?, settle, Executor.modifyRun, slot, Option.bind_some, List.getElem?_modify,
      found]
    simp
  have freed :
      executor.conclude index run.engine.path =
        { executor.settle index .returned with holder := none } := by
    simp only [Executor.conclude, caller.inlined, release, held, beq_self_eq_true, ↓reduceIte]
  have one := caller.one.conclude found running run.engine.path
  rw [freed] at one ⊢
  refine ⟨⟨one, caller.inlined, caller.unmarked, by rintro _ ⟨⟩, ?_⟩, rfl⟩
  intro other state member
  obtain ⟨before, earlier, rfl⟩ := run_of_modifyRun member
  have placed := caller.placed earlier
  split
  case isTrue => exact ⟨placed.unnoticed, by rintro ⟨⟩, by rintro _ ⟨⟩⟩
  case isFalse different =>
      refine ⟨placed.unnoticed, fun fate => ?_, by rintro _ ⟨⟩⟩
      exact absurd (Option.some.inj (slot.symm.trans (placed.stuck fate))) different

theorem launch
    (caller : executor.OnCaller)
    (free : executor.holder = none)
    (entry : Entry)
    (file : FileHandle)
    (one : (executor.launch entry file).OneTransfer) :
    (executor.launch entry file).OnCaller where
  one := one
  inlined := caller.inlined
  unmarked := caller.unmarked
  bounded slot := by
    cases slot
    rw [length_launch]
    exact Nat.lt_succ_self _
  placed found := by
    rcases run_of_launch found with earlier | ⟨rfl, rfl⟩
    · have placed := caller.placed earlier
      refine ⟨placed.unnoticed, fun fate => ?_, fun fate same => ?_⟩
      · cases free.symm.trans (placed.stuck fate)
      · cases same
        rw [List.getElem?_eq_none (Nat.le_refl _)] at earlier
        cases earlier
    · exact ⟨rfl, by rintro ⟨⟩, by rintro ⟨⟩⟩

theorem sync
    (caller : executor.OnCaller)
    (snapshot : Snapshot) :
    (executor.sync snapshot).1.OnCaller := by
  have one := caller.one.sync (caller.one.open_of_inline caller.inlined) snapshot
  have marks : (executor.sync snapshot).1.failed = none := by
    cases marked : (executor.sync snapshot).1.failed with
    | none => rfl
    | some mark =>
        obtain ⟨path, identity⟩ := mark
        have before := failed_of_sync marked
        rw [caller.reap_eq, caller.unmarked] at before
        cases before
  have synced := synced_sync executor snapshot
  generalize (executor.sync snapshot).1 = next at synced one marks ⊢
  cases synced with
  | quiet failed slot =>
      refine caller.congr one rfl ?_ (marks.trans caller.unmarked.symm) rfl
      rcases slot with same | ⟨empty, vacant⟩
      · exact same
      · exact empty.trans (caller.holder_of_vacant vacant).symm
  | stopped =>
      rcases stopHolder_cases executor with same | ⟨index, _, stopped⟩
      · rw [same]
        exact caller
      · rw [stopped]
        exact caller.modifyEngine index _
  | started vacant =>
      have forgotten : OnCaller { executor with failed := none } :=
        caller.congr (caller.one.congr rfl rfl rfl rfl) rfl rfl caller.unmarked.symm rfl
      exact forgotten.launch (caller.holder_of_vacant vacant) _ _ one

theorem step
    (caller : executor.OnCaller)
    (step : Step executor move next) :
    next.OnCaller := by
  have one := caller.one.step step
  cases step with
  | send snapshot =>
      simp only [receive, caller.inlined]
      exact caller.sync snapshot
  | handle hosted => cases caller.inlined.symm.trans hosted
  | @act index _ act engine =>
      obtain ⟨_, _, heard⟩ := hear_frame (executor.modifyEngine index fun _ => engine) act
      rw [heard] at one ⊢
      exact (caller.modifyEngine index fun _ => engine).congr one rfl rfl rfl rfl
  | panic found running => exact caller.panic found running
  | finish found running => exact (caller.conclude found running).1
  | notice hosted => cases caller.inlined.symm.trans hosted
  | deliver taken =>
      obtain ⟨_, _, rfl⟩ := takeEvent_eq_some taken
      exact caller.congr one rfl rfl rfl rfl
  | shutDown =>
      simp only [requestShutdown, caller.inlined]
      exact caller
  | close hosted => cases caller.inlined.symm.trans hosted

theorem of_trace
    (run : Trace Step { hosting := .inline, tuning := tuning } moves final) :
    final.OnCaller :=
  run.invariant (.start tuning) OnCaller.step

/-! ### What the slot comes to -/

/-- Once every engine has returned the slot is free. -/
theorem holder_of_returned
    (caller : executor.OnCaller)
    (returned : ∀ run ∈ executor.runs, run.fate = .returned) :
    executor.holder = none := by
  cases slot : executor.holder with
  | none => rfl
  | some index =>
      have found := List.getElem?_eq_getElem (caller.bounded slot)
      have fate := returned _ (List.getElem_mem (caller.bounded slot))
      exact absurd slot ((caller.placed found).freed fate)

/-- A free slot is filled by the next snapshot that has seen all reports. -/
theorem launched_of_receive
    {entry : Entry}
    {file : FileHandle}
    (caller : executor.OnCaller)
    (free : executor.holder = none)
    (first : snapshot.next? = some (entry, file))
    (current : executor.emitted ≤ snapshot.reportsSeen) :
    (executor.receive snapshot).runs = executor.runs ++ [executor.runOf entry file] ∧
      (executor.receive snapshot).holder = some executor.runs.length := by
  simp only [receive, caller.inlined]
  refine launched_of_sync (vacant_of_free (holder?_eq_none free)) first current ?_
  rw [caller.reap_eq, caller.unmarked]
  rintro ⟨⟩

theorem holder_of_panicked
    (caller : executor.OnCaller)
    (panicked : executor.Panicked path identity) :
    executor.holder ≠ none := by
  obtain ⟨index, run, found, fate, _⟩ := panicked
  rw [(caller.placed found).stuck fate]
  rintro ⟨⟩

/-- After a panic no move starts an engine. -/
theorem length_of_panicked
    (caller : executor.OnCaller)
    (panicked : executor.Panicked path identity)
    (step : Step executor move next) :
    next.runs.length = executor.runs.length := by
  rcases step.length caller.one with same | ⟨_, _, vacant⟩
  · exact same
  · exact absurd (caller.holder_of_vacant vacant) (caller.holder_of_panicked panicked)

/-- The slot of an engine that panicked stays taken, whatever happens next. -/
theorem after_panic
    {further : List Move}
    (caller : executor.OnCaller)
    (panicked : executor.Panicked path identity)
    (continued : Trace Step executor further final) :
    final.OnCaller ∧ final.Panicked path identity ∧
      final.runs.length = executor.runs.length := by
  induction continued with
  | refl => exact ⟨caller, panicked, rfl⟩
  | snoc _ last earlier =>
      obtain ⟨caller, panicked, same⟩ := earlier
      exact ⟨caller.step last, last.panicked panicked,
        (caller.length_of_panicked panicked last).trans same⟩

end OnCaller

/--
Once every engine that an inline executor started has returned, its slot is free, and a snapshot
that has seen all reports and has an eligible entry starts an engine for its first one.  The slot of
an engine that panicked is never freed: whatever is sent afterwards, no engine is started any more.
-/
theorem slot_freed_by_return
    (run : Trace Step { hosting := .inline, tuning := tuning } moves final) :
    ((∀ state ∈ final.runs, state.fate = .returned) →
        final.holder = none ∧
          ∀ snapshot : Snapshot,
            final.emitted ≤ snapshot.reportsSeen →
              (∃ entry ∈ snapshot.entries, entry.isEligible = true) →
                ∃ entry file,
                  snapshot.next? = some (entry, file) ∧
                    (final.receive snapshot).runs = final.runs ++ [final.runOf entry file] ∧
                    (final.receive snapshot).holder = some final.runs.length) ∧
      ∀ (path : String) (identity : Nat),
        final.Panicked path identity →
          ∀ (further : List Move) (later : Executor),
            Trace Step final further later →
              later.holder ≠ none ∧ later.runs.length = final.runs.length := by
  have caller := OnCaller.of_trace run
  constructor
  · intro returned
    have free := caller.holder_of_returned returned
    refine ⟨free, fun snapshot current ⟨entry, member, eligible⟩ => ?_⟩
    obtain ⟨first, file, next⟩ := Snapshot.exists_next? member eligible
    exact ⟨first, file, next, caller.launched_of_receive free next current⟩
  · intro path identity panicked further later continued
    obtain ⟨still, stuck, same⟩ := caller.after_panic panicked continued
    exact ⟨still.holder_of_panicked stuck, same⟩

/-- An upload of one byte for which the next snapshot is sent after the engine has returned. -/
def returning : List Move :=
  [ .send ⟨[.ofFile ⟨0, .ofBytes [1]⟩ "first"], 0⟩,
    .act 0 (.create (.ok (Response.success ⟨"first", 1⟩))), .act 0 .check, .act 0 (.read (.ok [1])),
    .act 0 (.chunk 0 "AQ==" (.ok (Response.success ⟨"first", 1, 1⟩))), .act 0 .check,
    .act 0 (.report ⟨"first", 1, false, ""⟩), .finish 0 ]

/-- The same upload, with an engine that panics in its chunk call. -/
def unwinding : List Move :=
  [ .send ⟨[.ofFile ⟨0, .ofBytes [1]⟩ "first"], 0⟩,
    .act 0 (.create (.ok (Response.success ⟨"first", 1⟩))), .act 0 .check, .act 0 (.read (.ok [1])),
    .panic 0 ]

/-- A snapshot of another file. -/
def another (reportsSeen : Nat) : Snapshot :=
  ⟨[.ofFile ⟨1, .ofBytes [2]⟩ "second"], reportsSeen⟩

/-- After a run of the first kind another file is started, after one of the second it is not. -/
theorem slot_freed_or_leaked :
    (∃ final,
      Trace Step { hosting := .inline, tuning := Config.tuning {} } returning final ∧
        (∀ state ∈ final.runs, state.fate = .returned) ∧
        ∃ entry file,
          (another 1).next? = some (entry, file) ∧
            (final.receive (another 1)).runs = final.runs ++ [final.runOf entry file]) ∧
      ∃ final later,
        Trace Step { hosting := .inline, tuning := Config.tuning {} } unwinding final ∧
          final.Panicked "first" 0 ∧
          Trace Step final [.send (another 0)] later ∧
          later.runs.length = final.runs.length := by
  constructor
  · have counted :
        (returning.foldlM move? { hosting := .inline, tuning := Config.tuning {} }).map
            (fun final => (final.runs.map (·.fate), final.emitted)) =
          some ([.returned], 1) := by
      decide
    obtain ⟨final, made, seen⟩ := Option.map_eq_some_iff.mp counted
    obtain ⟨fates, emitted⟩ := Prod.mk.inj seen
    have run := Trace.of_foldlM Step step_of_move? made
    have returned : ∀ state ∈ final.runs, state.fate = .returned := by
      intro state member
      have listed := List.mem_map_of_mem (f := (·.fate)) member
      rw [fates, List.mem_singleton] at listed
      exact listed
    obtain ⟨entry, file, first, started, _⟩ :=
      ((slot_freed_by_return run).1 returned).2 (another 1) (Nat.le_of_eq emitted)
        ⟨_, List.mem_singleton_self _, by decide⟩
    exact ⟨final, run, returned, entry, file, first, started⟩
  · have counted :
        (unwinding.foldlM move? { hosting := .inline, tuning := Config.tuning {} }).map
            (fun final =>
              final.runs.map fun run => (run.fate, run.engine.path, run.engine.file.identity)) =
          some [(.panicked, "first", 0)] := by
      decide
    obtain ⟨final, made, seen⟩ := Option.map_eq_some_iff.mp counted
    have run := Trace.of_foldlM Step step_of_move? made
    have panicked : final.Panicked "first" 0 := by
      obtain ⟨state, rest, runs, first, _⟩ := List.map_eq_cons_iff.mp seen
      simp only [Prod.mk.injEq] at first
      exact ⟨0, state, by rw [runs]; rfl, first⟩
    have sent : Trace Step final [.send (another 0)] _ := Trace.snoc .refl (.send _)
    exact ⟨final, _, run, panicked, sent,
      ((slot_freed_by_return run).2 "first" 0 panicked _ _ sent).2⟩

/--
The engine of the first file has panicked and no engine runs, but a snapshot that has seen all
reports, with an eligible entry of another path and file, starts nothing.
-/
theorem panic_blocks_other_files :
    ∃ final,
      Trace Step { hosting := .inline, tuning := Config.tuning {} } unwinding final ∧
        (∀ state ∈ final.runs, state.fate ≠ .running) ∧
        final.emitted ≤ (another 0).reportsSeen ∧
        (∃ entry file,
          (another 0).next? = some (entry, file) ∧ entry.isEligible = true ∧
            ¬ final.Panicked entry.path file.identity) ∧
        final.holder = some 0 ∧
        (final.receive (another 0)).runs.length = final.runs.length := by
  have counted :
      (unwinding.foldlM move? { hosting := .inline, tuning := Config.tuning {} }).map
          (fun final =>
            (final.runs.map (fun run => (run.fate, run.engine.path)), final.emitted, final.holder,
              (final.receive (another 0)).runs.length)) =
        some ([(.panicked, "first")], 0, some 0, 1) := by
    decide
  obtain ⟨final, made, seen⟩ := Option.map_eq_some_iff.mp counted
  simp only [Prod.mk.injEq] at seen
  obtain ⟨fates, emitted, slot, started⟩ := seen
  have only : ∀ state ∈ final.runs, state.fate = .panicked ∧ state.engine.path = "first" := by
    intro state member
    have listed := List.mem_map_of_mem (f := fun run => (run.fate, run.engine.path)) member
    rw [fates, List.mem_singleton] at listed
    exact Prod.mk.inj listed
  refine ⟨final, Trace.of_foldlM Step step_of_move? made, ?_, Nat.le_of_eq emitted, ?_, slot, ?_⟩
  · intro state member running
    cases (only state member).1.symm.trans running
  · refine ⟨_, _, rfl, by decide, ?_⟩
    rintro ⟨index, state, found, _, path, _⟩
    have first := (only state (List.mem_of_getElem? found)).2
    exact absurd (first.symm.trans path) (by decide)
  · have length := congrArg List.length fates
    rw [List.length_map] at length
    rw [started, length]
    rfl

end Executor

end ResumableUpload
