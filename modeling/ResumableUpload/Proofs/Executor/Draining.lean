import ResumableUpload.Proofs.Executor.Starts

/-!
# Draining

Once a snapshot was handled, every engine at work either keeps the slot under it or was told to stop
(`told_of_sync`).  An engine that was told to stop sends at most the chunk that it has begun to read:
what becomes of it in a move (`Goes`) never begins another one.
-/

namespace ResumableUpload

/-- Whatever keeps the slot under a snapshot is wanted by it. -/
theorem Snapshot.wants_of_keeps
    {snapshot : Snapshot}
    {path : String}
    (kept : Executor.keeps snapshot path = true) :
    snapshot.wants path = true := by
  unfold Executor.keeps at kept
  split at kept
  case h_1 first => exact wants_of_next? first (beq_iff_eq.mp kept)
  case h_2 => exact kept

namespace Executor

variable {executor next : Executor} {move : Move} {snapshot : Snapshot} {engine : Engine}

/-! ## Handling a snapshot -/

theorem keeps_of_fill
    (idle : ∀ {engine : Engine}, ¬ executor.AtWork engine)
    (atWork : (executor.fill snapshot).1.AtWork engine) :
    keeps snapshot engine.path = true := by
  rcases fill_cases executor snapshot with ⟨failed, left⟩ | ⟨entry, file, first, _, filled⟩
  · rw [left] at atWork
    exact absurd atWork idle
  · rw [filled] at atWork
    obtain ⟨index, run, found, running, rfl, going⟩ := atWork
    rcases run_of_launch found with earlier | ⟨_, rfl⟩
    · exact absurd ⟨index, run, earlier, running, rfl, going⟩ idle
    · unfold keeps
      rw [first]
      exact beq_self_eq_true _

/-- Whoever is at work after a snapshot was handled was told to stop, or keeps the slot under it. -/
theorem told_of_sync
    (one : OneTransfer executor)
    (working : executor.closed = false)
    (atWork : (executor.sync snapshot).1.AtWork engine) :
    engine.stopRequested = true ∨ keeps snapshot engine.path = true := by
  unfold sync at atWork
  rcases reap_cases executor with ⟨same, _⟩ | ⟨vacant, failed, freed⟩
  · simp only [same] at atWork
    split at atWork
    case h_1 run held =>
        split at atWork
        case isTrue kept =>
            obtain ⟨index, other, found, running, rfl, _⟩ := atWork
            have slot := one.holder_of_running working found running
            simp only [holder?, slot, Option.bind_some] at held
            cases found.symm.trans held
            exact Bool.or_eq_true_iff.mp kept
        case isFalse =>
            obtain ⟨index, atWork⟩ := atWork
            obtain ⟨_, ⟨run, found, running, _⟩, rfl⟩ := Working.of_stopHolder atWork
            rw [if_pos (one.holder_of_running working found running)]
            exact .inl rfl
    case h_2 free =>
        exact .inr (keeps_of_fill (one.idle working (vacant_of_free free)) atWork)
  · have free : executor.reap.holder? = none := by
      rw [freed]
      rfl
    simp only [free] at atWork
    refine .inr (keeps_of_fill ?_ atWork)
    rw [freed]
    exact one.idle working vacant

theorem Step.told_of_handles
    (step : Step executor move next)
    (one : OneTransfer executor)
    (handles : executor.Handles move snapshot)
    (atWork : next.AtWork engine) :
    engine.stopRequested = true ∨ keeps snapshot engine.path = true := by
  cases handles with
  | inlined inlined =>
      cases step with
      | send =>
          unfold receive at atWork
          simp only [inlined] at atWork
          exact told_of_sync one (one.open_of_inline inlined) atWork
  | @queued _ rest hosted waiting =>
      cases step with
      | handle _ working =>
          unfold handleNext at atWork
          simp only [waiting] at atWork
          have left : OneTransfer { executor with requests := rest } :=
            one.congr rfl rfl rfl rfl
          exact told_of_sync left working atWork

/-! ## What becomes of an engine -/

/-- What becomes of the engine of a run in a move: it stays as it is, is told to stop, or acts. -/
inductive Goes (move : Move) (index : Nat) (before : Engine) : Engine → Prop where
  | stays (still : ∀ act, move ≠ .act index act) : Goes move index before before
  | told (still : ∀ act, move ≠ .act index act) : Goes move index before before.requestStop
  | acts {act : Engine.Act} {after : Engine}
      (acting : move = .act index act)
      (step : Engine.Step before act after) :
      Goes move index before after

theorem Goes.path_eq
    {index : Nat}
    {after : Engine}
    (goes : Goes move index engine after) :
    after.path = engine.path := by
  cases goes with
  | stays => rfl
  | told => rfl
  | acts _ step => exact step.path_eq

theorem Goes.stopRequested
    {index : Nat}
    {after : Engine}
    (goes : Goes move index engine after)
    (told : engine.stopRequested = true) :
    after.stopRequested = true := by
  cases goes with
  | stays => exact told
  | told => rfl
  | acts _ step => exact step.stopRequested_eq.trans told

/-- An engine that was told to stop does not begin to read a chunk. -/
theorem Goes.committed
    {index : Nat}
    {after : Engine}
    (goes : Goes move index engine after)
    (told : engine.stopRequested = true)
    (committed : after.Committed) :
    engine.Committed := by
  cases goes with
  | stays => exact committed
  | told => exact committed
  | acts _ step => exact step.committed_of_told told committed

/-- An engine at work is one that was at work before, or the one that a snapshot has started. -/
theorem Step.working
    {index : Nat}
    {after : Engine}
    (step : Step executor move next)
    (working : next.Working index after) :
    (∃ before, executor.Working index before ∧ Goes move index before after) ∨
      ∃ snapshot entry file,
        executor.Handles move snapshot ∧ snapshot.next? = some (entry, file) ∧
          after = (executor.runOf entry file).engine := by
  have still (quiet : move.isAct = false) : ∀ act, move ≠ .act index act := by
    rintro act rfl
    cases quiet
  cases step.touches with
  | untouched quiet runs => exact .inl ⟨after, working.of_runs runs, .stays (still quiet)⟩
  | @acted other run act engine _ found running acts runs =>
      refine .inl ?_
      obtain ⟨changed, member, alive, rfl, going⟩ := working.of_runs runs
      obtain ⟨before, earlier, rfl⟩ := run_of_modifyRun member
      by_cases same : other = index
      · subst same
        cases found.symm.trans earlier
        rw [if_pos rfl]
        exact ⟨run.engine, ⟨run, found, running, rfl, acts.not_ended⟩, .acts rfl acts⟩
      · rw [if_neg same] at alive going ⊢
        refine ⟨before.engine, ⟨before, earlier, alive, rfl, going⟩, .stays ?_⟩
        rintro act ⟨⟩
        exact same rfl
  | told quiet runs =>
      obtain ⟨before, earlier, rfl⟩ := (working.of_runs runs).of_stopHolder
      refine .inl ⟨before, earlier, ?_⟩
      split
      · exact .told (still quiet)
      · exact .stays (still quiet)
  | panicked runs =>
      have before := (working.of_runs runs).of_modifyRun (fun _ => rfl) (by rintro _ ⟨⟩)
      exact .inl ⟨after, before, .stays (still rfl)⟩
  | returned quiet _ _ _ runs =>
      have before := (working.of_runs runs).of_modifyRun (fun _ => rfl) (by rintro _ ⟨⟩)
      exact .inl ⟨after, before, .stays (still quiet)⟩
  | noticed quiet runs =>
      have before := (working.of_runs runs).of_modifyRun (fun _ => rfl) fun _ running => running
      exact .inl ⟨after, before, .stays (still quiet)⟩
  | @launched _ _ snapshot entry file handles first current runs =>
      have launched : (executor.launch entry file).Working index after := working.of_runs runs
      obtain ⟨run, found, running, rfl, going⟩ := launched
      rcases run_of_launch found with earlier | ⟨_, rfl⟩
      · exact .inl ⟨run.engine, ⟨run, earlier, running, rfl, going⟩, .stays (still handles.isAct)⟩
      · exact .inr ⟨snapshot, entry, file, handles, first, rfl⟩

/-! ## Chunks that are still sent -/

/-- The run whose engine sends a chunk in a move. -/
def Move.sender? : Move → Option Nat
  | .act run (.chunk ..) => some run
  | _ => none

/-- Those of the runs that are for paths of one kind. -/
def ofKind (executor : Executor) (kind : String → Bool) (sent : List Nat) : List Nat :=
  sent.filter fun index => (executor.started[index]?).any kind

/-- Whoever sends a chunk has looked whether to stop, and then nobody has until the next look. -/
theorem Step.sender
    {index : Nat}
    (step : Step executor move next)
    (one : OneTransfer executor)
    (sends : move.sender? = some index) :
    ∃ before,
      executor.Working index before ∧ before.Committed ∧
        ∀ {other : Nat} {after : Engine}, next.Working other after → ¬ after.Committed := by
  have stepped := step
  cases step with
  | @act run state act engine found running step =>
      cases act with
      | chunk =>
          cases sends
          refine ⟨state.engine, ⟨state, found, running, rfl, step.not_ended⟩,
            step.committed_of_chunk.1, ?_⟩
          intro other after working
          rcases stepped.working working with ⟨_, earlier, goes⟩ | ⟨_, _, _, handles, _⟩
          · obtain ⟨_, member, alive, _⟩ := earlier
            have newest := one.newest found running
            obtain rfl : other = index := Nat.succ.inj ((one.newest member alive).trans newest.symm)
            cases goes with
            | stays still => exact absurd rfl (still _)
            | told still => exact absurd rfl (still _)
            | acts acting act =>
                cases acting
                exact act.committed_of_chunk.2
          · cases handles
      | create | read | status | report | check | wait => cases sends
  | send | handle | panic | finish | notice | deliver | shutDown | close => cases sends

/--
Every engine for a path of this kind was told to stop, and of the chunks that were sent since `start`
at most one is for such a path, from an engine that had looked whether to stop before.
-/
structure Winds
    (kind : String → Bool)
    (start : Executor)
    (sent : List Nat)
    (executor : Executor) : Prop where
  one : OneTransfer executor
  told :
    ∀ {engine : Engine}, executor.AtWork engine → kind engine.path = true →
      engine.stopRequested = true
  early : ∀ index ∈ sent, index < executor.runs.length
  /-- Whoever has yet to send a chunk was about to do so at the start. -/
  origin :
    ∀ {index : Nat} {engine : Engine},
      executor.Working index engine → kind engine.path = true → engine.Committed →
        ∃ first, start.Working index first ∧ first.Committed
  senders :
    ∀ index ∈ executor.ofKind kind sent, ∃ first, start.Working index first ∧ first.Committed
  single : (executor.ofKind kind sent).length ≤ 1
  last :
    executor.ofKind kind sent ≠ [] →
      ∀ {index : Nat} {engine : Engine},
        executor.Working index engine → kind engine.path = true → ¬ engine.Committed

namespace Winds

variable {kind : String → Bool} {start : Executor} {sent : List Nat}

theorem start_of_told
    (one : OneTransfer executor)
    (told :
      ∀ {engine : Engine}, executor.AtWork engine → kind engine.path = true →
        engine.stopRequested = true) :
    Winds kind executor [] executor where
  one := one
  told := told
  early := by rintro _ ⟨⟩
  origin working _ committed := ⟨_, working, committed⟩
  senders := by rintro _ ⟨⟩
  single := Nat.zero_le 1
  last some := absurd rfl some

/-- An engine of this kind comes from one that was told to stop, since none is started. -/
theorem before_of_working
    {index : Nat}
    {after : Engine}
    (winds : Winds kind start sent executor)
    (step : Step executor move next)
    (spared :
      ∀ {snapshot : Snapshot} {entry : Entry} {file : FileHandle},
        executor.Handles move snapshot → snapshot.next? = some (entry, file) →
          kind entry.path = false)
    (working : next.Working index after)
    (here : kind after.path = true) :
    ∃ before,
      executor.Working index before ∧ kind before.path = true ∧ before.stopRequested = true ∧
        Goes move index before after := by
  rcases step.working working with ⟨before, earlier, goes⟩ | ⟨_, _, _, handles, first, rfl⟩
  · rw [goes.path_eq] at here
    exact ⟨before, earlier, here, winds.told ⟨index, earlier⟩ here, goes⟩
  · have elsewhere := spared handles first
    cases here.symm.trans elsewhere

theorem ofKind_eq
    (winds : Winds kind start sent executor)
    (step : Step executor move next) :
    next.ofKind kind sent = executor.ofKind kind sent := by
  apply List.filter_congr
  intro index member
  obtain ⟨further, same⟩ := step.started_prefix
  have early := winds.early index member
  rw [← same, List.getElem?_append_left]
  simpa only [started, List.length_map] using early

theorem ofKind_concat
    {sender : Nat}
    (winds : Winds kind start sent executor)
    (step : Step executor move next)
    (working : executor.Working sender engine) :
    next.ofKind kind (sent ++ [sender]) =
      executor.ofKind kind sent ++ if kind engine.path then [sender] else [] := by
  obtain ⟨run, found, _, held, _⟩ := working
  obtain ⟨further, same⟩ := step.started_prefix
  have here : executor.started[sender]? = some engine.path :=
    started_of_engine? (by rw [engine?, found, Option.map_some, held])
  have path : next.started[sender]? = some engine.path := by
    rw [← same, List.getElem?_append_left (List.getElem?_eq_some_iff.mp here).1, here]
  rw [← winds.ofKind_eq step]
  unfold ofKind
  rw [List.filter_append, List.filter_cons, path, Option.any_some, List.filter_nil]

/-- The first of this kind to send a chunk is the only one. -/
theorem sends
    {sender : Nat}
    (winds : Winds kind start sent executor)
    (working : executor.Working sender engine)
    (committed : engine.Committed) :
    (∀ index ∈ executor.ofKind kind sent ++ if kind engine.path then [sender] else [],
        ∃ first, start.Working index first ∧ first.Committed) ∧
      (executor.ofKind kind sent ++ if kind engine.path then [sender] else []).length ≤ 1 := by
  by_cases here : kind engine.path = true
  · have unsent : executor.ofKind kind sent = [] := by
      apply Decidable.byContradiction
      intro some
      exact winds.last some working here committed
    rw [unsent, if_pos here, List.nil_append]
    refine ⟨?_, Nat.le_refl 1⟩
    intro index member
    rw [List.mem_singleton.mp member]
    exact winds.origin working here committed
  · rw [if_neg here, List.append_nil]
    exact ⟨winds.senders, winds.single⟩

theorem step
    (winds : Winds kind start sent executor)
    (step : Step executor move next)
    (spared :
      ∀ {snapshot : Snapshot} {entry : Entry} {file : FileHandle},
        executor.Handles move snapshot → snapshot.next? = some (entry, file) →
          kind entry.path = false) :
    Winds kind start (sent ++ move.sender?.toList) next := by
  have longer : executor.runs.length ≤ next.runs.length := by
    rcases step.length winds.one with same | ⟨more, _⟩ <;> omega
  have told : ∀ {engine : Engine}, next.AtWork engine → kind engine.path = true →
      engine.stopRequested = true := by
    rintro engine ⟨index, working⟩ here
    obtain ⟨_, _, _, before, goes⟩ := winds.before_of_working step spared working here
    exact goes.stopRequested before
  have origin : ∀ {index : Nat} {engine : Engine},
      next.Working index engine → kind engine.path = true → engine.Committed →
        ∃ first, start.Working index first ∧ first.Committed := by
    intro index engine working here committed
    obtain ⟨_, earlier, about, before, goes⟩ := winds.before_of_working step spared working here
    exact winds.origin earlier about (goes.committed before committed)
  have still : executor.ofKind kind sent ≠ [] →
      ∀ {index : Nat} {engine : Engine},
        next.Working index engine → kind engine.path = true → ¬ engine.Committed := by
    intro some index engine working here committed
    obtain ⟨_, earlier, about, before, goes⟩ := winds.before_of_working step spared working here
    exact winds.last some earlier about (goes.committed before committed)
  cases sends : move.sender? with
  | none =>
      rw [Option.toList_none, List.append_nil]
      have same := winds.ofKind_eq step
      refine ⟨winds.one.step step, told, ?_, origin, ?_, ?_, ?_⟩
      · intro index member
        exact Nat.lt_of_lt_of_le (winds.early index member) longer
      · exact same ▸ winds.senders
      · exact same ▸ winds.single
      · exact same ▸ still
  | some sender =>
      obtain ⟨before, working, committed, looks⟩ := step.sender winds.one sends
      obtain ⟨senders, single⟩ := winds.sends working committed
      rw [← winds.ofKind_concat step working] at senders single
      refine ⟨winds.one.step step, told, ?_, origin, senders, single,
        fun _ _ _ working _ => looks working⟩
      intro index member
      rcases List.mem_append.mp member with earlier | last
      · exact Nat.lt_of_lt_of_le (winds.early index earlier) longer
      · obtain ⟨run, found, _⟩ := working
        rw [List.mem_singleton.mp last]
        exact Nat.lt_of_lt_of_le (List.getElem?_eq_some_iff.mp found).1 longer

end Winds

end Executor

end ResumableUpload
