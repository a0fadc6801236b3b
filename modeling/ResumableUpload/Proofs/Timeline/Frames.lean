import ResumableUpload.Proofs.Executor.Slot
import ResumableUpload.Proofs.Session.Moves
import ResumableUpload.Timeline.Play

/-!
# What the threads of a timeline rely on

A thread is parted from its own work by what other threads do in between.  Each of its frames relies
on something about the executor that only it changes (`Frame.Relies`): an engine that it drives is
running, in the phase in which its call is under way, and an engine whose end it waits for has not been
noticed.  So no two frames of all threads may drive or watch the same engine; `Attends` is both.
-/

namespace ResumableUpload

/-! ## Engines that others leave alone -/

/-- What only who drives an engine changes. -/
def Run.work (run : Run) : Fate × Engine.Phase :=
  (run.fate, run.engine.phase)

namespace Executor

variable {executor middle next : Executor} {index other : Nat} {View : Type} {view : Run → View}

/-- Something about an engine that was started is as it was. -/
def Keeps (view : Run → View) (executor next : Executor) (index : Nat) : Prop :=
  ∀ run, executor.runs[index]? = some run →
    ∃ after, next.runs[index]? = some after ∧ view after = view run

theorem Keeps.of_runs (runs : next.runs = executor.runs) : Keeps view executor next index :=
  fun run found => ⟨run, runs ▸ found, rfl⟩

theorem Keeps.trans
    (before : Keeps view executor middle index)
    (after : Keeps view middle next index) :
    Keeps view executor next index := by
  intro run found
  obtain ⟨between, found, same⟩ := before run found
  obtain ⟨last, found, also⟩ := after between found
  exact ⟨last, found, also.trans same⟩

/-- What changes one engine leaves the others alone. -/
theorem keeps_of_ne
    (elsewhere : other ≠ index)
    (change : Run → Run) :
    Keeps view executor (executor.modifyRun other change) index := by
  intro run found
  refine ⟨run, ?_, rfl⟩
  exact (List.getElem?_modify_ne change executor.runs elsewhere).trans found

theorem keeps_modifyRun
    (change : Run → Run)
    (same : ∀ run, view (change run) = view run) :
    Keeps view executor (executor.modifyRun other change) index := by
  intro run found
  by_cases here : other = index
  · refine ⟨change run, ?_, same run⟩
    simp only [modifyRun, here, List.getElem?_modify_eq, found, Option.map_eq_map, Option.map_some]
  · exact keeps_of_ne here change run found

theorem keeps_stopHolder
    (same : ∀ run : Run, view { run with engine := run.engine.requestStop } = view run) :
    Keeps view executor executor.stopHolder index := by
  rcases stopHolder_cases executor with still | ⟨holder, _, stopped⟩
  · exact .of_runs (congrArg runs still)
  · rw [stopped]
    exact keeps_modifyRun _ same

theorem keeps_sync
    (same : ∀ run : Run, view { run with engine := run.engine.requestStop } = view run)
    (snapshot : Snapshot) :
    Keeps view executor (executor.sync snapshot).1 index := by
  have synced := synced_sync executor snapshot
  generalize (executor.sync snapshot).1 = next at synced ⊢
  cases synced with
  | quiet => exact .of_runs rfl
  | stopped => exact keeps_stopHolder same
  | started =>
      intro run found
      exact ⟨run, List.getElem?_append_left (List.getElem?_eq_some_iff.mp found).1 ▸ found, rfl⟩

end Executor

namespace Timeline

/-! ## Frames -/

/-- Whether a step is one that a user of a session can do, or the endpoint, or the clock. -/
def Step.isCall : Step → Bool
  | .reconcile _ | .event _ | .send _ | .spawnSend _ | .cancel => false
  | _ => true

/-- The engine for whose end a frame waits. -/
def Frame.watched? : Frame → Option Nat
  | .supervise run => some run
  | _ => none

/-- The engines for whose ends a thread waits. -/
def watchedRuns (frames : List Frame) : List Nat :=
  frames.filterMap Frame.watched?

/-- What a frame relies on until it is worked off. -/
def Frame.Relies (executor : Executor) : Frame → Prop
  | .drive run _ => ∃ state, executor.runs[run]? = some state ∧ state.fate = .running
  | .answer run _ _ =>
    ∃ state, executor.runs[run]? = some state ∧ state.fate = .running ∧
      ∃ content, state.engine.phase = .sending content
  | .supervise run =>
    executor.hosting = .background ∧
      ∃ state, executor.runs[run]? = some state ∧ state.noticed = false
  | .work => executor.hosting = .background
  | .steps _ rest _ => ∀ step ∈ rest, step.isCall = true
  | .sends _ => False
  | _ => True

/-- What a frame relies on stays while the engines that it drives or watches are left alone. -/
theorem Frame.Relies.keeps
    {executor next : Executor}
    {frame : Frame}
    (relies : frame.Relies executor)
    (hosting : next.hosting = executor.hosting)
    (works : ∀ run, frame.driven? = some run → executor.Keeps Run.work next run)
    (watches : ∀ run, frame.watched? = some run → executor.Keeps Run.noticed next run) :
    frame.Relies next := by
  cases frame with
  | drive run announced =>
      obtain ⟨state, found, running⟩ := relies
      obtain ⟨after, found, same⟩ := works run rfl state found
      exact ⟨after, found, (congrArg Prod.fst same).trans running⟩
  | answer run call due =>
      obtain ⟨state, found, running, content, phase⟩ := relies
      obtain ⟨after, found, same⟩ := works run rfl state found
      exact ⟨after, found, (congrArg Prod.fst same).trans running, content,
        (congrArg Prod.snd same).trans phase⟩
  | supervise run =>
      obtain ⟨hosted, state, found, unnoticed⟩ := relies
      obtain ⟨after, found, same⟩ := watches run rfl state found
      exact ⟨hosting.trans hosted, after, found, same.trans unnoticed⟩
  | work => exact hosting.trans relies
  | steps | sends => exact relies
  | await | answerStep | ticks | dispatch | metronome => trivial

theorem Frame.Relies.running
    {executor : Executor}
    {frame : Frame}
    {run : Nat}
    (relies : frame.Relies executor)
    (drives : frame.driven? = some run) :
    ∃ state, executor.runs[run]? = some state ∧ state.fate = .running := by
  cases frame with
  | drive => cases drives; exact relies
  | answer =>
      cases drives
      obtain ⟨state, found, running, _⟩ := relies
      exact ⟨state, found, running⟩
  | _ => cases drives

/-- What all frames of a timeline of a session rely on. -/
structure Attends (timeline : Timeline) (frames : List Frame) : Prop where
  whole : ∃ heard, timeline.subject = .session heard
  observed : ∀ observer ∈ timeline.observers, ∀ step ∈ observer.steps, step.isCall = true
  relies : ∀ frame ∈ frames, frame.Relies timeline.session.executor
  driven : (drivenRuns frames).Nodup
  watched : (watchedRuns frames).Nodup

namespace Attends

variable {timeline next : Timeline} {frame other : Frame} {frames others : List Frame} {run : Nat}

theorem perm
    (attends : timeline.Attends frames)
    (same : frames.Perm others) :
    timeline.Attends others where
  whole := attends.whole
  observed := attends.observed
  relies frame member := attends.relies frame (same.mem_iff.mpr member)
  driven := (same.filterMap _).nodup_iff.mp attends.driven
  watched := (same.filterMap _).nodup_iff.mp attends.watched

theorem sublist
    (attends : timeline.Attends frames)
    (fewer : List.Sublist others frames) :
    timeline.Attends others where
  whole := attends.whole
  observed := attends.observed
  relies frame member := attends.relies frame (fewer.mem member)
  driven := (fewer.filterMap _).nodup attends.driven
  watched := (fewer.filterMap _).nodup attends.watched

theorem tail (attends : timeline.Attends (frame :: frames)) : timeline.Attends frames :=
  attends.sublist (List.sublist_cons_self frame frames)

theorem head (attends : timeline.Attends (frame :: frames)) :
    frame.Relies timeline.session.executor :=
  attends.relies frame List.mem_cons_self

/-- Nobody else drives an engine that a frame drives. -/
theorem driven_once
    (attends : timeline.Attends (frame :: frames))
    (drives : frame.driven? = some run) :
    run ∉ drivenRuns frames := by
  have once := attends.driven
  rw [drivenRuns, List.filterMap_cons_some drives] at once
  exact (List.nodup_cons.mp once).1

/-- Nobody else waits for the end of an engine for which a frame waits. -/
theorem watched_once
    (attends : timeline.Attends (frame :: frames))
    (watches : frame.watched? = some run) :
    run ∉ watchedRuns frames := by
  have once := attends.watched
  rw [watchedRuns, List.filterMap_cons_some watches] at once
  exact (List.nodup_cons.mp once).1

theorem cons
    (attends : timeline.Attends frames)
    (relies : frame.Relies timeline.session.executor)
    (driven : ∀ run, frame.driven? = some run → run ∉ drivenRuns frames)
    (watched : ∀ run, frame.watched? = some run → run ∉ watchedRuns frames) :
    timeline.Attends (frame :: frames) where
  whole := attends.whole
  observed := attends.observed
  relies := List.forall_mem_cons.mpr ⟨relies, attends.relies⟩
  driven := by
    rw [drivenRuns, List.filterMap_cons]
    split
    case h_1 => exact attends.driven
    case h_2 run drives => exact List.nodup_cons.mpr ⟨driven run drives, attends.driven⟩
  watched := by
    rw [watchedRuns, List.filterMap_cons]
    split
    case h_1 => exact attends.watched
    case h_2 run watches => exact List.nodup_cons.mpr ⟨watched run watches, attends.watched⟩

/-- A frame that has nothing to do with an engine. -/
theorem cons_free
    (attends : timeline.Attends frames)
    (relies : frame.Relies timeline.session.executor)
    (driven : frame.driven? = none)
    (watched : frame.watched? = none) :
    timeline.Attends (frame :: frames) :=
  attends.cons relies (fun _ drives => nomatch driven.symm.trans drives)
    (fun _ watches => nomatch watched.symm.trans watches)

/-- A frame in the place of another one that has to do with the same engine. -/
theorem replace
    (attends : timeline.Attends (frame :: frames))
    (relies : other.Relies timeline.session.executor)
    (driven : other.driven? = frame.driven?)
    (watched : other.watched? = frame.watched?) :
    timeline.Attends (other :: frames) :=
  attends.tail.cons relies
    (fun _ drives => attends.driven_once (driven.symm.trans drives))
    (fun _ watches => attends.watched_once (watched.symm.trans watches))

/-- What leaves alone the engines that frames drive or watch. -/
theorem keeps
    (attends : timeline.Attends frames)
    (subject : next.subject = timeline.subject)
    (observers : next.observers = timeline.observers)
    (hosting : next.session.executor.hosting = timeline.session.executor.hosting)
    (works : ∀ run ∈ drivenRuns frames,
      timeline.session.executor.Keeps Run.work next.session.executor run)
    (watches : ∀ run ∈ watchedRuns frames,
      timeline.session.executor.Keeps Run.noticed next.session.executor run) :
    next.Attends frames where
  whole := subject ▸ attends.whole
  observed := observers ▸ attends.observed
  relies frame member :=
    (attends.relies frame member).keeps hosting
      (fun run drives => works run (List.mem_filterMap.mpr ⟨frame, member, drives⟩))
      (fun run watching => watches run (List.mem_filterMap.mpr ⟨frame, member, watching⟩))
  driven := attends.driven
  watched := attends.watched

/-- What leaves all engines alone. -/
theorem of_runs
    (attends : timeline.Attends frames)
    (subject : next.subject = timeline.subject)
    (observers : next.observers = timeline.observers)
    (hosting : next.session.executor.hosting = timeline.session.executor.hosting)
    (runs : next.session.executor.runs = timeline.session.executor.runs) :
    next.Attends frames :=
  attends.keeps subject observers hosting (fun _ _ => .of_runs runs) (fun _ _ => .of_runs runs)

/-- An engine changes in what only the innermost frame relied on. -/
theorem modified
    (attends : timeline.Attends (frame :: frames))
    (change : Run → Run)
    (works : frame.driven? = some run ∨ ∀ state, (change state).work = state.work)
    (watches : frame.watched? = some run ∨ ∀ state, (change state).noticed = state.noticed)
    (subject : next.subject = timeline.subject)
    (observers : next.observers = timeline.observers)
    (hosting : next.session.executor.hosting = timeline.session.executor.hosting)
    (runs : next.session.executor.runs = (timeline.session.executor.modifyRun run change).runs) :
    next.Attends frames := by
  refine attends.tail.keeps subject observers hosting ?_ ?_
  · intro other member
    refine .trans ?_ (.of_runs runs)
    rcases works with drives | same
    · refine Executor.keeps_of_ne (fun here => ?_) change
      exact attends.driven_once drives (here ▸ member)
    · exact Executor.keeps_modifyRun change same
  · intro other member
    refine .trans ?_ (.of_runs runs)
    rcases watches with watching | same
    · refine Executor.keeps_of_ne (fun here => ?_) change
      exact attends.watched_once watching (here ▸ member)
    · exact Executor.keeps_modifyRun change same

/-- The innermost frame has driven an engine to where it came to rest. -/
theorem settled
    (attends : timeline.Attends (frame :: frames))
    (drives : frame.driven? = some run)
    (fate : Fate)
    (subject : next.subject = timeline.subject)
    (observers : next.observers = timeline.observers)
    (hosting : next.session.executor.hosting = timeline.session.executor.hosting)
    (runs : next.session.executor.runs = (timeline.session.executor.settle run fate).runs) :
    next.Attends frames :=
  attends.modified (fun state => { state with fate := fate }) (.inl drives) (.inr fun _ => rfl)
    subject observers hosting runs

/-- The innermost frame goes on driving an engine that has done something. -/
theorem driven_on
    (attends : timeline.Attends (frame :: frames))
    (drives : frame.driven? = some run)
    (change : Engine → Engine)
    (subject : next.subject = timeline.subject)
    (observers : next.observers = timeline.observers)
    (hosting : next.session.executor.hosting = timeline.session.executor.hosting)
    (runs :
      next.session.executor.runs = (timeline.session.executor.modifyEngine run change).runs) :
    next.Attends (.drive run false :: frames) := by
  obtain ⟨state, found, running⟩ := attends.head.running drives
  have left : next.Attends frames :=
    attends.modified (fun state => { state with engine := change state.engine }) (.inl drives)
      (.inr fun _ => rfl) subject observers hosting runs
  refine left.cons ?_ ?_ nofun
  · refine ⟨{ state with engine := change state.engine }, ?_, running⟩
    simp only [runs, Executor.modifyEngine, Executor.modifyRun, List.getElem?_modify_eq, found,
      Option.map_eq_map, Option.map_some]
  · rintro _ ⟨⟩
    exact attends.driven_once drives

end Attends

end Timeline

end ResumableUpload
