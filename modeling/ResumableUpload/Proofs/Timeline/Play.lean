import ResumableUpload.Proofs.Scheduler.Accounting
import ResumableUpload.Proofs.Timeline.Turns

/-!
# What is played on a timeline is a run of a scheduler

A timeline lets one thread at a time do a bit of work.  Since each bit is done by the scheduler of its
session too, so is whatever a timeline does, however its threads take turns, whichever of them are torn
down, and whatever observers do in between (`Timeline.trace_of_play`).  What holds of all runs of a
scheduler therefore holds of every session that is played.
-/

namespace ResumableUpload.Timeline

variable {timeline next : Timeline} {frame : Frame} {frames others : List Frame} {thread : Nat}

/-! ## One thread among others -/

/-- The frames of all threads. -/
def allFrames (timeline : Timeline) : List Frame :=
  timeline.threads.flatMap (·.frames)

/-- A thread changes, and all others keep their frames. -/
theorem perm_of_modify
    {threads : List Thread}
    {state : Thread}
    (found : threads[thread]? = some state)
    (change : Thread → Thread) :
    ((threads.modify thread change).flatMap (·.frames)).Perm
      ((change state).frames ++ (threads.eraseIdx thread).flatMap (·.frames)) := by
  induction threads generalizing thread with
  | nil => cases found
  | cons first rest later =>
      cases thread with
      | zero =>
          cases found
          exact .refl _
      | succ thread =>
          have parted := (later found).append_left first.frames
          exact parted.trans (List.perm_append_comm_assoc _ _ _)

/-- The frames of one thread, before those of all others. -/
theorem Attends.parted
    {state : Thread}
    (attends : timeline.Attends timeline.allFrames)
    (found : timeline.threads[thread]? = some state) :
    timeline.Attends
      (state.frames ++ (timeline.threads.eraseIdx thread).flatMap (·.frames)) := by
  have same := perm_of_modify found id
  rw [List.modify_id] at same
  exact attends.perm same

/-- The scheduler of a timeline has moved, and all frames have what they rely on. -/
structure Leads (timeline next : Timeline) : Prop where
  follows : timeline.session.Follows next.session
  attends : next.Attends next.allFrames

theorem Leads.trans
    {middle : Timeline}
    (before : Leads timeline middle)
    (after : Leads middle next) :
    Leads timeline next :=
  ⟨before.follows.trans after.follows, after.attends⟩

/-- A thread goes on with frames of its own, while others may have been started. -/
theorem Spawns.leads
    {state : Thread}
    {change : Thread → Thread}
    (found : timeline.threads[thread]? = some state)
    (spawns :
      Spawns timeline next
        ((change state).frames ++ (timeline.threads.eraseIdx thread).flatMap (·.frames))) :
    Leads timeline (next.modifyThread thread change) := by
  obtain ⟨spawned, threads, follows, attends⟩ := spawns
  have within : thread < timeline.threads.length := (List.getElem?_eq_some_iff.mp found).1
  have here : next.threads[thread]? = some state := by
    rw [threads, List.getElem?_append_left within, found]
  have begun : (spawned.map (⟨·, none⟩)).flatMap Thread.frames = spawned.flatten := by
    rw [List.flatMap_map, List.flatMap_id']
  have same := perm_of_modify here change
  rw [threads, List.eraseIdx_append_of_lt_length within, List.flatMap_append, begun,
    ← List.append_assoc, ← threads] at same
  exact ⟨follows, (attends.perm same.symm).of_runs rfl rfl rfl rfl⟩

/-- Of a thread that is torn down every engine that it drove has panicked. -/
theorem carries_of_panics
    (attends : timeline.Attends (frames ++ others)) :
    Carries timeline
      ((drivenRuns frames).foldl
        (fun timeline run =>
          (timeline.modifyExecutor (·.settle run .panicked)).awakenSupervisor run) timeline)
      others := by
  induction frames generalizing timeline with
  | nil => exact .refl attends
  | cons frame rest later =>
      cases drives : frame.driven? with
      | none =>
          rw [drivenRuns, List.filterMap_cons_none drives]
          exact later attends.tail
      | some run =>
          obtain ⟨state, found, running⟩ := attends.head.running drives
          have panicked :
              Carries timeline (timeline.modifyExecutor (·.settle run .panicked))
                (rest ++ others) :=
            .of_step rfl rfl (.panic found running)
              (attends.settled drives .panicked rfl rfl rfl rfl)
          have woken :
              Carries timeline
                ((timeline.modifyExecutor (·.settle run .panicked)).awakenSupervisor run)
                (rest ++ others) :=
            panicked.awakenWhere _
          rw [drivenRuns, List.filterMap_cons_some drives, List.foldl_cons]
          exact woken.trans (later woken.attends)

/-! ## Threads in turn -/

theorem exists_of_frames
    (working : timeline.frames thread = frame :: frames) :
    ∃ state, timeline.threads[thread]? = some state ∧ state.frames = frame :: frames := by
  unfold Timeline.frames at working
  split at working
  case h_1 state found => exact ⟨state, found, working⟩
  case h_2 => cases working

theorem leads_of_tearDown
    {state : Thread}
    (attends : timeline.Attends timeline.allFrames)
    (found : timeline.threads[thread]? = some state) :
    Leads timeline (timeline.tearDown thread) := by
  have own : timeline.frames thread = state.frames := by
    unfold Timeline.frames
    rw [found]
  have left :
      ((timeline.threads.eraseIdx thread).flatMap (·.frames)).Perm
        (timeline.setFrames thread []).allFrames :=
    (perm_of_modify found fun _ => ⟨[], none⟩).symm
  have parted :
      (timeline.setFrames thread []).Attends
        (state.frames ++ (timeline.threads.eraseIdx thread).flatMap (·.frames)) :=
    (attends.parted found).of_runs rfl rfl rfl rfl
  have panicked := carries_of_panics parted
  unfold tearDown
  rw [own]
  dsimp only
  generalize List.foldl _ _ _ = torn at panicked ⊢
  have all : torn.allFrames = (timeline.setFrames thread []).allFrames :=
    congrArg (List.flatMap Thread.frames) panicked.threads
  have rest : torn.Attends torn.allFrames := panicked.attends.perm (all ▸ left)
  split
  case isTrue => exact ⟨panicked.follows, rest.of_runs rfl rfl rfl rfl⟩
  case isFalse => exact ⟨panicked.follows, rest⟩

theorem leads_of_advance
    {running after : Option Nat}
    (attends : timeline.Attends timeline.allFrames)
    (advanced : timeline.advance running = some (next, after)) :
    Leads timeline next := by
  unfold advance at advanced
  split at advanced
  case h_1 thread =>
      split at advanced
      case h_1 =>
          cases advanced
          exact ⟨.refl _, attends⟩
      case h_2 frame frames working =>
          obtain ⟨state, found, own⟩ := exists_of_frames working
          have parted := attends.parted found
          rw [own] at parted
          have goes : Goes timeline _ (timeline.move thread frame frames) := goes_of_move parted
          generalize timeline.move thread frame frames = moved at advanced goes
          cases goes with
          | on spawns =>
              cases advanced
              exact spawns.leads found
          | waits wake attends =>
              cases advanced
              exact (Carries.refl attends).spawns.leads found
          | breaks =>
              cases advanced
              exact leads_of_tearDown attends found
  case h_2 =>
      split at advanced
      case h_1 =>
          cases advanced
          exact ⟨.refl _, attends.of_runs rfl rfl rfl rfl⟩
      case h_2 =>
          split at advanced
          case h_1 => cases advanced
          case h_2 =>
              split at advanced
              case isTrue =>
                  cases advanced
                  exact ⟨.refl _, attends.of_runs rfl rfl rfl rfl⟩
              case isFalse => cases advanced

theorem leads_of_runFor
    (running : Option Nat)
    (fuel : Nat)
    (attends : timeline.Attends timeline.allFrames) :
    Leads timeline (timeline.runFor running fuel) := by
  induction fuel generalizing timeline running with
  | zero => exact ⟨.refl _, attends⟩
  | succ fuel later =>
      unfold runFor
      split
      case h_1 next after advanced =>
          have first := leads_of_advance attends advanced
          exact first.trans (later after first.attends)
      case h_2 => exact ⟨.refl _, attends⟩

/-! ## Steps in turn -/

/-- A thread is given work that relies on nothing. -/
theorem Attends.setFrames
    (thread : Nat)
    (attends : timeline.Attends timeline.allFrames)
    (relies : frame.Relies timeline.session.executor)
    (driven : frame.driven? = none)
    (watched : frame.watched? = none) :
    (timeline.setFrames thread [frame]).Attends (timeline.setFrames thread [frame]).allFrames := by
  cases found : timeline.threads[thread]? with
  | none =>
      have same : (timeline.setFrames thread [frame]).threads = timeline.threads :=
        List.modify_eq_self (List.getElem?_eq_none_iff.mp found)
      have all : (timeline.setFrames thread [frame]).allFrames = timeline.allFrames :=
        congrArg (List.flatMap Thread.frames) same
      exact all ▸ attends.of_runs rfl rfl rfl rfl
  | some state =>
      have others := (attends.parted found).sublist (List.sublist_append_right _ _)
      have given := others.cons_free relies driven watched
      have all := (perm_of_modify found fun _ => ⟨[frame], none⟩).symm
      exact (given.perm all).of_runs rfl rfl rfl rfl

/-- The timeline's own thread does a step, and then everything comes to rest. -/
theorem leads_of_doStep
    {step : Step}
    (attends : timeline.Attends timeline.allFrames)
    (call : step.isCall = true) :
    Leads timeline (timeline.doStep step).2 := by
  have relies : (Frame.steps none [step] []).Relies timeline.session.executor :=
    List.forall_mem_singleton.mpr call
  have given := attends.setFrames mainThread relies rfl rfl
  have awoken :
      Leads timeline
        ((timeline.setFrames mainThread [.steps none [step] []]).awaken mainThread) := by
    unfold awaken
    split
    case isTrue => exact ⟨.refl _, given⟩
    case isFalse => exact ⟨.refl _, given.of_runs rfl rfl rfl rfl⟩
  have settled := awoken.trans (leads_of_runFor none patience awoken.attends)
  exact ⟨settled.follows, settled.attends.of_runs rfl rfl rfl rfl⟩

theorem leads_of_play
    {steps : List Step}
    (attends : timeline.Attends timeline.allFrames)
    (calls : ∀ step ∈ steps, step.isCall = true) :
    Leads timeline (timeline.play steps).2 := by
  induction steps generalizing timeline with
  | nil => exact ⟨.refl _, attends⟩
  | cons step rest later =>
      obtain ⟨call, calls⟩ := List.forall_mem_cons.mp calls
      have first := leads_of_doStep attends call
      exact first.trans (later first.attends calls)

/--
Whatever is played on the timeline of a session is a run of its scheduler, from the beginning on: all
steps of its users and observers, all snapshots, all that its engines do, and all that is torn down.
-/
theorem trace_of_play
    {steps : List Step}
    (scene : Scene)
    (hosting : Hosting)
    (heard : Bool)
    (observed : ∀ observer ∈ scene.observers, ∀ step ∈ observer.steps, step.isCall = true)
    (calls : ∀ step ∈ steps, step.isCall = true) :
    ∃ moves,
      Trace Scheduler.Step
        { limit := scene.config.maxQueued
          executor := { hosting := hosting, tuning := scene.config.tuning } }
        moves ((scene.timeline (.session heard) hosting).play steps).2.session.scheduler := by
  have idle : (scene.timeline (.session heard) hosting).Attends [] :=
    ⟨⟨heard, rfl⟩, observed, nofun, .nil, .nil⟩
  have attends :
      (scene.timeline (.session heard) hosting).Attends
        (scene.timeline (.session heard) hosting).allFrames := by
    cases hosting with
    | inline => exact idle
    | background =>
        have worker : (scene.timeline (.session heard) .background).Attends [.work] :=
          idle.cons_free rfl rfl rfl
        have both : (scene.timeline (.session heard) .background).Attends [.dispatch, .work] :=
          worker.cons_free trivial rfl rfl
        exact both
  exact (leads_of_play attends calls).follows.2

/--
However a session is played, no two of its engines transfer at once, and every report was applied to the
queue or waits for delivery.
-/
theorem accounted_of_play
    {steps : List Step}
    (scene : Scene)
    (hosting : Hosting)
    (heard : Bool)
    (observed : ∀ observer ∈ scene.observers, ∀ step ∈ observer.steps, step.isCall = true)
    (calls : ∀ step ∈ steps, step.isCall = true) :
    ((scene.timeline (.session heard) hosting).play steps).2.session.scheduler.Accounted := by
  obtain ⟨_, run⟩ := trace_of_play scene hosting heard observed calls
  exact Scheduler.accounted_of_trace run

end ResumableUpload.Timeline
