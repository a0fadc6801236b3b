import ResumableUpload.Proofs.Scheduler.Requests
import ResumableUpload.Proofs.Scheduler.World

/-!
# Discarded paths

To delete an upload a manager takes the path out of the queue and then calls the endpoint to discard
what it holds.  Neither stops the engine of the path, and a snapshot that was taken before may still
start one.  If such an engine has yet to open its upload it opens a new one, which nobody asks for, and
goes on to send the file (`discarded_path_comes_back`).

An engine that has opened its upload does no harm: its chunks are refused from then on.  So what is
released stays so if nothing is under way that may open an upload of the path (`Unopening`).
-/

namespace ResumableUpload

/-- Where nothing is stored, only an engine that opens an upload has something stored. -/
theorem Transfer.Served.agreesOn_of_opened
    {before after : Engine}
    {act : Engine.Act}
    {endpoint next : Endpoint}
    (served : Served before endpoint act next)
    (step : Engine.Step before act after)
    (opened : ¬ before.Opening)
    (missing : endpoint.uploads before.path = []) :
    Endpoint.AgreesOn before.path endpoint next := by
  cases served with
  | create =>
      cases step with
      | create phase => simp [Engine.Opening, phase] at opened
  | @chunk offset content answer next delivery =>
      have refused := Endpoint.chunk_agreesOn_of_nil missing content offset
      cases delivery with
      | answered => exact refused
      | unanswered => exact refused
      | unserved => exact .refl before.path endpoint
  | status delivery =>
      have asked := Endpoint.status_agreesOn endpoint before.path before.path
      cases delivery with
      | answered => exact asked
      | unanswered => exact asked
      | unserved => exact .refl before.path endpoint
  | read | unread | report | check | wait => exact .refl before.path endpoint

namespace Scheduler

variable {scheduler next : Scheduler} {path : String}

/-- Nothing is under way that may still open an upload of the path. -/
structure Unopening (path : String) (scheduler : Scheduler) : Prop where
  engines :
    ∀ {engine : Engine}, scheduler.executor.AtWork engine → engine.path = path →
      ¬ engine.Opening
  snapshots :
    ∀ {snapshot : Snapshot} {entry : Entry} {file : FileHandle},
      snapshot ∈ scheduler.waiting → scheduler.executor.emitted ≤ snapshot.reportsSeen →
        snapshot.next? = some (entry, file) → entry.path ≠ path

namespace Unopening

/-- What is under way does not depend on the queue. -/
theorem requeue
    (unopening : Unopening path scheduler)
    (queue : Queue) :
    Unopening path { scheduler with queue := queue } :=
  ⟨unopening.engines, unopening.snapshots⟩

/-- A snapshot in which the path is paused does not start an engine of it. -/
theorem tick
    (unopening : Unopening path scheduler)
    (tidy : scheduler.queue.Tidy)
    (paused : scheduler.queue.Paused path) :
    Unopening path { scheduler with taken := scheduler.taken ++ [scheduler.queue.snapshot] } := by
  refine ⟨unopening.engines, ?_⟩
  intro snapshot entry file member current first here
  rcases waiting_of_tick member with earlier | rfl
  · exact unopening.snapshots earlier current first here
  · have wanted := Snapshot.wants_of_next? first here
    rw [paused.snapshot tidy] at wanted
    cases wanted

theorem drives
    {move : Executor.Move}
    (unopening : Unopening path scheduler)
    (accounted : Accounted scheduler)
    (drives : Drives scheduler move next) :
    Unopening path next := by
  refine ⟨?_, ?_⟩
  · intro engine working here
    cases drives.step.effect accounted.one with
    | calm engines => exact unopening.engines (engines working) here
    | received engines => exact unopening.engines (engines working) here
    | delivered engines => exact unopening.engines (engines working) here
    | stopped _ engines =>
        obtain ⟨before, earlier, rfl, _⟩ := engines working
        have opened : ¬ before.Opening := unopening.engines earlier here
        exact opened
    | closed engines =>
        obtain ⟨before, earlier, same⟩ := engines working
        have opened (at' : before.path = path) : ¬ before.Opening := unopening.engines earlier at'
        rcases same with rfl | rfl
        · exact opened here
        · exact opened here
    | started handles _ first current engines =>
        obtain rfl := engines working
        exact absurd here (unopening.snapshots (drives.handled handles) current first)
    | acted _ earlier step _ engines =>
        obtain rfl := engines working
        have opened := unopening.engines earlier (step.path_eq.symm.trans here)
        exact fun opening => opened (step.opening opening).1
    | reported _ earlier step engines =>
        obtain rfl := engines working
        have opened := unopening.engines earlier (step.path_eq.symm.trans here)
        exact fun opening => opened (step.opening opening).1
  · intro snapshot entry file member current
    have emitted := drives.emitted_le accounted.one
    exact unopening.snapshots (drives.waiting_subset member) (Nat.le_trans emitted current)

/-- Until a file is added to a path that is paused, nothing comes to open an upload of it. -/
theorem step
    {move : Move}
    (unopening : Unopening path scheduler)
    (accounted : Accounted scheduler)
    (paused : scheduler.queue.Paused path)
    (step : Step scheduler move next) :
    Unopening path next := by
  cases step with
  | add | stop | discard | restore => exact unopening.requeue _
  | tick => exact unopening.tick accounted.tidy paused
  | post found => exact unopening.drives accounted (drives_post found)
  | work own acting => exact unopening.drives accounted (drives_work own acting)

end Unopening

end Scheduler

namespace World

variable {world next : World} {path : String} {stored : Option Bytes}

/-! ## A manager -/

/-- What happens next to a world whose caller also calls the endpoint. -/
inductive Deed where
  | move (move : Scheduler.Move)
  /-- The endpoint discards what it holds of a path. -/
  | release (path : String)
  /-- The endpoint lists what it holds. -/
  | list

/-- Whether a file is added to a path. -/
def Deed.adds (path : String) : Deed → Bool
  | .move made => made.adds path
  | .release _ | .list => false

/-- The steps of a scheduler whose caller and engines are served by the endpoint. -/
inductive Managed : World → Deed → World → Prop where
  | move {world next : World} {move : Scheduler.Move}
      (step : Step world move next) :
      Managed world (.move move) next
  | release {world : World} (path : String) :
      Managed world (.release path) ⟨world.scheduler, (world.endpoint.delete path).1⟩
  | list {world : World} :
      Managed world .list ⟨world.scheduler, world.endpoint.list.1⟩

/-- A step that does not add a file to the path. -/
def Unasked (path : String) (world : World) (deed : Deed) (next : World) : Prop :=
  Managed world deed next ∧ deed.adds path = false

theorem Managed.accounted
    {deed : Deed}
    (managed : Managed world deed next)
    (accounted : world.scheduler.Accounted) :
    next.scheduler.Accounted := by
  cases managed with
  | move step => exact accounted.step step.cases
  | release => exact accounted
  | list => exact accounted

/-- Nothing but adding a file to the path resumes it. -/
theorem Unasked.paused
    {deed : Deed}
    (unasked : Unasked path world deed next)
    (accounted : world.scheduler.Accounted)
    (paused : world.scheduler.queue.Paused path) :
    next.scheduler.queue.Paused path := by
  obtain ⟨managed, unasked⟩ := unasked
  cases managed with
  | move step => exact step.cases.paused accounted.tidy unasked paused
  | release => exact paused
  | list => exact paused

/-- A discarded path of which the endpoint holds nothing but what was completed before. -/
structure Released (path : String) (stored : Option Bytes) (world : World) : Prop where
  accounted : world.scheduler.Accounted
  paused : world.scheduler.queue.Paused path
  unopening : world.scheduler.Unopening path
  uploads : world.endpoint.uploads path = []
  completed : world.endpoint.completed? path = stored

namespace Released

/-- What the engines do at the endpoint leaves the path alone. -/
theorem agreesOn
    {work : Executor.Move}
    {executor : Executor}
    {endpoint : Endpoint}
    (released : Released path stored world)
    (step : Executor.Step world.scheduler.executor work executor)
    (answers : Answers world.scheduler.executor world.endpoint work endpoint) :
    Endpoint.AgreesOn path world.endpoint endpoint := by
  have harmless {act : Engine.Act} {before after : Engine}
      (working : world.scheduler.executor.AtWork before)
      (acting : Engine.Step before act after)
      (served : Transfer.Served before world.endpoint act endpoint) :
      Endpoint.AgreesOn path world.endpoint endpoint := by
    by_cases here : before.path = path
    · have opened := released.unopening.engines working here
      subst here
      exact served.agreesOn_of_opened acting opened released.uploads
    · exact served.agreesOn (Ne.symm here)
  cases answers with
  | idle => exact .refl path world.endpoint
  | act found served =>
      cases step.effect released.accounted.one with
      | acted same working acting =>
          cases same.symm.trans found
          exact harmless working acting served
      | reported same working acting =>
          cases same.symm.trans found
          exact harmless working acting served
      | calm _ _ _ _ _ still => cases still
      | stopped handles => cases handles.isAct
      | started handles => cases handles.isAct

theorem step
    {deed : Deed}
    (released : Released path stored world)
    (unasked : Unasked path world deed next) :
    Released path stored next := by
  have accounted := unasked.1.accounted released.accounted
  have paused := unasked.paused released.accounted released.paused
  obtain ⟨managed, _⟩ := unasked
  -- Whatever the step is, the endpoint stores the same of the path.
  suffices kept : next.scheduler.Unopening path ∧
      Endpoint.AgreesOn path world.endpoint next.endpoint from
    ⟨accounted, paused, kept.1, kept.2.uploads.trans released.uploads,
      kept.2.completed.trans released.completed⟩
  cases managed with
  | move step =>
      refine ⟨released.unopening.step released.accounted released.paused step.cases, ?_⟩
      cases step with
      | work step answers =>
          cases step with
          | work _ step => exact released.agreesOn step answers
      | call => exact .refl path world.endpoint
  | release other =>
      exact ⟨released.unopening, Endpoint.delete_agreesOn_of_nil released.uploads other⟩
  | list => exact ⟨released.unopening, .note path world.endpoint .list⟩

end Released

/--
Once a path has been taken out of the queue and the endpoint has discarded what it held of it, there is
never again an upload of the path at the endpoint and none is completed, until a file is added to the
path again, if nothing was under way when the endpoint was called that might still open one.
-/
theorem released_path_stays_empty
    {limit : Nat}
    {hosting : Hosting}
    {tuning : Tuning}
    {endpoint : Endpoint}
    {deeds between further : List Deed}
    {discarded releasing final : World}
    (run :
      Trace Managed
        ⟨{ limit := limit, executor := { hosting := hosting, tuning := tuning } }, endpoint⟩
        deeds world)
    (discards : Step world (.discard path) discarded)
    (meanwhile : Trace (Unasked path) discarded between releasing)
    (unopening : releasing.scheduler.Unopening path)
    (afterwards :
      Trace (Unasked path) ⟨releasing.scheduler, (releasing.endpoint.delete path).1⟩ further
        final) :
    final.endpoint.uploads path = [] ∧
      final.endpoint.completed? path = releasing.endpoint.completed? path := by
  have known : world.scheduler.Accounted :=
    run.invariant (.start limit hosting tuning) fun accounted managed =>
      managed.accounted accounted
  have left : discarded.scheduler.queue.Paused path := by
    cases discards with
    | call _ step =>
        cases step with
        | discard deleted => exact Queue.paused_delete known.tidy deleted
  have waits : releasing.scheduler.Accounted ∧ releasing.scheduler.queue.Paused path := by
    apply meanwhile.invariant
    · exact ⟨known.step discards.cases, left⟩
    · rintro before deed after ⟨accounted, paused⟩ unasked
      exact ⟨unasked.1.accounted accounted, unasked.paused accounted paused⟩
  have released :
      Released path (releasing.endpoint.completed? path)
        ⟨releasing.scheduler, (releasing.endpoint.delete path).1⟩ := by
    exact ⟨waits.1, waits.2, unopening, Endpoint.uploads_delete _ path,
      Endpoint.completed?_delete _ path path⟩
  have kept : Released path (releasing.endpoint.completed? path) final :=
    afterwards.invariant released Released.step
  exact ⟨kept.uploads, kept.completed⟩

/-! ## A path that stays empty, and one that does not -/

theorem unasked_of_proceed?
    {cue : Cue}
    (proceeded : world.proceed? cue = some next) :
    ∃ deed, Unasked path world deed next := by
  obtain ⟨move, step, others⟩ := step_of_proceed? proceeded
  refine ⟨.move move, .move step, ?_⟩
  cases move with
  | add => exact absurd rfl others
  | stop | discard | restore | tick | post | work => rfl

/-- An endpoint that holds an upload of which nothing has arrived yet. -/
def begun : World :=
  ⟨{ limit := 10, executor := { hosting := .background, tuning := Config.tuning {} } },
    Endpoint.seed {} "a" 1 []⟩

/-- The upload is restored, and an engine is started for its file. -/
def resumed : List Cue :=
  [ .move (.restore [⟨"a", 1, 0⟩]), .move (.add ⟨0, .ofBytes [1]⟩ "a"), .move .tick,
    .move (.post 0), .move (.work .handle) ]

/-- The engine goes on to its end and returns. -/
def conclusion (steps : Nat) : List Cue :=
  List.replicate steps (.go 0) ++ [.move (.work (.finish 0))]

/-- What some cues come to if the path is discarded after them, with what follows that. -/
def discardAfter? (before after : List Cue) : Option (World × World × World) :=
  (before.foldlM follow? begun).bind fun world =>
    (world.follow? (.move (.discard "a"))).bind fun discarded =>
      (after.foldlM proceed? ⟨discarded.scheduler, (discarded.endpoint.delete "a").1⟩).map
        fun final => (world, discarded, final)

theorem runs_of_discardAfter?
    {before after : List Cue}
    {discarded final : World}
    (followed : discardAfter? before after = some (world, discarded, final)) :
    ∃ deeds further,
      Trace Managed begun deeds world ∧
        Step world (.discard "a") discarded ∧
        Trace (Unasked "a") ⟨discarded.scheduler, (discarded.endpoint.delete "a").1⟩ further
          final := by
  obtain ⟨_, managed, rest⟩ := Option.bind_eq_some_iff.mp followed
  obtain ⟨_, discards, rest⟩ := Option.bind_eq_some_iff.mp rest
  obtain ⟨_, proceeded, same⟩ := Option.map_eq_some_iff.mp rest
  cases same
  have run : ∃ deeds, Trace Managed begun deeds world :=
    (Trace.of_foldlM (fun before _ after => ∃ move, Step before move after)
      step_of_follow? managed).relabel fun ⟨_, step⟩ => ⟨_, .move step⟩
  obtain ⟨deeds, run⟩ := run
  obtain ⟨further, later⟩ :=
    (Trace.of_foldlM (fun before _ after => ∃ deed, Unasked "a" before deed after)
      unasked_of_proceed? proceeded).relabel id
  exact ⟨deeds, further, run, step_of_follow?_move discards, later⟩

theorem returned_of_fates
    {executor : Executor}
    (fates : executor.runs.map (·.fate) = [.returned]) :
    ∀ run ∈ executor.runs, run.fate = .returned := by
  intro run member
  have fate := List.mem_map_of_mem (f := (·.fate)) member
  rwa [fates, List.mem_singleton] at fate

/-- The upload is discarded when the engine, which has opened it, is about to send a chunk. -/
theorem released_while_sending :
    ∃ deeds world discarded further final,
      Trace Managed begun deeds world ∧
        Step world (.discard "a") discarded ∧
        discarded.scheduler.Unopening "a" ∧
        discarded.scheduler.executor.runs.map (·.engine.phase) = [.sending "AQ=="] ∧
        Trace (Unasked "a") ⟨discarded.scheduler, (discarded.endpoint.delete "a").1⟩ further final ∧
        (∀ run ∈ final.scheduler.executor.runs, run.fate = .returned) ∧
        final.endpoint.uploads "a" = [] ∧ final.endpoint.completed? "a" = none := by
  have outcome :
      (discardAfter? (resumed ++ List.replicate 3 (.go 0)) (conclusion 2)).map
          (fun (_, discarded, final) =>
            (discarded.scheduler.waiting,
              discarded.scheduler.executor.runs.map (·.engine.phase),
              discarded.endpoint.completed? "a",
              final.scheduler.executor.runs.map (·.fate))) =
        some ([], [.sending "AQ=="], none, [.returned]) := by
    rfl
  obtain ⟨⟨world, discarded, final⟩, followed, ends⟩ := Option.map_eq_some_iff.mp outcome
  simp only [Prod.mk.injEq] at ends
  obtain ⟨waiting, phases, nothing, fates⟩ := ends
  obtain ⟨deeds, further, run, discards, later⟩ := runs_of_discardAfter? followed
  have unopening : discarded.scheduler.Unopening "a" := by
    refine ⟨?_, ?_⟩
    · rintro engine ⟨index, run, found, _, rfl, _⟩ _
      have sending := List.mem_map_of_mem (f := (·.engine.phase)) (List.mem_of_getElem? found)
      rw [phases, List.mem_singleton] at sending
      simp only [Engine.Opening, sending, not_false_eq_true]
    · intro snapshot entry file member
      rw [waiting] at member
      cases member
  have empty := released_path_stays_empty run discards .refl unopening later
  rw [nothing] at empty
  exact ⟨deeds, world, discarded, further, final, run, discards, unopening, phases, later,
    returned_of_fates fates, empty⟩

/--
The upload is discarded before the engine has opened it.  The endpoint has discarded what it held, and
then the engine opens the upload again and completes it.
-/
theorem discarded_path_comes_back :
    ∃ deeds world discarded further final,
      Trace Managed begun deeds world ∧
        Step world (.discard "a") discarded ∧
        (discarded.endpoint.delete "a").2 = .ok (Response.success ()) ∧
        Trace (Unasked "a") ⟨discarded.scheduler, (discarded.endpoint.delete "a").1⟩ further final ∧
        (∀ run ∈ final.scheduler.executor.runs, run.fate = .returned) ∧
        discarded.endpoint.completed? "a" = none ∧
        final.endpoint.completed? "a" = some [1] := by
  have outcome :
      (discardAfter? resumed (conclusion 6)).map
          (fun (_, discarded, final) =>
            ((discarded.endpoint.delete "a").2,
              final.scheduler.executor.runs.map (·.fate),
              discarded.endpoint.completed? "a",
              final.endpoint.completed? "a")) =
        some (.ok (Response.success ()), [.returned], none, some [1]) := by
    rfl
  obtain ⟨⟨world, discarded, final⟩, followed, ends⟩ := Option.map_eq_some_iff.mp outcome
  simp only [Prod.mk.injEq] at ends
  obtain ⟨accepted, fates, nothing, completed⟩ := ends
  obtain ⟨deeds, further, run, discards, later⟩ := runs_of_discardAfter? followed
  exact ⟨deeds, world, discarded, further, final, run, discards, accepted, later,
    returned_of_fates fates, nothing, completed⟩

end World

end ResumableUpload
