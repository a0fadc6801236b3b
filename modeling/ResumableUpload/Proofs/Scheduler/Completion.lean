import ResumableUpload.Proofs.Scheduler.World

/-!
# Which file a completed upload holds

An entry leaves the queue as complete when a report confirms as many bytes as it has.  Reports name a
path and not a file, and so does the endpoint.  The completed upload therefore is the file of the
entry only if no file is added while something of another content is under way on its path: an
engine that sends it, a snapshot that may start one, a partial upload of it, or a report about it.
`World.Clear` is that condition; `replaced_file_is_lost` is a run that breaks it.

`World.Agrees` is the invariant behind it.  All that is under way on a path is about one content.
-/

namespace ResumableUpload

theorem FileHandle.Holds.unique
    {file : FileHandle}
    {bytes other : Bytes}
    (holds : file.Holds bytes)
    (also : file.Holds other) :
    bytes = other := by
  have size : bytes.length = other.length := holds.size.symm.trans also.size
  have first := holds.read (Nat.zero_le _) (Nat.le_refl bytes.length)
  have second := also.read (Nat.zero_le _) (Nat.le_of_eq size)
  have same := Except.ok.inj (first.symm.trans second)
  unfold Bytes.slice at same
  rw [List.drop_zero, List.drop_zero, Nat.sub_zero, List.take_length, size,
    List.take_length] at same
  exact same

namespace World

variable {world next : World} {path : String} {bytes : Bytes} {move : Scheduler.Move}

/-- Nothing on a path is under way that is about another content. -/
structure Clear (path : String) (bytes : Bytes) (world : World) : Prop where
  engines :
    ∀ {engine : Engine}, world.scheduler.executor.AtWork engine → engine.path = path →
      engine.file.Holds bytes
  partway : world.endpoint.Partway path bytes
  /-- A snapshot that has seen every report may still start an engine. -/
  snapshots :
    ∀ {snapshot : Snapshot} {entry : Entry} {file : FileHandle},
      snapshot ∈ world.scheduler.waiting →
        world.scheduler.executor.emitted ≤ snapshot.reportsSeen →
          entry ∈ snapshot.entries → entry.path = path → entry.isEligible = true →
            entry.file = some file → file.Holds bytes
  reports :
    ∀ {report : Report},
      report ∈ world.scheduler.executor.undelivered → report.path = path →
        bytes.length ≤ report.uploaded → world.endpoint.completed? path = some bytes

/-- All that is under way on a path is about these bytes. -/
structure Agrees (path : String) (bytes : Bytes) (world : World) : Prop where
  clear : Clear path bytes world
  faithful :
    ∀ {engine : Engine}, world.scheduler.executor.AtWork engine → engine.path = path →
      Transfer.Faithful bytes engine world.endpoint

/-- What is known of a path throughout a run. -/
structure Tracks (path : String) (world : World) : Prop where
  accounted : world.scheduler.Accounted
  unscripted : world.endpoint.Unscripted
  /-- All that is under way is about one content, which is that of the queued file. -/
  content :
    ∃ bytes,
      Agrees path bytes world ∧
        ∀ {entry : Entry} {file : FileHandle},
          world.scheduler.queue.find? path = some entry → entry.file = some file →
            file.Holds bytes

/-! ## Moves of the caller -/

/-- What is under way does not depend on the queue. -/
theorem Agrees.requeue
    (agrees : Agrees path bytes world)
    (queue : Queue) :
    Agrees path bytes ⟨{ world.scheduler with queue := queue }, world.endpoint⟩ :=
  ⟨⟨agrees.clear.engines, agrees.clear.partway, agrees.clear.snapshots, agrees.clear.reports⟩,
    agrees.faithful⟩

/-- A file can be added if nothing of another content is under way. -/
theorem Agrees.of_clear
    {other : Bytes}
    (agrees : Agrees path bytes world)
    (clear : Clear path other world) :
    Agrees path other world where
  clear := clear
  faithful working here := by
    have same := (agrees.clear.engines working here).unique (clear.engines working here)
    subst same
    exact agrees.faithful working here

theorem Agrees.tick
    (agrees : Agrees path bytes world)
    (tidy : world.scheduler.queue.Tidy)
    (queued :
      ∀ {entry : Entry} {file : FileHandle},
        world.scheduler.queue.find? path = some entry → entry.file = some file →
          file.Holds bytes) :
    Agrees path bytes
      ⟨{ world.scheduler with
          taken := world.scheduler.taken ++ [world.scheduler.queue.snapshot] },
        world.endpoint⟩ := by
  refine ⟨⟨agrees.clear.engines, agrees.clear.partway, ?_, agrees.clear.reports⟩,
    agrees.faithful⟩
  intro snapshot entry file member current found here eligible held
  rcases Scheduler.waiting_of_tick member with earlier | rfl
  · exact agrees.clear.snapshots earlier current found here eligible held
  · have listed := tidy.find?_of_mem found
    rw [here] at listed
    exact queued listed held

/-! ## Moves of the executor -/

section Work

variable {work : Executor.Move} {scheduler : Scheduler} {endpoint : Endpoint}

theorem Agrees.of_drives
    (agrees : Agrees path bytes world)
    (drives : Scheduler.Drives world.scheduler work scheduler)
    (emitted : world.scheduler.executor.emitted ≤ scheduler.executor.emitted)
    (partway : endpoint.Partway path bytes)
    (faithful :
      ∀ {engine : Engine}, scheduler.executor.AtWork engine → engine.path = path →
        Transfer.Faithful bytes engine endpoint)
    (reports :
      ∀ {report : Report},
        report ∈ scheduler.executor.undelivered → report.path = path →
          bytes.length ≤ report.uploaded → endpoint.completed? path = some bytes) :
    Agrees path bytes ⟨scheduler, endpoint⟩ where
  clear :=
    { engines := fun working here => (faithful working here).holds
      partway := partway
      snapshots := fun member current =>
        agrees.clear.snapshots (drives.waiting_subset member) (Nat.le_trans emitted current)
      reports := reports }
  faithful := faithful

/-- What is left to show of a move in which no engine does anything. -/
theorem Agrees.of_still
    (agrees : Agrees path bytes world)
    (drives : Scheduler.Drives world.scheduler work scheduler)
    (emitted : scheduler.executor.emitted = world.scheduler.executor.emitted)
    (undelivered :
      ∀ {report : Report},
        report ∈ scheduler.executor.undelivered →
          report ∈ world.scheduler.executor.undelivered)
    (faithful :
      ∀ {engine : Engine}, scheduler.executor.AtWork engine → engine.path = path →
        Transfer.Faithful bytes engine world.endpoint) :
    Agrees path bytes ⟨scheduler, world.endpoint⟩ :=
  agrees.of_drives drives (Nat.le_of_eq emitted.symm) agrees.clear.partway faithful
    fun member => agrees.clear.reports (undelivered member)

/-- An engine of another path does not touch what is under way on this one. -/
theorem Agrees.of_elsewhere
    {act : Engine.Act}
    {before after : Engine}
    (agrees : Agrees path bytes world)
    (drives : Scheduler.Drives world.scheduler work scheduler)
    (elsewhere : path ≠ before.path)
    (step : Engine.Step before act after)
    (served : Transfer.Served before world.endpoint act endpoint)
    (engines :
      ∀ {engine : Engine}, scheduler.executor.AtWork engine → engine = after)
    (emitted : world.scheduler.executor.emitted ≤ scheduler.executor.emitted)
    (undelivered :
      ∀ {report : Report},
        report ∈ scheduler.executor.undelivered → report.path = path →
          report ∈ world.scheduler.executor.undelivered) :
    Agrees path bytes ⟨scheduler, endpoint⟩ := by
  have same := served.agreesOn elsewhere
  refine agrees.of_drives drives emitted (same.partway agrees.clear.partway) ?_ ?_
  · intro engine working here
    refine absurd ?_ elsewhere
    rw [← here, engines working, step.path_eq]
  · intro report member here whole
    exact same.completed.trans (agrees.clear.reports (undelivered member here) here whole)

theorem Agrees.drives
    (agrees : Agrees path bytes world)
    (accounted : world.scheduler.Accounted)
    (unscripted : world.endpoint.Unscripted)
    (drives : Scheduler.Drives world.scheduler work scheduler)
    (answers : Answers world.scheduler.executor world.endpoint work endpoint) :
    Agrees path bytes ⟨scheduler, endpoint⟩ := by
  cases drives.step.effect accounted.one with
  | calm engines _ undelivered emitted _ still =>
      obtain rfl := answers.endpoint_eq still
      refine agrees.of_still drives emitted (undelivered ▸ id) ?_
      intro engine working here
      exact agrees.faithful (engines working) here
  | received engines _ undelivered emitted =>
      obtain rfl := answers.endpoint_eq rfl
      refine agrees.of_still drives emitted (undelivered ▸ id) ?_
      intro engine working here
      exact agrees.faithful (engines working) here
  | stopped handles engines _ undelivered emitted =>
      obtain rfl := answers.endpoint_eq handles.isAct
      refine agrees.of_still drives emitted (undelivered ▸ id) ?_
      intro engine working here
      obtain ⟨before, earlier, rfl, _⟩ := engines working
      exact (agrees.faithful earlier here).requestStop
  | closed engines _ undelivered emitted =>
      obtain rfl := answers.endpoint_eq rfl
      refine agrees.of_still drives emitted (undelivered ▸ id) ?_
      intro engine working here
      obtain ⟨before, earlier, rfl | rfl⟩ := engines working
      · exact agrees.faithful earlier here
      · exact (agrees.faithful earlier here).requestStop
  | delivered engines _ undelivered emitted =>
      obtain rfl := answers.endpoint_eq rfl
      refine agrees.of_still drives emitted ?_ ?_
      · intro other member
        rw [undelivered]
        exact List.mem_cons_of_mem _ member
      · intro engine working here
        exact agrees.faithful (engines working) here
  | started handles _ first current engines _ undelivered emitted =>
      obtain rfl := answers.endpoint_eq handles.isAct
      refine agrees.of_still drives emitted (undelivered ▸ id) ?_
      intro engine working here
      obtain rfl := engines working
      have member := drives.handled handles
      obtain ⟨found, eligible, held⟩ := Snapshot.next?_eq_some first
      have holds := agrees.clear.snapshots member current found here eligible held
      have size := (accounted.snapshots member).fits found held
      simp only [Entry.isEligible, Bool.and_eq_true, decide_eq_true_eq] at eligible
      have below := holds.size
      subst here
      exact .start holds (by omega) agrees.clear.partway
  | @acted index act before after _ found working step silent engines _ undelivered emitted =>
      have served := answers.served found
      by_cases here : before.path = path
      case neg =>
          refine agrees.of_elsewhere drives (Ne.symm here) step served engines
            (Nat.le_of_eq emitted.symm) ?_
          intro report member _
          rw [undelivered] at member
          exact member
      case pos =>
          have faithful := agrees.faithful working here
          have stepped := faithful.step unscripted step served
          have there : after.path = path := step.path_eq.trans here
          refine agrees.of_drives drives (Nat.le_of_eq emitted.symm)
            (there ▸ stepped.partway) ?_ ?_
          · intro engine atWork _
            obtain rfl := engines atWork
            exact stepped
          · intro report member about whole
            rw [undelivered] at member
            -- While the upload is opened, which may discard a completed one, nothing is under way.
            have further : ¬ before.Opening := by
              intro opening
              rw [(accounted.engines working).opening opening] at member
              cases member
            have completed := agrees.clear.reports member about whole
            subst here
            exact faithful.completed unscripted step served further completed
  | @reported index report before after _ found working step engines _ undelivered emitted =>
      have served := answers.served found
      obtain ⟨made, _⟩ := step.report_made
      obtain ⟨path_eq, uploaded_eq⟩ := Engine.report?_eq_some made
      by_cases here : before.path = path
      case neg =>
          refine agrees.of_elsewhere drives (Ne.symm here) step served engines
            (emitted ▸ Nat.le_succ _) ?_
          intro reported member about
          rcases Executor.mem_of_reported undelivered member with earlier | rfl
          · exact earlier
          · exact absurd (path_eq.symm.trans about) here
      case pos =>
          have faithful := agrees.faithful working here
          have stepped := faithful.step unscripted step served
          have there : after.path = path := step.path_eq.trans here
          cases served with
          | report =>
              refine agrees.of_drives drives (emitted ▸ Nat.le_succ _)
                agrees.clear.partway ?_ ?_
              · intro engine atWork _
                obtain rfl := engines atWork
                exact stepped
              · intro reported member about whole
                rcases Executor.mem_of_reported undelivered member with earlier | rfl
                · exact agrees.clear.reports earlier about whole
                · subst here
                  exact faithful.whole (uploaded_eq ▸ whole)

/-- A report is only heard to confirm all of the content once that is completed. -/
theorem Agrees.confirmed
    {executor : Executor}
    {report : Report}
    (agrees : Agrees path bytes world)
    (accounted : world.scheduler.Accounted)
    (step : Executor.Step world.scheduler.executor work executor)
    (answers : Answers world.scheduler.executor world.endpoint work endpoint)
    (heard : work.report? world.scheduler.executor.hosting = some report)
    (about : report.path = path)
    (whole : bytes.length ≤ report.uploaded) :
    endpoint.completed? path = some bytes := by
  cases step.effect accounted.one with
  | calm _ _ _ _ silent => cases silent.symm.trans heard
  | received => cases heard
  | stopped _ _ _ _ _ silent => cases silent.symm.trans heard
  | started _ _ _ _ _ _ _ _ silent => cases silent.symm.trans heard
  | acted _ _ _ _ _ _ _ _ quiet => cases quiet.symm.trans heard
  | closed => cases heard
  | @delivered delivered _ _ _ undelivered =>
      cases heard
      obtain rfl := answers.endpoint_eq rfl
      refine agrees.clear.reports ?_ about whole
      rw [undelivered]
      exact List.mem_cons_self
  | @reported index made before after _ found working acting =>
      have same : made = report := by
        unfold Executor.Move.report? at heard
        dsimp only at heard
        split at heard
        · exact Option.some.inj heard
        · cases heard
      subst same
      obtain ⟨path_eq, uploaded_eq⟩ := Engine.report?_eq_some acting.report_made.1
      have here : before.path = path := path_eq.symm.trans about
      cases answers.served found with
      | report =>
          have faithful := agrees.faithful working here
          subst here
          exact faithful.whole (uploaded_eq ▸ whole)

end Work

/-! ## Whole runs -/

/-- A step that adds a file to the path only while nothing of another content is under way. -/
def CarefulStep (path : String) (world : World) (move : Scheduler.Move) (next : World) : Prop :=
  Step world move next ∧
    ∀ {file : FileHandle}, move = .add file path →
      ∃ bytes, file.Holds bytes ∧ Clear path bytes world

theorem clear_empty
    (limit : Nat)
    (hosting : Hosting)
    (tuning : Tuning)
    (path : String)
    (bytes : Bytes) :
    Clear path bytes (empty limit hosting tuning) where
  engines := by rintro _ ⟨_, _, ⟨⟩, _⟩
  partway := by rintro _ ⟨⟩
  snapshots := by rintro _ _ _ ⟨⟩
  reports := by rintro _ ⟨⟩

theorem Tracks.start
    (limit : Nat)
    (hosting : Hosting)
    (tuning : Tuning)
    (path : String) :
    Tracks path (empty limit hosting tuning) where
  accounted := .start limit hosting tuning
  unscripted := ⟨rfl, rfl, rfl⟩
  content := by
    refine ⟨[], ⟨clear_empty limit hosting tuning path [], ?_⟩, ?_⟩
    · rintro _ ⟨_, _, ⟨⟩, _⟩
    · rintro _ _ ⟨⟩

theorem Tracks.drives
    {work : Executor.Move}
    {scheduler : Scheduler}
    {endpoint : Endpoint}
    (tracks : Tracks path world)
    (drives : Scheduler.Drives world.scheduler work scheduler)
    (answers : Answers world.scheduler.executor world.endpoint work endpoint) :
    Tracks path ⟨scheduler, endpoint⟩ where
  accounted := tracks.accounted.drives drives
  unscripted := answers.unscripted tracks.unscripted
  content := by
    obtain ⟨bytes, agrees, queued⟩ := tracks.content
    refine ⟨bytes, agrees.drives tracks.accounted tracks.unscripted drives answers, ?_⟩
    have heard :=
      Scheduler.hear_cases world.scheduler.queue (work.report? world.scheduler.executor.hosting)
    rw [← drives.queue] at heard
    intro entry file found held
    rcases heard with same | ⟨report, _, applied⟩
    · rw [same] at found
      exact queued found held
    · rw [applied, tracks.accounted.tidy.find?_reconcile] at found
      split at found
      · obtain ⟨before, earlier, kept⟩ := Option.bind_eq_some_iff.mp found
        split at kept
        · cases kept
        · cases kept
          exact queued earlier held
      · exact queued found held

theorem Tracks.step
    (tracks : Tracks path world)
    (careful : CarefulStep path world move next) :
    Tracks path next := by
  obtain ⟨step, clear⟩ := careful
  have accounted := tracks.accounted.step step.cases
  obtain ⟨bytes, agrees, queued⟩ := tracks.content
  have tidy := tracks.accounted.tidy
  cases step with
  | work step answers =>
      cases step with
      | work own step => exact tracks.drives (Scheduler.drives_work own step) answers
  | call others step =>
      cases step with
      | @add file other queue added =>
          refine ⟨accounted, tracks.unscripted, ?_⟩
          by_cases here : other = path
          · subst here
            obtain ⟨given, holds, clear⟩ := clear rfl
            refine ⟨given, (agrees.of_clear clear).requeue queue, ?_⟩
            intro entry found listed held
            obtain ⟨added, present, carries, _⟩ := Queue.find?_add added
            cases present.symm.trans listed
            cases carries.symm.trans held
            exact holds
          · refine ⟨bytes, agrees.requeue queue, ?_⟩
            intro entry found listed held
            rw [Queue.find?_add_of_ne added (Ne.symm here)] at listed
            exact queued listed held
      | @stop other queue stopped =>
          refine ⟨accounted, tracks.unscripted, bytes, agrees.requeue queue, ?_⟩
          intro entry found listed held
          rw [Queue.find?_stop stopped] at listed
          split at listed
          · obtain ⟨before, earlier, rfl⟩ := Option.map_eq_some_iff.mp listed
            exact queued earlier held
          · exact queued listed held
      | @discard other queue deleted =>
          refine ⟨accounted, tracks.unscripted, bytes, agrees.requeue queue, ?_⟩
          intro entry found listed held
          rw [tidy.find?_delete deleted] at listed
          split at listed
          · cases listed
          · exact queued listed held
      | restore infos =>
          refine ⟨accounted, tracks.unscripted, bytes, agrees.requeue _, ?_⟩
          intro entry found listed held
          cases before : world.scheduler.queue.find? path with
          | none =>
              rw [(Queue.find?_restore_of_none before listed).1] at held
              cases held
          | some earlier =>
              cases (Queue.find?_restore_of_some before).symm.trans listed
              exact queued before held
      | tick => exact ⟨accounted, tracks.unscripted, bytes, agrees.tick tidy queued, queued⟩
      | post found => exact tracks.drives (Scheduler.drives_post found) (.idle rfl)
      | work => exact absurd rfl others

/--
A report that removes an entry as complete finds the file of the entry completed at the endpoint, if
no file was added to the path while something of another content was under way there.
-/
theorem completion_keeps_file
    {limit : Nat}
    {hosting : Hosting}
    {tuning : Tuning}
    {moves : List Scheduler.Move}
    {work : Executor.Move}
    {report : Report}
    {entry : Entry}
    {file : FileHandle}
    (run : Trace (CarefulStep path) (empty limit hosting tuning) moves world)
    (step : Step world (.work work) next)
    (heard : work.report? world.scheduler.executor.hosting = some report)
    (about : report.path = path)
    (queued : world.scheduler.queue.find? path = some entry)
    (whole : entry.size ≤ report.uploaded)
    (held : entry.file = some file)
    (holds : file.Holds bytes) :
    next.scheduler.queue.find? path = none ∧
      next.endpoint.completed? path = some bytes := by
  have tracks : Tracks path world := run.invariant (.start limit hosting tuning path) Tracks.step
  obtain ⟨content, agrees, listed⟩ := tracks.content
  obtain rfl := (listed queued held).unique holds
  have tidy := tracks.accounted.tidy
  have size := tidy.fits (Queue.mem_of_find? queued) held
  have confirmed : content.length ≤ report.uploaded := by
    rw [← holds.size, size]
    exact whole
  cases step with
  | call others => exact absurd rfl others
  | work step answers =>
      cases step with
      | work own step =>
          constructor
          · rw [heard]
            have removed := tidy.find?_reconcile report path
            rw [if_pos about.symm, queued, Option.bind_some, if_pos whole] at removed
            exact removed
          · exact agrees.confirmed tracks.accounted step answers heard about confirmed

/-- To add a file again that holds what the queued one does is always to be careful. -/
theorem clear_of_queued
    {limit : Nat}
    {hosting : Hosting}
    {tuning : Tuning}
    {moves : List Scheduler.Move}
    {entry : Entry}
    {file : FileHandle}
    (run : Trace (CarefulStep path) (empty limit hosting tuning) moves world)
    (queued : world.scheduler.queue.find? path = some entry)
    (held : entry.file = some file)
    (holds : file.Holds bytes) :
    Clear path bytes world := by
  have tracks : Tracks path world := run.invariant (.start limit hosting tuning path) Tracks.step
  obtain ⟨content, agrees, listed⟩ := tracks.content
  obtain rfl := (listed queued held).unique holds
  exact agrees.clear

/-! ## A file that arrives, and one that does not -/

theorem careful_of_proceed?
    {cue : Cue}
    (proceeded : world.proceed? cue = some next) :
    ∃ move, CarefulStep path world move next := by
  obtain ⟨move, step, unasked⟩ := step_of_proceed? proceeded
  exact ⟨move, step, fun adds => absurd adds unasked⟩

theorem careful_of_cues
    {cues : List Cue}
    (proceeded : cues.foldlM proceed? world = some next) :
    ∃ moves, Trace (CarefulStep path) world moves next := by
  obtain ⟨_, run⟩ :=
    (Trace.of_foldlM (fun before _ after => ∃ move, CarefulStep path before move after)
      careful_of_proceed? proceeded).relabel id
  exact ⟨_, run⟩

/-- The world before any of the two is added. -/
def unused : World :=
  empty 10 .background (Config.tuning { chunkLength := 1 })

/-- What follows once a file was added, until the first half of it is confirmed. -/
def firstHalf : List Cue :=
  [ .move .tick, .move (.post 0), .move (.work .handle), .go 0, .go 0, .go 0, .go 0, .go 0,
    .move .tick ]

/-- What follows then, until the last report waits for delivery. -/
def secondHalf : List Cue :=
  [ .move (.work (.deliver (.progress ⟨"a", 1, true, ""⟩))), .move (.post 0),
    .move (.work .handle), .go 0, .go 0, .go 0, .go 0, .go 0 ]

/--
A file is added again under another handle while an engine is sending it, the endpoint holds a part of it,
and a report and a snapshot are under way.
-/
def addedTwice : Option World :=
  (unused.follow? (.move (.add ⟨0, .ofBytes [1, 2]⟩ "a"))).bind fun begun =>
    (firstHalf.foldlM proceed? begun).bind fun half =>
      (half.follow? (.move (.add ⟨1, .ofBytes [1, 2]⟩ "a"))).bind (secondHalf.foldlM proceed? ·)

theorem file_added_twice_is_kept :
    ∃ moves world next entry,
      Trace (CarefulStep "a") unused moves world ∧
        Step world (.work (.deliver (.progress ⟨"a", 2, false, ""⟩))) next ∧
        world.scheduler.queue.find? "a" = some entry ∧
        entry.file = some ⟨1, .ofBytes [1, 2]⟩ ∧
        next.scheduler.queue.find? "a" = none ∧
        next.endpoint.completed? "a" = some [1, 2] := by
  have queued :
      addedTwice.bind (·.scheduler.queue.find? "a") =
        some ⟨some ⟨1, .ofBytes [1, 2]⟩, "a", 2, 1, true, ""⟩ := by
    rfl
  have delivers :
      (addedTwice.bind
        (·.follow? (.move (.work (.deliver (.progress ⟨"a", 2, false, ""⟩)))))).isSome = true := by
    decide
  obtain ⟨world, made, found⟩ := Option.bind_eq_some_iff.mp queued
  rw [made, Option.bind_some] at delivers
  obtain ⟨next, delivered⟩ := Option.isSome_iff_exists.mp delivers
  unfold addedTwice at made
  obtain ⟨begun, added, made⟩ := Option.bind_eq_some_iff.mp made
  obtain ⟨half, sent, made⟩ := Option.bind_eq_some_iff.mp made
  obtain ⟨again, readded, made⟩ := Option.bind_eq_some_iff.mp made
  have first : CarefulStep "a" unused (.add ⟨0, .ofBytes [1, 2]⟩ "a") begun := by
    refine ⟨step_of_follow?_move added, ?_⟩
    rintro _ ⟨⟩
    exact ⟨[1, 2], FileHandle.holds_ofBytes 0 [1, 2], clear_empty _ _ _ _ _⟩
  obtain ⟨_, sending⟩ := careful_of_cues sent
  have before := (Trace.snoc .refl first).append sending
  have second : CarefulStep "a" half (.add ⟨1, .ofBytes [1, 2]⟩ "a") again := by
    refine ⟨step_of_follow?_move readded, ?_⟩
    rintro _ ⟨⟩
    refine ⟨[1, 2], FileHandle.holds_ofBytes 1 [1, 2], ?_⟩
    have listed :
        ((unused.follow? (.move (.add ⟨0, .ofBytes [1, 2]⟩ "a"))).bind
          (firstHalf.foldlM proceed? ·)).bind (·.scheduler.queue.find? "a") =
            some ⟨some ⟨0, .ofBytes [1, 2]⟩, "a", 2, 0, true, ""⟩ := by
      rfl
    rw [added, Option.bind_some, sent, Option.bind_some] at listed
    exact clear_of_queued before listed rfl (FileHandle.holds_ofBytes 0 [1, 2])
  obtain ⟨_, rest⟩ := careful_of_cues made
  have run := (before.snoc second).append rest
  have step := step_of_follow?_move delivered
  have kept := completion_keeps_file run step rfl rfl found (by decide) rfl
    (FileHandle.holds_ofBytes 1 [1, 2])
  exact ⟨_, world, next, _, run, step, found, rfl, kept.1, kept.2⟩

/-- A file is added, and another one of its size takes its place while an engine sends the first. -/
def replacement : List Cue :=
  [ .move (.add ⟨0, .ofBytes [1]⟩ "a"), .move .tick, .move (.post 0), .move (.work .handle), .go 0,
    .move (.add ⟨1, .ofBytes [2]⟩ "a"), .go 0, .go 0, .go 0, .go 0, .go 0 ]

/-- The entry of the second file is removed as complete, but what arrived is the first one. -/
theorem replaced_file_is_lost :
    ∃ moves world next entry,
      Trace Step (empty 10 .background (Config.tuning {})) moves world ∧
        Step world (.work (.deliver (.progress ⟨"a", 1, false, ""⟩))) next ∧
        world.scheduler.queue.find? "a" = some entry ∧ entry.size ≤ 1 ∧
        entry.file = some ⟨1, .ofBytes [2]⟩ ∧ FileHandle.Holds ⟨1, .ofBytes [2]⟩ [2] ∧
        next.scheduler.queue.find? "a" = none ∧
        next.endpoint.completed? "a" = some [1] := by
  have queued :
      (replacement.foldlM follow? (empty 10 .background (Config.tuning {}))).bind
        (·.scheduler.queue.find? "a") = some ⟨some ⟨1, .ofBytes [2]⟩, "a", 1, 0, true, ""⟩ := by
    rfl
  have removed :
      ((replacement.foldlM follow? (empty 10 .background (Config.tuning {}))).bind
        (·.follow? (.move (.work (.deliver (.progress ⟨"a", 1, false, ""⟩)))))).map (fun next =>
          ((next.scheduler.queue.find? "a").isNone, next.endpoint.completed? "a")) =
            some (true, some [1]) := by
    decide
  obtain ⟨world, followed, found⟩ := Option.bind_eq_some_iff.mp queued
  rw [followed, Option.bind_some] at removed
  obtain ⟨next, delivered, ends⟩ := Option.map_eq_some_iff.mp removed
  rw [Prod.mk.injEq, Option.isNone_iff_eq_none] at ends
  obtain ⟨moves, run⟩ :=
    (Trace.of_foldlM (fun before _ after => ∃ move, Step before move after)
      step_of_follow? followed).relabel id
  exact ⟨moves, world, next, _, run, step_of_follow?_move delivered, found, by decide, rfl,
    FileHandle.holds_ofBytes 1 [2], ends.1, ends.2⟩

end World

end ResumableUpload
