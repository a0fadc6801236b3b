import ResumableUpload.Proofs.Executor.Draining
import ResumableUpload.Proofs.Scheduler.Tickets

/-!
# What a handled snapshot does

From the moment at which a snapshot is handled, until the next one is, chunks are sent for the first
runnable entry of the snapshot only, apart from one chunk that an engine was about to send.  Since
snapshots that were taken after a path was stopped or discarded do not want it, the path stays at
rest once such a snapshot was handled, as long as no older one is handled later.
-/

namespace ResumableUpload

/-- Of ready entries only the first runnable one keeps the slot. -/
theorem Snapshot.first?_of_keeps
    {snapshot : Snapshot}
    {path : String}
    (ready : ∀ entry ∈ snapshot.entries, entry.Ready)
    (kept : Executor.keeps snapshot path = true) :
    snapshot.first?.map (·.path) = some path := by
  have first := Snapshot.next?_eq_first? ready
  unfold Executor.keeps at kept
  split at kept
  case h_1 entry file chosen =>
      rw [← first, chosen, Option.map_some, Option.map_some, beq_iff_eq.mp kept]
  case h_2 none =>
      rw [none, Option.map_none] at first
      obtain ⟨entry, member, wanted⟩ := List.any_eq_true.mp kept
      have paused := List.find?_eq_none.mp first.symm entry member
      rw [Bool.and_eq_true] at wanted
      exact absurd wanted.2 paused

namespace Scheduler

variable {scheduler next before after later : Scheduler} {move : Move} {moves further : List Move}
variable {snapshot : Snapshot} {kind : String → Bool} {path : String}

/-! ## Chunks that are sent on a run -/

/-- The run whose engine sends a chunk in a move. -/
def Move.sender? : Move → Option Nat
  | .work move => move.sender?
  | _ => none

/-- The runs that send a chunk for paths of one kind, once for each chunk. -/
def senders (kind : String → Bool) (moves : List Move) (final : Scheduler) : List Nat :=
  final.executor.ofKind kind (moves.filterMap Move.sender?)

/--
At most one chunk is sent for paths of one kind, by an engine that had already looked whether it was
told to stop.
-/
structure Subsides
    (kind : String → Bool)
    (before : Scheduler)
    (moves : List Move)
    (final : Scheduler) : Prop where
  single : (senders kind moves final).length ≤ 1
  committed :
    ∀ index ∈ senders kind moves final,
      ∃ engine, before.executor.Working index engine ∧ engine.Committed

theorem Subsides.of_narrower
    {other : String → Bool}
    (subsides : Subsides kind before moves later)
    (narrower : ∀ path, other path = true → kind path = true) :
    Subsides other before moves later := by
  have fewer : (senders other moves later).Sublist (senders kind moves later) := by
    apply List.monotone_filter_right
    intro index started
    obtain ⟨path, found, here⟩ := (Option.any_eq_true _ _).mp started
    exact (Option.any_eq_true _ _).mpr ⟨path, found, narrower path here⟩
  exact ⟨Nat.le_trans fewer.length_le subsides.single,
    fun index member => subsides.committed index (fewer.mem member)⟩

/-- A step in which no engine is started for paths of one kind. -/
structure Spares (kind : String → Bool) (scheduler : Scheduler) (move : Move) (next : Scheduler) :
    Prop where
  step : Step scheduler move next
  spared :
    ∀ {snapshot : Snapshot} {entry : Entry} {file : FileHandle},
      scheduler.Handles move snapshot → snapshot.next? = some (entry, file) →
        kind entry.path = false

theorem winds_of_trace
    {start : Executor}
    (winds : Executor.Winds kind start [] scheduler.executor)
    (run : Trace (Spares kind) scheduler moves next) :
    Executor.Winds kind start (moves.filterMap Move.sender?) next.executor := by
  induction run with
  | refl => exact winds
  | @snoc labels middle final label past last earlier =>
      rw [filterMap_concat]
      have spared := fun {work : Executor.Move} (works : middle.work? label = some work)
        {snapshot : Snapshot} {entry : Entry} {file : FileHandle}
        (handles : middle.executor.Handles work snapshot)
        (first : snapshot.next? = some (entry, file)) =>
          last.spared ⟨work, works, handles⟩ first
      cases last.step with
      | post found =>
          exact earlier.step (drives_post found).step (spared (congrArg (Option.map _) found))
      | work own acting => exact earlier.step acting (spared rfl)
      | add | stop | discard | restore | tick =>
          rw [← List.append_nil (labels.filterMap Move.sender?)] at earlier
          exact earlier

/--
Once every engine for a path of this kind was told to stop, at most one more chunk is sent for such
paths, as long as no engine is started for them.
-/
theorem subsides_of_told
    {work : Executor.Move}
    (one : before.executor.OneTransfer)
    (moved : Executor.Step before.executor work after.executor)
    (still : work.isAct = false)
    (told :
      ∀ {engine : Engine}, after.executor.AtWork engine → kind engine.path = true →
        engine.stopRequested = true)
    (run : Trace (Spares kind) after further later) :
    Subsides kind before further later := by
  have winds := winds_of_trace (.start_of_told (one.step moved) told) run
  refine ⟨winds.single, ?_⟩
  intro index member
  obtain ⟨first, working, committed⟩ := winds.senders index member
  rcases moved.working working with ⟨engine, earlier, goes⟩ | ⟨_, _, _, _, _, rfl⟩
  · cases goes with
    | stays => exact ⟨_, earlier, committed⟩
    | told => exact ⟨_, earlier, committed⟩
    | acts acting =>
        rw [acting] at still
        cases still
  · exact committed.elim

/--
Once a snapshot was handled that keeps no path of this kind, at most one more chunk is sent for such
paths, as long as no engine is started for them.
-/
theorem subsides_of_handled
    (accounted : Accounted before)
    (step : Step before move after)
    (handles : before.Handles move snapshot)
    (unkept : ∀ path, kind path = true → Executor.keeps snapshot path = false)
    (run : Trace (Spares kind) after further later) :
    Subsides kind before further later := by
  obtain ⟨work, works, handled⟩ := handles
  have moved := (step.drives works).step
  refine subsides_of_told accounted.one moved handled.isAct ?_ run
  intro engine atWork here
  rcases moved.told_of_handles accounted.one handled atWork with told | kept
  · exact told
  · cases kept.symm.trans (unkept engine.path here)

theorem Handles.adds_eq
    (handles : scheduler.Handles move snapshot)
    (path : String) :
    move.adds path = false := by
  obtain ⟨work, works, _⟩ := handles
  cases move with
  | add => cases works
  | _ => rfl

/-! ## Until the next snapshot is handled -/

/-- A step in which no snapshot is handled. -/
structure Quiet (scheduler : Scheduler) (move : Move) (next : Scheduler) : Prop where
  step : Step scheduler move next
  unhandled : ∀ {snapshot : Snapshot}, ¬ scheduler.Handles move snapshot

theorem Quiet.spares (quiet : Quiet scheduler move next) : Spares kind scheduler move next :=
  ⟨quiet.step, fun handles => absurd handles quiet.unhandled⟩

/-- All entries are ready, in the queue and in every snapshot. -/
structure Ready (scheduler : Scheduler) : Prop where
  queued : scheduler.queue.Ready
  snapshots :
    ∀ {snapshot : Snapshot},
      snapshot ∈ scheduler.waiting → ∀ entry ∈ snapshot.entries, entry.Ready

theorem Ready.step
    (ready : Ready scheduler)
    (accounted : Accounted scheduler)
    (step : Step scheduler move next) :
    Ready next := by
  have tidy := accounted.tidy
  constructor
  · cases step with
    | add added => exact ready.queued.add tidy added
    | stop stopped => exact ready.queued.stop tidy stopped
    | discard deleted => exact ready.queued.delete deleted
    | restore infos => exact ready.queued.restore
    | tick => exact ready.queued
    | post => exact ready.queued
    | work => exact hear_of_reconcile Queue.Ready ready.queued (ready.queued.reconcile tidy) _
  · intro snapshot member
    rcases step.waiting_cases member with earlier | ⟨_, rfl⟩
    · exact ready.snapshots earlier
    · exact ready.queued

theorem ready_of_trace
    {limit : Nat}
    {hosting : Hosting}
    {tuning : Tuning}
    (run :
      Trace Step { limit := limit, executor := { hosting := hosting, tuning := tuning } }
        moves next) :
    Ready next := by
  induction run with
  | refl =>
      constructor
      · rintro _ ⟨⟩
      · rintro _ ⟨⟩
  | snoc past last ready => exact ready.step (accounted_of_trace past) last

/-! ## After a path was stopped or discarded -/

/--
The path is not runnable, and the snapshots that were taken since this many had been do not want it.
-/
structure Halted
    (path : String)
    (mark : Nat)
    (scheduler : Scheduler)
    (tickets : Tickets) : Prop where
  accounted : Accounted scheduler
  paused : scheduler.queue.Paused path
  numbered :
    Numbered (fun snapshot ticket => mark ≤ ticket → snapshot.wants path = false) scheduler tickets

namespace Halted

variable {mark : Nat} {tickets : Tickets} {hosting : Hosting} {past : List Move}

theorem step
    (halted : Halted path mark scheduler tickets)
    (step : Step scheduler move next)
    (unasked : move.adds path = false) :
    Halted path mark next (tickets.follow scheduler.executor.hosting move) where
  accounted := halted.accounted.step step
  paused := step.paused halted.accounted.tidy unasked halted.paused
  numbered := halted.numbered.step step fun _ _ => halted.paused.snapshot halted.accounted.tidy

theorem trace
    (halted : Halted path mark scheduler (ticketsOf hosting past))
    (hosted : scheduler.executor.hosting = hosting)
    (run : Trace Step scheduler moves next)
    (unasked : ∀ move ∈ moves, move.adds path = false) :
    Halted path mark next (ticketsOf hosting (past ++ moves)) := by
  induction run with
  | refl => rwa [List.append_nil]
  | @snoc labels middle final label run last earlier =>
      have still := earlier fun move member => unasked move (List.mem_append_left _ member)
      have stepped := still.step last (unasked label (by simp))
      rw [hosting_of_trace run, hosted] at stepped
      rwa [← List.append_assoc, ticketsOf_concat]

/-- A snapshot with a later number does not want the path. -/
theorem wants_of_handled
    {ticket : Nat}
    (halted : Halted path mark scheduler (ticketsOf hosting moves))
    (hosted : scheduler.executor.hosting = hosting)
    (step : Step scheduler move next)
    (handles : scheduler.Handles move snapshot)
    (handled :
      (ticketsOf hosting (moves ++ [move])).handled = (ticketsOf hosting moves).handled ++ [ticket])
    (since : mark ≤ ticket) :
    snapshot.wants path = false := by
  obtain ⟨number, unwanted, numbered⟩ := halted.numbered.handled step handles
  rw [hosted, ← ticketsOf_concat, handled] at numbered
  cases List.append_cancel_left numbered
  exact unwanted since

/-- While no older snapshot is handled, none is handled that wants the path. -/
theorem spares
    {ticket : Nat}
    (halted : Halted path mark scheduler (ticketsOf hosting past))
    (hosted : scheduler.executor.hosting = hosting)
    (run : Trace Step scheduler moves next)
    (unasked : ∀ move ∈ moves, move.adds path = false)
    (handled : ticket ∈ (ticketsOf hosting past).handled)
    (since : mark ≤ ticket)
    (ordered : (ticketsOf hosting (past ++ moves)).handled.Pairwise (· < ·)) :
    Trace (Spares (· == path)) scheduler moves next := by
  induction run with
  | refl => exact .refl
  | @snoc labels middle final label run last earlier =>
      have asked : ∀ move ∈ labels, move.adds path = false :=
        fun move member => unasked move (List.mem_append_left _ member)
      rw [← List.append_assoc] at ordered
      have before := ordered.sublist (handled_ticketsOf hosting (past ++ labels) [label]).sublist
      refine (earlier asked before).snoc ⟨last, ?_⟩
      intro snapshot entry file handles first
      have still := halted.trace hosted run asked
      have hosts := (hosting_of_trace run).trans hosted
      obtain ⟨number, _, numbered⟩ := still.numbered.handled last handles
      rw [hosts, ← ticketsOf_concat] at numbered
      -- The snapshot comes after the one that was handled first, so it was taken later.
      have later : ticket < number := by
        rw [numbered, List.pairwise_append] at ordered
        have member := (handled_ticketsOf hosting past labels).subset handled
        exact ordered.2.2 ticket member number (List.mem_singleton_self _)
      have unwanted :=
        still.wants_of_handled hosts last handles numbered (Nat.le_trans since (Nat.le_of_lt later))
      rw [beq_eq_false_iff_ne]
      intro here
      cases unwanted.symm.trans (Snapshot.wants_of_next? first here)

end Halted

/-- A path is halted as soon as it was stopped or discarded. -/
theorem halted_of_halt
    {limit : Nat}
    {hosting : Hosting}
    {tuning : Tuning}
    (run :
      Trace Step { limit := limit, executor := { hosting := hosting, tuning := tuning } }
        moves scheduler)
    (step : Step scheduler move next)
    (halt : move = .stop path ∨ move = .discard path) :
    Halted path (ticketsOf hosting moves).issued next (ticketsOf hosting (moves ++ [move])) := by
  have accounted := accounted_of_trace run
  have hosted : scheduler.executor.hosting = hosting := hosting_of_trace run
  have numbered :
      Numbered
        (fun snapshot ticket => (ticketsOf hosting moves).issued ≤ ticket →
          snapshot.wants path = false)
        scheduler (ticketsOf hosting moves) :=
    (numbered_of_trace run).imp fun _ _ below since => absurd since (Nat.not_le_of_lt below)
  have unticked : move ≠ .tick := by
    rcases halt with rfl | rfl <;> rintro ⟨⟩
  have stepped := numbered.step step fun ticked => absurd ticked unticked
  rw [hosted, ← ticketsOf_concat] at stepped
  refine ⟨accounted.step step, ?_, stepped⟩
  rcases halt with rfl | rfl
  · cases step with
    | stop stopped => exact Queue.paused_stop stopped
  · cases step with
    | discard deleted => exact Queue.paused_delete accounted.tidy deleted

/-! ## Handled snapshots take effect -/

/--
From the moment at which a snapshot is handled until the next one is, all chunks are for the path of
its first runnable entry, except at most one of an engine that had already looked whether to stop; so
no entry behind a runnable one goes on.  And if the snapshot was taken after a path was stopped or
discarded, and snapshots are handled in the order in which they were taken, then the path comes to
rest in this way until it is added again.
-/
theorem handled_snapshot_takes_effect
    {limit : Nat}
    {hosting : Hosting}
    {tuning : Tuning}
    (run :
      Trace Step { limit := limit, executor := { hosting := hosting, tuning := tuning } }
        moves before)
    (step : Step before move after)
    (handles : before.Handles move snapshot) :
    (∀ {further : List Move} {later : Scheduler},
      Trace Quiet after further later →
        Subsides (fun path => snapshot.first?.map (·.path) != some path) before further later) ∧
    (∀ {further : List Move} {later : Scheduler} {front back : List Entry} {entry : Entry},
      Trace Quiet after further later → snapshot.entries = front ++ entry :: back →
        (∃ earlier ∈ front, earlier.runnable = true) →
          Subsides (· == entry.path) before further later) ∧
    ∀ {past between further : List Move} {halt : Move} {path : String} {ticket : Nat}
      {later : Scheduler},
      moves = past ++ halt :: between → halt = .stop path ∨ halt = .discard path →
        (ticketsOf hosting (moves ++ [move])).handled =
            (ticketsOf hosting moves).handled ++ [ticket] →
          (ticketsOf hosting past).issued ≤ ticket → Trace Step after further later →
            (ticketsOf hosting (moves ++ move :: further)).handled.Pairwise (· < ·) →
              (∀ other ∈ between ++ further, other.adds path = false) →
                Subsides (· == path) before further later := by
  have accounted := accounted_of_trace run
  have listed : snapshot ∈ before.waiting := by
    obtain ⟨work, works, handled⟩ := handles
    exact (step.drives works).handled handled
  have first : ∀ {further : List Move} {later : Scheduler}, Trace Quiet after further later →
      Subsides (fun path => snapshot.first?.map (·.path) != some path) before further later := by
    intro further later quiet
    refine subsides_of_handled accounted step handles ?_ (quiet.imp Quiet.spares)
    intro path other
    rw [Bool.eq_false_iff]
    intro kept
    have same := Snapshot.first?_of_keeps ((ready_of_trace run).snapshots listed) kept
    exact bne_iff_ne.mp other same
  refine ⟨first, ?_, ?_⟩
  · intro further later front back entry quiet entries runnable
    refine (first quiet).of_narrower ?_
    intro path here
    obtain rfl := beq_iff_eq.mp here
    exact bne_iff_ne.mpr (Snapshot.first?_ne (accounted.snapshots listed) entries runnable)
  · intro past between further halt path ticket later parted halts number since future ordered
      unasked
    subst parted
    obtain ⟨stopping, earlier, rest⟩ := run.split
    obtain ⟨stopped, halting, afterwards⟩ := rest.uncons rfl
    have hosted : before.executor.hosting = hosting := hosting_of_trace run
    have halted := halted_of_halt earlier halting halts
    have still := halted.trace (hosting_of_trace (earlier.snoc halting)) afterwards
      fun other member => unasked other (List.mem_append_left _ member)
    rw [List.append_assoc, List.singleton_append] at still
    have unwanted := still.wants_of_handled hosted step handles number since
    have next := still.step step (handles.adds_eq path)
    rw [hosted, ← ticketsOf_concat] at next
    refine subsides_of_handled accounted step handles ?_ ?_
    · intro other here
      obtain rfl := beq_iff_eq.mp here
      rw [Bool.eq_false_iff]
      intro kept
      cases unwanted.symm.trans (Snapshot.wants_of_keeps kept)
    · have handled :
          ticket ∈ (ticketsOf hosting (past ++ halt :: between ++ [move])).handled := by
        rw [number]
        exact List.mem_append_right _ (List.mem_singleton_self _)
      rw [List.append_cons] at ordered
      exact next.spares (step.hosting_eq.trans hosted) future
        (fun other member => unasked other (List.mem_append_right _ member)) handled since ordered

/-- The scheduler after an engine has done something. -/
def act? (scheduler : Scheduler) : Move → Option Scheduler
  | .work (.act index act) => scheduler.move? (.work (.act index act))
  | _ => none

theorem quiet_of_act? (acted : scheduler.act? move = some next) : Quiet scheduler move next := by
  unfold act? at acted
  split at acted
  case h_1 =>
      refine ⟨step_of_move? acted, ?_⟩
      rintro _ ⟨_, ⟨⟩, handles⟩
      cases handles.isAct
  case h_2 => cases acted

/-- A file is added, and its engine is about to read the first chunk. -/
def aboutToRead : List Move :=
  [ .add ⟨0, .ofBytes [1, 2]⟩ "a", .tick, .post 0, .work .handle,
    .work (.act 0 (.create (.ok (Response.success ⟨"a", 2⟩)))), .work (.act 0 .check) ]

/-- The file is stopped, and a snapshot of that waits to be handled. -/
def stoppedInFlight : List Move :=
  aboutToRead ++ .stop "a" :: [.tick, .post 0]

/-- The engine sends that chunk and then looks whether to stop. -/
def lastChunk : List Move :=
  [ .work (.act 0 (.read (.ok [1]))),
    .work (.act 0 (.chunk 0 "AQ==" (.ok (Response.success ⟨"a", 1, 2⟩)))),
    .work (.act 0 (.report ⟨"a", 1, true, ""⟩)), .work (.act 0 .check),
    .work (.act 0 (.report ⟨"a", 1, false, Outcome.stopped.message⟩)) ]

theorem stopped_file_sends_one_chunk :
    ∃ before after later snapshot engine,
      Trace Step { limit := 10, executor := { hosting := .background, tuning := Config.tuning {} } }
          stoppedInFlight before ∧
        Step before (.work .handle) after ∧ before.Handles (.work .handle) snapshot ∧
        Trace Quiet after lastChunk later ∧ senders (· == "a") lastChunk later = [0] ∧
        (senders (fun path => snapshot.first?.map (·.path) != some path) lastChunk later).length ≤ 1 ∧
        before.executor.Working 0 engine ∧ engine.Committed := by
  have made :
      ((stoppedInFlight.foldlM move?
          { limit := 10, executor := { hosting := .background, tuning := Config.tuning {} } }).bind
        fun before =>
          (before.move? (.work .handle)).bind fun after =>
            (lastChunk.foldlM act? after).map fun later =>
              (before.executor.requests.length, senders (· == "a") lastChunk later)) =
          some (1, [0]) := by
    decide
  obtain ⟨before, stopped, rest⟩ := Option.bind_eq_some_iff.mp made
  obtain ⟨after, handled, rest⟩ := Option.bind_eq_some_iff.mp rest
  obtain ⟨later, sent, seen⟩ := Option.map_eq_some_iff.mp rest
  obtain ⟨waits, sender⟩ := Prod.mk.inj seen
  have run := Trace.of_foldlM Step step_of_move? stopped
  have step := step_of_move? handled
  have quiet := Trace.of_foldlM Quiet quiet_of_act? sent
  obtain ⟨snapshot, waiting⟩ := List.length_eq_one_iff.mp waits
  have handles : before.Handles (.work .handle) snapshot :=
    ⟨.handle, rfl, .queued (hosting_of_trace run) waiting⟩
  have further : Trace Step after lastChunk later := quiet.imp Quiet.step
  have number :
      (ticketsOf .background (stoppedInFlight ++ [.work .handle])).handled =
        (ticketsOf .background stoppedInFlight).handled ++ [1] := by
    decide
  obtain ⟨untilNext, _, untilAdded⟩ := handled_snapshot_takes_effect run step handles
  have subsides : Subsides (· == "a") before lastChunk later :=
    untilAdded rfl (.inl rfl) number (by decide) further (by decide) (by decide)
  obtain ⟨engine, working, committed⟩ := subsides.committed 0 (by rw [sender]; decide)
  exact ⟨before, after, later, snapshot, engine, run, step, handles, quiet, sender,
    (untilNext quiet).single, working, committed⟩

end Scheduler

end ResumableUpload
