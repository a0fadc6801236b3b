import ResumableUpload.Proofs.Scheduler.Client

/-!
# Where engines run makes no difference

`Comes` says what comes of a call once everything has come to rest, without a word about executors: a
tick transfers the first entry of the queue to its end, as far as one may run, and the queue hears of
every report in the order in which they were made.  A client with a settled executor (`Ready`) can
come to rest in this way and in no other, wherever its engines run.  In between, the engine may be
ahead of the queue by the reports that were not delivered yet (`Underway`), but neither waits for the
other.
-/

namespace ResumableUpload

namespace Client

variable {State : Type} {service : Service State} {client next final : Client State}
variable {limit : Nat} {tuning : Tuning} {hosting : Hosting} {view : View State}
variable {move : Executor.Move} {base : Executor} {begun : View State} {engine : Engine}
variable {flight after : Executor.Flight} {acts : List Engine.Act} {heard : List Report}

/-! ## What comes of a call -/

/-- The reports that are made in acts of an engine. -/
def reportsOf (acts : List Engine.Act) : List Report :=
  acts.filterMap Engine.Act.report?

/-- What comes of a call once everything has come to rest. -/
inductive Comes (service : Service State) (limit : Nat) (tuning : Tuning) (view : View State) :
    Operation → View State → Prop where
  | changed {operation : Operation} (call : operation ≠ .tick) :
      Comes service limit tuning view operation
        { view with queue := operation.change limit view.queue }
  | idle (none : view.queue.snapshot.next? = none) :
      Comes service limit tuning view .tick view
  | transferred {entry : Entry} {file : FileHandle} {acts : List Engine.Act}
      {course : Course State}
      (first : view.queue.snapshot.next? = some (entry, file))
      (run :
        Trace (Course.Step service)
          ⟨(Engine.new tuning entry.path file entry.uploaded).start, view.remote⟩ acts course)
      (ended : course.engine.hasEnded = true) :
      Comes service limit tuning view .tick
        { view.hear (reportsOf acts) with remote := course.remote }

/-- Only one thing comes of a call. -/
theorem Comes.unique
    {operation : Operation}
    {one other : View State}
    (comes : Comes service limit tuning view operation one)
    (also : Comes service limit tuning view operation other) :
    one = other := by
  cases comes with
  | changed call =>
      cases also with
      | changed => rfl
      | idle | transferred => exact absurd rfl call
  | idle none =>
      cases also with
      | changed call => exact absurd rfl call
      | idle => rfl
      | transferred first => cases none.symm.trans first
  | transferred first run ended =>
      cases also with
      | changed call => exact absurd rfl call
      | idle none => cases none.symm.trans first
      | transferred again twin rested =>
          cases first.symm.trans again
          obtain ⟨rfl, rfl⟩ := Course.eq_of_ended run twin ended rested
          rfl

/-! ## Clients at rest -/

/-- A client with a settled executor, all of whose reports were applied. -/
structure Ready (hosting : Hosting) (tuning : Tuning) (limit : Nat) (client : Client State) :
    Prop where
  settled : client.scheduler.executor.Settled
  counted : client.scheduler.executor.emitted = client.scheduler.queue.reportsSeen
  hosting : client.scheduler.executor.hosting = hosting
  tuning : client.scheduler.executor.tuning = tuning
  limit : client.scheduler.limit = limit

theorem Ready.new (config : Config) (hosting : Hosting) (state : State) :
    Ready hosting config.tuning config.maxQueued (Client.new config hosting state) :=
  ⟨.start hosting config.tuning, rfl, rfl, rfl, rfl⟩

theorem Operation.reportsSeen_change
    (limit : Nat)
    (queue : Queue)
    (operation : Operation) :
    (operation.change limit queue).reportsSeen = queue.reportsSeen := by
  cases operation with
  | add file path =>
      unfold change
      dsimp only
      split
      case h_1 added => exact Queue.reportsSeen_add added
      case h_2 => rfl
  | stop path =>
      unfold change
      dsimp only
      split
      case h_1 stopped => exact Queue.reportsSeen_stop stopped
      case h_2 => rfl
  | discard path =>
      unfold change
      dsimp only
      split
      case h_1 deleted => exact Queue.reportsSeen_delete deleted
      case h_2 => rfl
  | restore infos => exact Queue.reportsSeen_restore queue limit infos
  | tick => rfl

/-- A call other than a tick leaves nothing to do. -/
theorem Ready.call
    {operation : Operation}
    (ready : Ready hosting tuning limit client)
    (call : operation ≠ .tick) :
    Ready hosting tuning limit (client.call operation) ∧
      (client.call operation).view =
        { client.view with queue := operation.change limit client.view.queue } := by
  have executor : (client.call operation).scheduler.executor = client.scheduler.executor := by
    cases operation with
    | tick => exact absurd rfl call
    | add | stop | discard | restore => rfl
  have queue : (client.call operation).scheduler.queue =
      operation.change limit client.scheduler.queue := by
    rw [← ready.limit]
    rfl
  refine ⟨⟨?_, ?_, ?_, ?_, ready.limit⟩, ?_⟩
  · exact executor ▸ ready.settled
  · rw [executor, queue, Operation.reportsSeen_change]
    exact ready.counted
  · exact executor ▸ ready.hosting
  · exact executor ▸ ready.tuning
  · unfold Client.view
    rw [queue]
    rfl

/-- A client that is ready has nothing to do. -/
theorem Ready.step
    (ready : Ready hosting tuning limit client)
    (step : Step service client move next) :
    next = client := by
  obtain ⟨task, served, stepped⟩ := step
  cases stepped with
  | work _ moved =>
      obtain ⟨rfl, rfl⟩ := ready.settled.eq_of_task moved task
      cases served
      simp only [toldAfter, Executor.Move.report?, Option.bind_none, Option.toList_none,
        List.append_nil]
      rfl

/-! ## An engine under way -/

/-- The act of an engine in a move. -/
def actOf? : Executor.Move → Option Engine.Act
  | .act _ act => some act
  | _ => none

theorem reportsOf_concat
    (acts : List Engine.Act)
    (move : Executor.Move) :
    reportsOf (acts ++ (actOf? move).toList) = reportsOf acts ++ move.made?.toList := by
  cases move with
  | act index act =>
      rw [Executor.Move.made?_act]
      exact filterMap_concat Engine.Act.report? acts act
  | _ => simp only [actOf?, Executor.Move.made?, Option.toList_none, List.append_nil]

/-- A client whose executor has an engine in flight since the view was `begun`. -/
structure Underway (service : Service State) (base : Executor) (begun : View State)
    (engine : Engine) (flight : Executor.Flight) (acts : List Engine.Act) (heard : List Report)
    (client : Client State) : Prop where
  executor : client.scheduler.executor = base.holding flight
  ran : Trace (Course.Step service) ⟨engine, begun.remote⟩ acts ⟨flight.engine, client.remote⟩
  tells : flight.Tells base.hosting (reportsOf acts) heard
  view : client.view = { begun.hear heard with remote := client.remote }
  ended : flight.stage ≠ .running → flight.engine.hasEnded = true

theorem Underway.engine?_eq
    (underway : Underway service base begun engine flight acts heard client) :
    client.scheduler.executor.engine? base.runs.length = some flight.engine := by
  rw [underway.executor, Executor.engine?, Executor.holding_last, Option.map_some,
    flight.run_engine]

/-- The endpoint serves the engine in flight, and no other calls it. -/
theorem Underway.served
    (underway : Underway service base begun engine flight acts heard client)
    (step : Step service client move next)
    (flown : Executor.Flight.Step base.hosting base.runs.length flight move after) :
    Trace (Course.Step service) ⟨engine, begun.remote⟩ (acts ++ (actOf? move).toList)
      ⟨after.engine, next.remote⟩ := by
  obtain ⟨_, served, _⟩ := step
  cases flown with
  | @act act acted running stepped =>
      obtain ⟨caller, found, answered⟩ := served
      cases underway.engine?_eq.symm.trans found
      exact underway.ran.snoc ⟨answered, stepped⟩
  | handle | finish | notice | deliver =>
      cases served
      simpa only [actOf?, Option.toList_none, List.append_nil] using underway.ran

/-- The queue hears of what is delivered. -/
theorem Underway.goes
    (underway : Underway service base begun engine flight acts heard client)
    (step : Step service client move next)
    (flown : Executor.Flight.Step base.hosting base.runs.length flight move after)
    (executor : next.scheduler.executor = base.holding after) :
    Underway service base begun engine after (acts ++ (actOf? move).toList)
      (heard ++ (move.report? base.hosting).toList) next := by
  have seen := step.view_eq
  rw [underway.view, underway.executor, View.hear_remote] at seen
  refine ⟨executor, underway.served step flown, ?_, ?_, ?_⟩
  · rw [reportsOf_concat]
    exact flown.tells underway.tells
  · rw [View.hear_append]
    exact seen
  · cases flown with
    | handle | deliver => exact underway.ended
    | act running => exact fun resting => absurd running resting
    | finish _ ended => exact fun _ => ended
    | notice _ returned =>
        intro _
        exact underway.ended (by rw [returned]; decide)

/-- Nothing happens but what can happen to the flight. -/
theorem Underway.step
    (underway : Underway service base begun engine flight acts heard client)
    (settled : base.Settled)
    (step : Step service client move next) :
    ∃ after,
      Underway service base begun engine after (acts ++ (actOf? move).toList)
        (heard ++ (move.report? base.hosting).toList) next := by
  have stepped := step
  obtain ⟨task, _, scheduled⟩ := step
  cases scheduled with
  | work _ moved =>
      rw [underway.executor] at moved
      obtain ⟨after, flown, executor⟩ := (settled.step_holding_iff task).mp moved
      exact ⟨after, underway.goes stepped flown executor⟩

/-- Whatever can happen to the flight happens, if the endpoint serves the engine. -/
theorem Underway.can
    {remote : Remote State}
    (underway : Underway service base begun engine flight acts heard client)
    (settled : base.Settled)
    (flown : Executor.Flight.Step base.hosting base.runs.length flight move after)
    (served : client.Serves service remote move) :
    ∃ next,
      Step service client move next ∧ next.remote = remote ∧
        Underway service base begun engine after (acts ++ (actOf? move).toList)
          (heard ++ (move.report? base.hosting).toList) next := by
  have moved : Executor.Step client.scheduler.executor move (base.holding after) := by
    rw [underway.executor]
    exact (settled.step_holding_iff flown.isTask).mpr ⟨after, flown, rfl⟩
  have step := Step.intro flown.isTask served (.work (isWork_of_isTask flown.isTask) moved)
  exact ⟨_, step, rfl, underway.goes step flown rfl⟩

/-- Whatever can happen to the flight without the engine happens. -/
theorem Underway.can_quiet
    (underway : Underway service base begun engine flight acts heard client)
    (settled : base.Settled)
    (flown : Executor.Flight.Step base.hosting base.runs.length flight move after)
    (quiet : actOf? move = none) :
    ∃ next,
      Step service client move next ∧ next.remote = client.remote ∧
        Underway service base begun engine after acts
          (heard ++ (move.report? base.hosting).toList) next := by
  have served : client.Serves service client.remote move := by
    cases move with
    | act => cases quiet
    | _ => rfl
  obtain ⟨next, step, remote, goes⟩ := underway.can settled flown served
  rw [quiet, Option.toList_none, List.append_nil] at goes
  exact ⟨next, step, remote, goes⟩

/-- What waits can be delivered. -/
theorem Underway.deliver
    (underway : Underway service base begun engine flight acts heard client)
    (settled : base.Settled) :
    ∃ moves next told,
      Trace (Step service) client moves next ∧ next.remote = client.remote ∧
        Underway service base begun engine { flight with waiting := [] } acts told next := by
  obtain ⟨flown, stage, made, waiting⟩ := flight
  induction waiting generalizing client heard with
  | nil => exact ⟨[], client, heard, .refl, rfl, underway⟩
  | cons report rest later =>
      obtain ⟨next, step, same, delivered⟩ := underway.can_quiet settled (.deliver rfl) rfl
      obtain ⟨moves, final, told, run, remote, done⟩ := later delivered
      exact ⟨_, final, told, (Trace.snoc .refl step).append run, remote.trans same, done⟩

/-- An engine in flight can be served as long as its transfer goes on. -/
theorem Underway.fly
    {further : List Engine.Act}
    {course : Course State}
    (underway : Underway service base begun engine flight acts heard client)
    (settled : base.Settled)
    (running : flight.stage = .running)
    (run : Trace (Course.Step service) ⟨flight.engine, client.remote⟩ further course) :
    ∃ moves next flown told,
      Trace (Step service) client moves next ∧ flown.stage = .running ∧
        (⟨flown.engine, next.remote⟩ : Course State) = course ∧
        Underway service base begun engine flown (acts ++ further) told next := by
  -- No act has to wait for a delivery, so the moves are the acts of the course one by one.
  induction run with
  | refl => exact ⟨[], client, flight, heard, .refl, running, rfl, by simpa using underway⟩
  | @snoc earlier middle final act past last before =>
      obtain ⟨moves, next, flown, told, run, alive, rfl, under⟩ := before
      obtain ⟨answered, stepped⟩ := last
      have served : Serves service next _ (.act base.runs.length act) :=
        ⟨flown.engine, under.engine?_eq, answered⟩
      obtain ⟨further, step, rfl, acted⟩ := under.can settled (.act alive stepped) served
      rw [List.append_assoc] at acted
      exact ⟨_, further, flown.hear base.hosting act _, _, run.snoc step, alive, rfl, acted⟩

/-- Once everything is delivered the queue has heard of every report that was made. -/
theorem Underway.view_of_delivered
    (underway : Underway service base begun engine flight acts heard client)
    (delivered : flight.waiting = []) :
    client.view = { begun.hear (reportsOf acts) with remote := client.remote } := by
  have split := underway.tells.split
  rw [delivered, List.append_nil] at split
  rw [← split]
  exact underway.view

/-- An engine in flight that has made its last report can come to rest. -/
theorem Underway.land
    (underway : Underway service base begun engine flight acts heard client)
    (settled : base.Settled)
    (running : flight.stage = .running)
    (ended : flight.engine.hasEnded = true) :
    ∃ moves final,
      Trace (Step service) client moves final ∧ final.scheduler.executor.AtRest ∧
        final.view = { begun.hear (reportsOf acts) with remote := client.remote } := by
  -- Everything is delivered first: nothing is left to hear of once the engine has returned.
  obtain ⟨deliveries, silent, _, delivered, unchanged, told⟩ := underway.deliver settled
  obtain ⟨returned, finish, same, landed⟩ := told.can_quiet settled (.finish running ended) rfl
  cases hosted : base.hosting with
  | background =>
      obtain ⟨final, notice, left, noticed⟩ := landed.can_quiet settled (.notice hosted rfl) rfl
      refine ⟨_, final, (delivered.snoc finish).snoc notice, ?_, ?_⟩
      · rw [noticed.executor]
        exact settled.atRest_holding (by rintro ⟨⟩) (fun _ => rfl) rfl
      · rw [noticed.view_of_delivered rfl, left, same, unchanged]
  | inline =>
      refine ⟨_, returned, delivered.snoc finish, ?_, ?_⟩
      · rw [landed.executor]
        refine settled.atRest_holding (by rintro ⟨⟩) ?_ rfl
        intro background
        cases hosted.symm.trans background
      · rw [landed.view_of_delivered rfl, same, unchanged]

/-! ## Ticks -/

/-- The client once the snapshot of a tick was handled, before any engine has gone on. -/
def handled (client : Client State) : Client State :=
  let scheduler := client.scheduler
  { client with
    scheduler := { scheduler with
      executor := (scheduler.executor.sync scheduler.queue.snapshot).1 } }

/-- Inline the snapshot of a tick is handled as it is sent. -/
theorem call_tick_inline (inlined : client.scheduler.executor.hosting = .inline) :
    client.call .tick = client.handled := by
  unfold call handled Operation.post Executor.receive
  dsimp only
  rw [inlined]
  rfl

/-- In the background it waits, and nothing else happens before it is handled. -/
theorem Ready.handled_of_step
    (ready : Ready hosting tuning limit client)
    (hosted : client.scheduler.executor.hosting = .background)
    (step : Step service (client.call .tick) move next) :
    next = client.handled := by
  obtain ⟨task, served, stepped⟩ := step
  cases stepped with
  | work _ moved =>
      have sent : Executor.Step
          (client.scheduler.executor.receive client.scheduler.queue.snapshot) move _ := moved
      rw [ready.settled.receive_eq hosted] at sent
      obtain ⟨rfl, rfl⟩ := ready.settled.eq_of_pending sent task
      cases served
      unfold handled toldAfter
      simp only [Executor.Move.report?, Option.bind_none, Option.toList_none, List.append_nil]
      rfl

theorem Ready.can_handle
    (ready : Ready hosting tuning limit client)
    (hosted : client.scheduler.executor.hosting = .background) :
    Step service (client.call .tick) .handle client.handled := by
  have posted : (client.call .tick).scheduler.executor =
      { client.scheduler.executor with requests := [client.scheduler.queue.snapshot] } :=
    ready.settled.receive_eq hosted _
  have moved : Executor.Step (client.call .tick).scheduler.executor .handle _ :=
    .handle (by rw [posted]; exact hosted) (by rw [posted]; exact ready.settled.working)
  have step : Step service (client.call .tick) .handle _ := .intro rfl rfl (.work rfl moved)
  have same := ready.handled_of_step hosted step
  rwa [same] at step

/-- After a tick the snapshot is handled before anything else happens. -/
theorem Ready.handled_of_trace
    {moves : List Executor.Move}
    (ready : Ready hosting tuning limit client)
    (run : Trace (Step service) (client.call .tick) moves final)
    (rest : final.scheduler.executor.AtRest) :
    ∃ later, Trace (Step service) client.handled later final := by
  cases hosted : client.scheduler.executor.hosting with
  | inline =>
      rw [call_tick_inline hosted] at run
      exact ⟨moves, run⟩
  | background =>
      cases moves with
      | nil =>
          obtain rfl := run.eq_of_nil rfl
          have waits : (client.call .tick).scheduler.executor.requests =
              [client.scheduler.queue.snapshot] :=
            congrArg Executor.requests (ready.settled.receive_eq hosted _)
          cases waits.symm.trans rest.handled
      | cons first later =>
          obtain ⟨middle, step, left⟩ := run.uncons rfl
          cases ready.handled_of_step hosted step
          exact ⟨later, left⟩

/-- The snapshot that a tick has sent can be handled. -/
theorem Ready.trace_handled (ready : Ready hosting tuning limit client) :
    ∃ moves, Trace (Step service) (client.call .tick) moves client.handled := by
  cases hosted : client.scheduler.executor.hosting with
  | inline =>
      rw [call_tick_inline hosted]
      exact ⟨[], .refl⟩
  | background => exact ⟨_, .snoc .refl (ready.can_handle hosted)⟩

/-- With nothing to start a tick changes nothing. -/
theorem Ready.idle
    (ready : Ready hosting tuning limit client)
    (idle : client.scheduler.queue.snapshot.next? = none) :
    Ready hosting tuning limit client.handled := by
  have reaped := ready.settled.sync_of_idle idle
  obtain ⟨holder, freed⟩ := ready.settled.reap_eq
  have settled := ready.settled.reap
  rw [freed] at settled reaped
  unfold handled
  dsimp only
  refine ⟨?_, ?_, ?_, ?_, ready.limit⟩
  all_goals dsimp only; rw [reaped]
  · exact settled
  · exact ready.counted
  · exact ready.hosting
  · exact ready.tuning

/-- Otherwise the first entry is under way. -/
theorem Ready.begins
    {entry : Entry}
    {file : FileHandle}
    (ready : Ready hosting tuning limit client)
    (first : client.view.queue.snapshot.next? = some (entry, file)) :
    Underway service client.scheduler.executor client.view
      (Engine.new tuning entry.path file entry.uploaded).start
      { engine := (Engine.new tuning entry.path file entry.uploaded).start } [] []
      client.handled where
  executor := by
    have current := Nat.le_of_eq ready.counted
    rw [← ready.tuning]
    exact ready.settled.sync_of_next? first current
  ran := .refl
  tells := ⟨rfl, rfl, fun _ => rfl⟩
  view := rfl
  ended flying := absurd rfl flying

theorem Ready.stays
    {moves : List Executor.Move}
    (ready : Ready hosting tuning limit client)
    (run : Trace (Step service) client moves final) :
    final = client := by
  induction run with
  | refl => rfl
  | snoc _ last same =>
      subst same
      exact ready.step last

theorem Underway.trace
    {moves : List Executor.Move}
    (underway : Underway service base begun engine flight acts heard client)
    (settled : base.Settled)
    (run : Trace (Step service) client moves final) :
    ∃ flight acts heard, Underway service base begun engine flight acts heard final := by
  induction run with
  | refl => exact ⟨_, _, _, underway⟩
  | snoc _ last before =>
      obtain ⟨_, _, _, under⟩ := before
      obtain ⟨_, goes⟩ := under.step settled last
      exact ⟨_, _, _, goes⟩

theorem limit_of_trace
    {moves : List Executor.Move}
    (run : Trace (Step service) client moves final) :
    final.scheduler.limit = client.scheduler.limit := by
  induction run with
  | refl => rfl
  | snoc _ last same => exact last.limit_eq.trans same

/-- Once an engine in flight has come to rest the client is ready again. -/
theorem Underway.ready
    (underway : Underway service client.scheduler.executor client.view engine flight acts heard
      final)
    (ready : Ready hosting tuning limit client)
    (same : final.scheduler.limit = client.scheduler.limit)
    (settled : (client.scheduler.executor.holding flight).Settled)
    (delivered : flight.waiting = []) :
    Ready hosting tuning limit final := by
  have queue : final.scheduler.queue = (client.view.hear (reportsOf acts)).queue :=
    congrArg View.queue (underway.view_of_delivered delivered)
  refine ⟨?_, ?_, ?_, ?_, same.trans ready.limit⟩
  · rw [underway.executor]
    exact settled
  · rw [underway.executor, queue, View.reportsSeen_hear, ← underway.tells.made]
    exact congrArg (· + flight.made) ready.counted
  · rw [underway.executor]
    exact ready.hosting
  · rw [underway.executor]
    exact ready.tuning

/-! ## From call to call -/

/-- However the tasks of a client go on after a call, they come to rest as `Comes` says. -/
theorem Ready.rests
    {operation : Operation}
    {moves : List Executor.Move}
    (ready : Ready hosting tuning limit client)
    (run : Trace (Step service) (client.call operation) moves final)
    (rest : final.scheduler.executor.AtRest) :
    Comes service limit tuning client.view operation final.view ∧
      Ready hosting tuning limit final := by
  by_cases tick : operation = .tick
  · subst tick
    -- From the handled snapshot on either nothing happens, or one engine flies until it has landed.
    obtain ⟨later, left⟩ := ready.handled_of_trace run rest
    cases first : client.scheduler.queue.snapshot.next? with
    | none =>
        obtain rfl := (ready.idle first).stays left
        exact ⟨.idle first, ready.idle first⟩
    | some chosen =>
        obtain ⟨entry, file⟩ := chosen
        obtain ⟨flight, acts, heard, landed⟩ := (ready.begins first).trace ready.settled left
        rw [landed.executor] at rest
        obtain ⟨settled, stage, delivered⟩ := ready.settled.holding rest
        have same : final.scheduler.limit = client.handled.scheduler.limit := limit_of_trace left
        rw [landed.view_of_delivered delivered]
        exact ⟨.transferred first landed.ran (landed.ended stage),
          landed.ready ready same settled delivered⟩
  · obtain ⟨called, view⟩ := ready.call tick
    obtain rfl := called.stays run
    rw [view]
    exact ⟨.changed tick, called⟩

/-- They can come to rest so. -/
theorem Ready.can_rest
    {operation : Operation}
    {after : View State}
    (ready : Ready hosting tuning limit client)
    (comes : Comes service limit tuning client.view operation after) :
    ∃ moves final,
      Trace (Step service) (client.call operation) moves final ∧
        final.scheduler.executor.AtRest ∧ final.view = after := by
  cases comes with
  | changed call =>
      obtain ⟨called, view⟩ := ready.call call
      exact ⟨[], _, .refl, called.settled.rest, view⟩
  | idle none =>
      obtain ⟨moves, run⟩ := ready.trace_handled
      exact ⟨moves, _, run, (ready.idle none).settled.rest, rfl⟩
  | transferred first run ended =>
      obtain ⟨moves, handled⟩ := ready.trace_handled
      obtain ⟨acting, flown, flight, heard, flies, running, rfl, under⟩ :=
        (ready.begins first).fly ready.settled rfl run
      obtain ⟨landing, final, lands, rest, view⟩ := under.land ready.settled running ended
      exact ⟨_, final, (handled.append flies).append lands, rest, view⟩

/-- What comes of a call that is recorded. -/
def Follows (service : Service State) (limit : Nat) (tuning : Tuning) (view : View State)
    (record : Record State) (after : View State) : Prop :=
  Comes service limit tuning view record.operation record.after ∧ after = record.after

theorem Follows.unique
    {record also : Record State}
    {first second : View State}
    (follows : Follows service limit tuning view record first)
    (other : Follows service limit tuning view also second)
    (same : record.operation = also.operation) :
    record = also ∧ first = second := by
  obtain ⟨operation, after⟩ := record
  obtain ⟨comes, rfl⟩ := follows
  obtain ⟨also, rfl⟩ := other
  cases same
  cases comes.unique also
  exact ⟨rfl, rfl⟩

theorem Ready.follows_of_trace
    {records : List (Record State)}
    (ready : Ready hosting tuning limit client)
    (run : Trace (Performs service) client records final) :
    Trace (Follows service limit tuning) client.view records final.view ∧
      Ready hosting tuning limit final := by
  induction run with
  | refl => exact ⟨.refl, ready⟩
  | snoc _ last before =>
      obtain ⟨past, ready⟩ := before
      obtain ⟨run, rest⟩ := last
      obtain ⟨comes, again⟩ := ready.rests run rest
      exact ⟨past.snoc ⟨comes, rfl⟩, again⟩

theorem Ready.trace_of_follows
    {records : List (Record State)}
    {after : View State}
    (ready : Ready hosting tuning limit client)
    (run : Trace (Follows service limit tuning) client.view records after) :
    ∃ final, Trace (Performs service) client records final ∧ final.view = after := by
  induction run with
  | refl => exact ⟨client, .refl, rfl⟩
  | @snoc earlier middle final record _ last before =>
      obtain ⟨client, past, rfl⟩ := before
      obtain ⟨_, ready⟩ := ready.follows_of_trace past
      obtain ⟨comes, rfl⟩ := last
      obtain ⟨moves, final, run, rest, view⟩ := ready.can_rest comes
      obtain ⟨operation, after⟩ := record
      cases view
      exact ⟨final, past.snoc (.intro run rest), rfl⟩

/--
Where engines run makes no difference.  Take any endpoint, any configuration and any calls of a
client of which each is made once everything has come to rest.  With its engines run elsewhere the
client can come to rest after each of them too, and whenever it does, the same could be seen after
every call: the same queue, the same calls of the endpoint with all that they were given, in the same
order, the same state of the endpoint, and the same queues given to the callback.
-/
theorem hosting_makes_no_difference
    {config : Config}
    {state : State}
    {records : List (Record State)}
    (run : Trace (Performs service) (Client.new config hosting state) records final)
    (other : Hosting) :
    (∃ twin,
      Trace (Performs service) (Client.new config other state) records twin ∧
        twin.view = final.view) ∧
    ∀ {others : List (Record State)} {twin : Client State},
      Trace (Performs service) (Client.new config other state) others twin →
        others.map (·.operation) = records.map (·.operation) →
          others = records ∧ twin.view = final.view := by
  obtain ⟨follows, _⟩ := (Ready.new config hosting state).follows_of_trace run
  refine ⟨(Ready.new config other state).trace_of_follows follows, ?_⟩
  intro others twin also same
  obtain ⟨like, _⟩ := (Ready.new config other state).follows_of_trace also
  exact like.eq_of_map (fun one other => one.unique other) follows same

/-- A file that was sent in the background, in two chunks, arrives inline with the same calls. -/
theorem background_upload_arrives_inline :
    let file : FileHandle := ⟨0, .ofBytes [7, 8, 9]⟩
    let config : Config := { chunkLength := 2 }
    ∃ records twin,
      records.map (·.operation) = [.add file "a", .tick] ∧
        Trace (Performs .ofEndpoint) (Client.new config .inline {}) records twin ∧
        twin.view.queue.entries = [] ∧
        (twin.view.told.map fun entries => entries.map (·.uploaded)) = [[2], []] ∧
        twin.view.remote.calls =
          [.create "a" 3, .chunk "a" (Base64.encode [7, 8]) 0, .chunk "a" (Base64.encode [9]) 2] ∧
        twin.view.remote.state.completed? "a" = some [7, 8, 9] := by
  intro file config
  let report (uploaded : Nat) (runnable : Bool) : Turn :=
    .other (.deliver (.progress ⟨"a", uploaded, runnable, ""⟩))
  let turns : List Turn :=
    .other .handle :: List.replicate 5 (.engine 0) ++ report 2 true ::
      List.replicate 5 (.engine 0) ++ [report 3 false, .other (.finish 0), .other (.notice 0)]
  let start : Client Endpoint := Client.new config .background {}
  have added : Performs .ofEndpoint start _ (start.call (.add file "a")) :=
    performs_of_turns (.add file "a") [] rfl (by decide)
  have sent :
      (turns.foldlM (turn? .ofEndpoint) ((start.call (.add file "a")).call .tick)).map
          (fun final =>
            (decide final.scheduler.executor.AtRest && final.view.queue.entries.isEmpty,
              final.view.told.map fun entries => entries.map (·.uploaded),
              final.view.remote.calls, final.view.remote.state.completed? "a")) =
        some (true, [[2], []],
          [.create "a" 3, .chunk "a" (Base64.encode [7, 8]) 0,
            .chunk "a" (Base64.encode [9]) 2], some [7, 8, 9]) := by
    decide
  obtain ⟨final, taken, seen⟩ := Option.map_eq_some_iff.mp sent
  simp only [Prod.mk.injEq, Bool.and_eq_true, decide_eq_true_eq, List.isEmpty_iff] at seen
  obtain ⟨⟨rest, emptied⟩, told, calls, arrived⟩ := seen
  have run := (Trace.snoc .refl added).snoc (performs_of_turns .tick turns taken rest)
  obtain ⟨⟨twin, same, view⟩, _⟩ := hosting_makes_no_difference run .inline
  rw [← view] at emptied told calls arrived
  exact ⟨_, twin, rfl, same, emptied, told, calls, arrived⟩

end Client

end ResumableUpload
