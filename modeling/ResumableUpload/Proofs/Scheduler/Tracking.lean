import ResumableUpload.Proofs.Executor.Steady
import ResumableUpload.Proofs.Queue.Awaiting
import ResumableUpload.Proofs.Scheduler.Client
import ResumableUpload.Proofs.Session.Midway

/-!
# A client in the background on the way of a drain

A client whose executor runs in the background is ahead of its queue by the reports that were not
delivered yet, and its worker handles snapshots from before.  Still it transfers the same uploads, in
the same order and with the same calls, as a session that is drained: with every report applied that
was made, its queue and endpoint are those of the drain (`Client.Tracks`).  That is so since a snapshot
starts an engine only if every report was applied before it was taken, and since whatever is behind it
in line then puts the same entry first.  `Client.Goes` says what a task comes to on the way.
-/

namespace ResumableUpload

variable {slot : Option Engine} {engine next : Engine} {report : Report} {rest : List Report}
variable {entry : Entry} {path : String} {snapshot : Snapshot}

/-- Whoever works on the path that a snapshot puts first keeps the slot under it. -/
theorem Snapshot.keeps_of_first?
    (ready : ∀ entry ∈ snapshot.entries, entry.Ready)
    (first : snapshot.first?.map (·.path) = some path) :
    Executor.keeps snapshot path = true := by
  rw [← next?_eq_first? ready, Option.map_map] at first
  obtain ⟨⟨entry, file⟩, chosen, here⟩ := Option.map_eq_some_iff.mp first
  unfold Executor.keeps
  rw [chosen]
  exact beq_iff_eq.mpr here

/-! ## On the way of a drain -/

/-- The queue as it will be once every report that was made is applied. -/
def Scheduler.ahead (scheduler : Scheduler) : Queue :=
  scheduler.executor.undelivered.foldl Queue.reconcile scheduler.queue

/-- The snapshots that the worker will handle, in that order. -/
def Scheduler.line (scheduler : Scheduler) : List Snapshot :=
  scheduler.executor.requests ++ scheduler.taken

theorem Scheduler.ahead_congr
    {scheduler later : Scheduler}
    (queue : later.queue = scheduler.queue)
    (events : later.executor.events = scheduler.executor.events) :
    later.ahead = scheduler.ahead := by
  unfold ahead Executor.undelivered
  rw [queue, events]

/-- A report that is made is applied ahead of its delivery. -/
theorem Scheduler.ahead_of_made
    {scheduler later : Scheduler}
    {made : Option Report}
    (queue : later.queue = scheduler.queue)
    (undelivered :
      later.executor.undelivered = scheduler.executor.undelivered ++ made.toList) :
    later.ahead = hear scheduler.ahead made := by
  unfold ahead
  rw [queue, undelivered, List.foldl_append]
  cases made <;> rfl

namespace Client

variable {client after : Client Endpoint} {move : Executor.Move} {executor : Executor}
variable {taken : List Snapshot} {target : String → Option Bytes} {drained : Session}

/-- The client with another executor, and other snapshots on their way to it. -/
def put (client : Client Endpoint) (executor : Executor) (taken : List Snapshot) :
    Client Endpoint :=
  { client with scheduler := { client.scheduler with executor := executor, taken := taken } }

/-- The client once the queue has heard of a report, while these are still to be delivered. -/
def deliver (client : Client Endpoint) (report : Report) (rest : List Report) : Client Endpoint where
  scheduler :=
    { client.scheduler with
      executor := { client.scheduler.executor with events := rest.map .progress }
      queue := client.scheduler.queue.reconcile report }
  remote := client.remote
  told := client.told ++ (client.scheduler.queue.notice? report).toList

theorem ahead_put
    (events : executor.events = client.scheduler.executor.events) :
    (client.put executor taken).scheduler.ahead = client.scheduler.ahead :=
  Scheduler.ahead_congr rfl events

theorem undelivered_deliver (client : Client Endpoint) (report : Report) (rest : List Report) :
    (client.deliver report rest).scheduler.executor.undelivered = rest :=
  Executor.undelivered_of_events rfl

/-- To hear of a report is to catch up with what is ahead. -/
theorem ahead_deliver (waits : client.scheduler.executor.undelivered = report :: rest) :
    (client.deliver report rest).scheduler.ahead = client.scheduler.ahead := by
  rw [Scheduler.ahead, undelivered_deliver, Scheduler.ahead, waits, List.foldl_cons]
  rfl

/--
What holds of a client in the background that transfers what a session is drained of, where `slot` is
the engine at work.
-/
structure Tracks (target : String → Option Bytes) (drained : Session) (client : Client Endpoint)
    (slot : Option Engine) : Prop where
  steady : client.scheduler.executor.Steady
  works : client.scheduler.executor.Works slot
  counted :
    client.scheduler.executor.emitted =
      client.scheduler.queue.reportsSeen + client.scheduler.executor.undelivered.length
  tidy : client.scheduler.queue.Tidy
  ready : client.scheduler.queue.Ready
  awaits : client.scheduler.queue.Awaits slot client.scheduler.executor.undelivered
  line : client.scheduler.queue.InLine client.scheduler.line
  /-- The path of the engine at work comes first in the queue, and keeps the slot. -/
  first : ∀ {engine : Engine}, slot = some engine →
    client.scheduler.queue.snapshot.first?.map (·.path) = some engine.path
  keeps : ∀ {engine : Engine}, slot = some engine →
    ∀ snapshot ∈ client.scheduler.line, Executor.keeps snapshot engine.path = true
  midway :
    Session.Midway client.scheduler.executor.tuning target drained slot client.scheduler.ahead
      client.remote.state
  /-- The callback was given a queue in which nothing may run only if that is the queue as it is. -/
  told : ∀ entries ∈ client.told, entries.any (·.runnable) = false →
    client.scheduler.queue.runnables = 0 ∧ entries = client.scheduler.queue.entries

namespace Tracks

/-- A client with a fresh executor begins on the way of a drain. -/
theorem start
    {session : Session}
    (loaded : Session.Loaded target session)
    (unreported : session.queue.reportsSeen = 0)
    (limit : Nat) :
    Tracks target session.drain
      { scheduler :=
          { limit := limit
            executor := { hosting := .background, tuning := session.executor.tuning }
            queue := session.queue }
        remote := { state := session.endpoint } }
      none where
  steady := .start _
  works _ := ⟨fun ⟨_, _, found, _⟩ => (nomatch found), nofun⟩
  counted := unreported.symm
  tidy := loaded.tidy
  ready := loaded.ready
  awaits := .nothing
  line := .nil _
  first := nofun
  keeps := nofun
  midway := .start loaded
  told := nofun

/-- What neither starts an engine nor has one do something leaves the client on its way. -/
theorem quiet
    (tracks : Tracks target drained client slot)
    (steady : executor.Steady)
    (works : executor.Works slot)
    (events : executor.events = client.scheduler.executor.events)
    (emitted : executor.emitted = client.scheduler.executor.emitted)
    (tuning : executor.tuning = client.scheduler.executor.tuning)
    (line : (executor.requests ++ taken).Sublist client.scheduler.line) :
    Tracks target drained (client.put executor taken) slot := by
  have undelivered : executor.undelivered = client.scheduler.executor.undelivered :=
    congrArg (List.filterMap _) events
  have midway := tracks.midway
  rw [← ahead_put events, ← tuning] at midway
  refine ⟨steady, works, ?_, tracks.tidy, tracks.ready, undelivered ▸ tracks.awaits,
    tracks.line.sublist line, tracks.first, ?_, midway, tracks.told⟩
  · exact (emitted.trans tracks.counted).trans (congrArg (fun list => _ + list.length) undelivered.symm)
  · intro engine same snapshot member
    exact tracks.keeps same snapshot (line.mem member)

/-- Nothing runs while the slot can be had. -/
theorem slot_of_vacant
    (tracks : Tracks target drained client slot)
    (vacant : client.scheduler.executor.Vacant) :
    slot = none := by
  cases slot with
  | none => rfl
  | some engine =>
      have atWork := (tracks.works engine).mpr rfl
      exact absurd atWork (tracks.steady.one.idle tracks.steady.working vacant)

/-- A snapshot that starts an engine is right, and so is whatever is behind it in line. -/
theorem starts
    {file : FileHandle}
    {behind : List Snapshot}
    (tracks : Tracks target drained client none)
    (waits : client.scheduler.executor.requests = snapshot :: behind)
    (first : snapshot.next? = some (entry, file))
    (current : client.scheduler.executor.emitted ≤ snapshot.reportsSeen)
    (steady : executor.Steady)
    (works : executor.Works (some (client.scheduler.executor.runOf entry file).engine))
    (requests : executor.requests = behind)
    (events : executor.events = client.scheduler.executor.events)
    (emitted : executor.emitted = client.scheduler.executor.emitted)
    (tuning : executor.tuning = client.scheduler.executor.tuning) :
    Tracks target drained (client.put executor client.scheduler.taken)
      (some (client.scheduler.executor.runOf entry file).engine) := by
  have line : client.scheduler.line = snapshot :: (behind ++ client.scheduler.taken) := by
    rw [Scheduler.line, waits, List.cons_append]
  have inLine := line ▸ tracks.line
  have counted := tracks.counted
  have seen := inLine.seen snapshot List.mem_cons_self
  have delivered : client.scheduler.executor.undelivered = [] :=
    List.eq_nil_of_length_eq_zero (by omega)
  have silent : executor.undelivered = [] :=
    (congrArg (List.filterMap _) events).trans delivered
  have right := inLine.eq_of_head (by omega)
  rw [right snapshot List.mem_cons_self] at first
  obtain ⟨member, eligible, held⟩ := Snapshot.next?_eq_some first
  have runnable : entry.runnable = true :=
    ((tracks.ready entry member).isEligible_eq).symm.trans eligible
  have ready : ∀ entry ∈ client.scheduler.queue.snapshot.entries, entry.Ready := tracks.ready
  have comes : client.scheduler.queue.snapshot.first?.map (·.path) = some entry.path := by
    rw [← Snapshot.next?_eq_first? ready, first]
    rfl
  refine ⟨steady, works, ?_, tracks.tidy, tracks.ready, ?_, ?_, ?_, ?_, ?_, tracks.told⟩
  · rw [delivered] at counted
    exact emitted.trans (silent ▸ counted)
  · have awaits : client.scheduler.queue.Awaits
        (some (client.scheduler.executor.runOf entry file).engine) [] :=
      .goes (tracks.tidy.find?_of_mem member) runnable (tracks.tidy.fits member held).symm nofun
    rwa [← silent] at awaits
  · have fewer := inLine.sublist (List.sublist_cons_self _ _)
    rwa [← requests] at fewer
  · rintro engine ⟨⟩
    exact comes
  · rintro engine ⟨⟩ other among
    rw [Scheduler.line, put, requests] at among
    rw [right other (List.mem_cons_of_mem _ among)]
    exact Snapshot.keeps_of_first? ready comes
  · have midway := tracks.midway
    rw [Scheduler.ahead, delivered] at midway
    have same : (client.put executor client.scheduler.taken).scheduler.executor.tuning =
        client.scheduler.executor.tuning :=
      tuning
    have ahead : (client.put executor client.scheduler.taken).scheduler.ahead =
        client.scheduler.queue := by
      rw [Scheduler.ahead, put, silent, List.foldl_nil]
    rw [same, ahead]
    exact midway.launch first

/-- The endpoint serves the engine at work as it does in the drain. -/
theorem acts
    {act : Engine.Act}
    {remote : Remote Endpoint}
    (tracks : Tracks target drained client (some engine))
    (served : Service.ofEndpoint.next? engine client.remote = some (act, remote))
    (step : Engine.Step engine act next)
    (steady : executor.Steady)
    (works : executor.Works (if next.hasEnded then none else some next))
    (undelivered :
      executor.undelivered = client.scheduler.executor.undelivered ++ act.report?.toList)
    (emitted :
      executor.emitted = client.scheduler.executor.emitted + act.report?.toList.length)
    (requests : executor.requests = client.scheduler.executor.requests)
    (tuning : executor.tuning = client.scheduler.executor.tuning) :
    Tracks target drained { client.put executor client.scheduler.taken with remote := remote }
      (if next.hasEnded then none else some next) := by
  have path : ∀ {after : Engine},
      (if next.hasEnded then none else some next) = some after → after.path = engine.path := by
    intro after same
    split at same
    · cases same
    · cases same
      exact step.path_eq
  have line : (client.put executor client.scheduler.taken).scheduler.line =
      client.scheduler.line :=
    congrArg (· ++ _) requests
  refine ⟨steady, works, ?_, tracks.tidy, tracks.ready, ?_, ?_, ?_, ?_, ?_, tracks.told⟩
  · have counted : executor.emitted =
        client.scheduler.queue.reportsSeen + executor.undelivered.length := by
      rw [emitted, undelivered, List.length_append, tracks.counted, Nat.add_assoc]
    exact counted
  · have awaits := tracks.awaits.act tracks.midway.ordered step
    rwa [← undelivered] at awaits
  · exact line ▸ tracks.line
  · intro after same
    rw [path same]
    exact tracks.first rfl
  · intro after same snapshot member
    rw [path same]
    exact tracks.keeps rfl snapshot (line ▸ member)
  · have serves := Service.next?_ofEndpoint engine client.remote
    rw [served, Option.map_some] at serves
    have midway := (tracks.midway.advance serves.symm step).1
    have ahead : (client.put executor client.scheduler.taken).scheduler.ahead =
        Scheduler.hear client.scheduler.ahead act.report? :=
      Scheduler.ahead_of_made rfl undelivered
    rw [← ahead, ← tuning] at midway
    exact midway

/-- The callback is given the queue for every report that is delivered. -/
theorem notice?_eq
    (tracks : Tracks target drained client slot)
    (waits : client.scheduler.executor.undelivered = report :: rest) :
    client.scheduler.queue.notice? report =
      some (client.scheduler.queue.reconcile report).entries := by
  have awaits := waits ▸ tracks.awaits
  obtain ⟨entry, found⟩ := Option.isSome_iff_exists.mp awaits.isSome_find?
  rw [Queue.notice?, found, Option.map_some]

/-- The queue hears of a report that the drain has applied before. -/
theorem delivers
    (tracks : Tracks target drained client slot)
    (waits : client.scheduler.executor.undelivered = report :: rest) :
    Tracks target drained (deliver client report rest) slot := by
  have awaits := waits ▸ tracks.awaits
  have steady : Executor.Steady
      { client.scheduler.executor with events := rest.map .progress } :=
    { tracks.steady with
      one := tracks.steady.one.congr rfl rfl rfl rfl
      told := Executor.told_of_events rfl }
  refine ⟨steady, tracks.works.of_runs rfl, ?_, tracks.tidy.reconcile report,
    tracks.ready.reconcile tracks.tidy report, ?_, tracks.line.reconcile report, ?_,
    tracks.keeps, ?_, ?_⟩
  · have counted := tracks.counted
    rw [waits, List.length_cons] at counted
    have less : client.scheduler.executor.emitted =
        (client.scheduler.queue.reconcile report).reportsSeen + rest.length := by
      rw [Queue.reportsSeen_reconcile]
      omega
    rw [undelivered_deliver]
    exact less
  · rw [undelivered_deliver]
    exact awaits.reconcile tracks.tidy
  · rintro engine rfl
    exact awaits.first?_reconcile.trans (tracks.first rfl)
  · rw [ahead_deliver waits]
    exact tracks.midway
  · intro entries member still
    rw [deliver, tracks.notice?_eq waits, Option.toList_some] at member
    rcases List.mem_append.mp member with earlier | last
    · exact absurd (tracks.told entries earlier still).1
        (awaits.runnables_ne_zero (.inr (List.cons_ne_nil _ _)))
    · rw [List.mem_singleton.mp last] at still ⊢
      exact ⟨List.countP_eq_zero.mpr (List.any_eq_false.mp still), rfl⟩

/-- One more snapshot is taken. -/
theorem tick (tracks : Tracks target drained client slot) :
    Tracks target drained
      (client.put client.scheduler.executor
        (client.scheduler.taken ++ [client.scheduler.queue.snapshot])) slot := by
  have line : (client.put client.scheduler.executor
      (client.scheduler.taken ++ [client.scheduler.queue.snapshot])).scheduler.line =
        client.scheduler.line ++ [client.scheduler.queue.snapshot] :=
    (List.append_assoc _ _ _).symm
  refine { tracks with line := line ▸ tracks.line.snoc, keeps := ?_ }
  intro engine same snapshot member
  rw [line] at member
  rcases List.mem_append.mp member with earlier | last
  · exact tracks.keeps same snapshot earlier
  · rw [List.mem_singleton.mp last]
    exact Snapshot.keeps_of_first? tracks.ready (tracks.first same)

/-- The oldest snapshot that was taken reaches the executor, if it finds room there. -/
theorem post
    {behind : List Snapshot}
    (tracks : Tracks target drained client slot)
    (taken : client.scheduler.taken = snapshot :: behind) :
    ∃ requests,
      client.scheduler.executor.receive snapshot =
          { client.scheduler.executor with requests := requests } ∧
        requests ≠ [] ∧ (requests ++ behind).Sublist client.scheduler.line ∧
        Tracks target drained
          (client.put { client.scheduler.executor with requests := requests } behind) slot := by
  have steady := tracks.steady.receive snapshot
  obtain ⟨requests, received, some_, line⟩ :
      ∃ requests,
        client.scheduler.executor.receive snapshot =
            { client.scheduler.executor with requests := requests } ∧
          requests ≠ [] ∧ (requests ++ behind).Sublist client.scheduler.line := by
    rw [Executor.receive_of_background tracks.steady.hosted, Scheduler.line, taken]
    unfold Executor.enqueue
    split
    case isTrue full =>
        rw [tracks.steady.working, Bool.false_or, decide_eq_true_eq] at full
        have some_ : client.scheduler.executor.requests ≠ [] :=
          List.ne_nil_of_length_pos (Nat.lt_of_lt_of_le (by decide) full)
        exact ⟨_, rfl, some_, (List.Sublist.refl _).append (List.sublist_cons_self _ _)⟩
    case isFalse =>
        refine ⟨_, rfl, List.append_ne_nil_of_right_ne_nil _ (List.cons_ne_nil _ _), ?_⟩
        rw [List.append_assoc]
        exact List.Sublist.refl _
  rw [received] at steady
  exact ⟨requests, received, some_, line,
    tracks.quiet steady (tracks.works.of_runs rfl) rfl rfl rfl line⟩

end Tracks

/-! ## What a task comes to -/

/-- What becomes of a client and of its engine at work in a task. -/
inductive Goes (client : Client Endpoint) (slot : Option Engine) :
    Executor.Move → Client Endpoint → Option Engine → Prop where
  /-- The worker finds no snapshot. -/
  | finds (handled : client.scheduler.executor.requests = []) : Goes client slot .handle client slot
  /-- A snapshot is handled that starts nothing. -/
  | passes {executor : Executor} {snapshot : Snapshot} {behind : List Snapshot}
      (waits : client.scheduler.executor.requests = snapshot :: behind)
      (requests : executor.requests = behind)
      (events : executor.events = client.scheduler.executor.events)
      (runs :
        executor.runs = client.scheduler.executor.runs ∨
          slot = none ∧ executor.runs = client.scheduler.executor.stopHolder.runs)
      (spent :
        client.scheduler.executor.Vacant →
          client.scheduler.executor.emitted ≤ snapshot.reportsSeen → snapshot.next? = none) :
      Goes client slot .handle (client.put executor client.scheduler.taken) slot
  /-- A snapshot is handled that starts an engine. -/
  | starts {executor : Executor} {engine : Engine}
      (free : slot = none)
      (events : executor.events = client.scheduler.executor.events) :
      Goes client slot .handle (client.put executor client.scheduler.taken) (some engine)
  /-- The engine at work does something. -/
  | acts {executor : Executor} {index : Nat} {engine next : Engine} {act : Engine.Act}
      {remote : Remote Endpoint}
      (working : slot = some engine)
      (served : Transfer.serve? engine client.remote.state = some (act, remote.state))
      (step : Engine.Step engine act next)
      (undelivered :
        executor.undelivered = client.scheduler.executor.undelivered ++ act.report?.toList)
      (unfinished : executor.unfinished = client.scheduler.executor.unfinished) :
      Goes client slot (.act index act)
        { client.put executor client.scheduler.taken with remote := remote }
        (if next.hasEnded then none else some next)
  /-- An engine returns, or its end is noticed. -/
  | settles {move : Executor.Move} {executor : Executor}
      (events : executor.events = client.scheduler.executor.events)
      (fewer : executor.unfinished < client.scheduler.executor.unfinished) :
      Goes client slot move (client.put executor client.scheduler.taken) slot
  /-- The queue hears of the oldest report. -/
  | delivers {report : Report} {rest : List Report}
      (waits : client.scheduler.executor.undelivered = report :: rest) :
      Goes client slot (.deliver (.progress report)) (client.deliver report rest) slot

/-- A task that neither calls the endpoint nor delivers a report changes the executor only. -/
theorem Step.eq_put
    (step : Step .ofEndpoint client move after)
    (silent : move.report? client.scheduler.executor.hosting = none)
    (still : move.isAct = false) :
    ∃ executor,
      after = client.put executor client.scheduler.taken ∧
        Executor.Step client.scheduler.executor move executor := by
  obtain ⟨_, served, scheduled⟩ := step
  cases scheduled with
  | @work _ executor _ moved =>
      refine ⟨executor, ?_, moved⟩
      have told : client.toldAfter move = client.told := by
        simp only [toldAfter, silent, Option.bind_none, Option.toList_none, List.append_nil]
      rw [told, silent]
      cases move with
      | act => cases still
      | _ =>
          cases served
          rfl

theorem Step.eq_deliver
    {event : ExecutorEvent}
    (step : Step .ofEndpoint client (.deliver event) after)
    (told :
      client.scheduler.executor.events = client.scheduler.executor.undelivered.map .progress) :
    ∃ report rest,
      client.scheduler.executor.undelivered = report :: rest ∧ event = .progress report ∧
        after = client.deliver report rest := by
  obtain ⟨_, served, scheduled⟩ := step
  cases scheduled with
  | work _ moved =>
      cases moved with
      | deliver taken =>
          obtain ⟨_, waits, rfl⟩ := Executor.takeEvent_eq_some taken
          obtain ⟨report, rest, waiting, rfl, rfl⟩ :=
            List.map_eq_cons_iff.mp (told.symm.trans waits)
          cases served
          exact ⟨report, rest, waiting, rfl, rfl⟩

/-- In the background an act changes nothing but the executor and the endpoint. -/
theorem Step.eq_act
    {index : Nat}
    {act : Engine.Act}
    (step : Step .ofEndpoint client (.act index act) after)
    (hosted : client.scheduler.executor.hosting = .background) :
    ∃ run engine remote,
      client.scheduler.executor.runs[index]? = some run ∧ run.fate = .running ∧
        Engine.Step run.engine act engine ∧
        Service.ofEndpoint.next? run.engine client.remote = some (act, remote) ∧
        after =
          { client.put
              ((client.scheduler.executor.modifyEngine index fun _ => engine).hear act)
              client.scheduler.taken with
            remote := remote } := by
  obtain ⟨_, served, scheduled⟩ := step
  obtain ⟨caller, known, served⟩ := served
  cases scheduled with
  | work _ moved =>
      cases moved with
      | @act _ run _ engine found running acted =>
          rw [Executor.engine?, found, Option.map_some] at known
          cases known
          refine ⟨run, engine, _, found, running, acted, served, ?_⟩
          have silent := Executor.Move.report?_act_background index act
          rw [← hosted] at silent
          simp only [toldAfter, silent, Option.bind_none, Option.toList_none, List.append_nil]
          rfl

namespace Tracks

/-- Handling a snapshot either starts an engine or leaves everything to go on as it was. -/
theorem handles
    (tracks : Tracks target drained client slot)
    (steady : executor.Steady)
    (does : client.scheduler.executor.Does .handle executor) :
    ∃ left,
      Tracks target drained (client.put executor client.scheduler.taken) left ∧
        Goes client slot .handle (client.put executor client.scheduler.taken) left := by
  have line {snapshot : Snapshot} {behind : List Snapshot}
      (waits : client.scheduler.executor.requests = snapshot :: behind) :
      (behind ++ client.scheduler.taken).Sublist client.scheduler.line := by
    rw [Scheduler.line, waits]
    exact (List.sublist_cons_self _ _).append (List.Sublist.refl _)
  cases does with
  | finds handled => exact ⟨slot, tracks, .finds handled⟩
  | passes waits spent =>
      exact ⟨slot, tracks.quiet steady (tracks.works.of_runs rfl) rfl rfl rfl (line waits),
        .passes waits rfl rfl (.inl rfl) spent⟩
  | @stops snapshot behind run waits held unnoticed unwanted =>
      have free : slot = none := by
        cases slot with
        | none => rfl
        | some engine =>
            obtain ⟨index, other, found, running, rfl, _⟩ := (tracks.works engine).mpr rfl
            have holds := tracks.steady.one.holder_of_running tracks.steady.working found running
            rw [Executor.holder?, holds, Option.bind_some, found] at held
            cases held
            have among : snapshot ∈ client.scheduler.line := by
              rw [Scheduler.line, waits]
              exact List.mem_append_left _ List.mem_cons_self
            cases unwanted.symm.trans (tracks.keeps rfl snapshot among)
      subst free
      have works : Executor.Works { client.scheduler.executor with requests := behind } none :=
        tracks.works.of_runs rfl
      have stopped := works.stopHolder
      have runs :
          (Executor.stopHolder { client.scheduler.executor with requests := behind }).runs =
            client.scheduler.executor.stopHolder.runs := by
        unfold Executor.stopHolder
        cases client.scheduler.executor.holder <;> rfl
      have spent : client.scheduler.executor.Vacant →
          client.scheduler.executor.emitted ≤ snapshot.reportsSeen → snapshot.next? = none := by
        intro vacant
        cases unnoticed.symm.trans (vacant run held)
      obtain ⟨_, frame⟩ :=
        Executor.stopHolder_frame { client.scheduler.executor with requests := behind }
      rw [frame] at steady stopped runs ⊢
      exact ⟨none, tracks.quiet steady stopped rfl rfl rfl (line waits),
        .passes waits rfl rfl (.inr ⟨rfl, runs⟩) spent⟩
  | @starts snapshot behind entry file waits vacant first current =>
      obtain rfl := tracks.slot_of_vacant vacant
      have works : Executor.Works { client.scheduler.executor with requests := behind } none :=
        tracks.works.of_runs rfl
      exact ⟨_, tracks.starts waits first current steady (works.launch entry file) rfl rfl rfl rfl,
        .starts rfl rfl⟩

/-- Whatever a task comes to leaves the client on its way. -/
theorem goes
    (tracks : Tracks target drained client slot)
    (step : Step .ofEndpoint client move after) :
    ∃ left, Tracks target drained after left ∧ Goes client slot move after left := by
  cases move with
  | handle =>
      obtain ⟨executor, rfl, moved⟩ := step.eq_put rfl rfl
      exact tracks.handles (tracks.steady.step moved rfl) (tracks.steady.does moved rfl)
  | act index act =>
      obtain ⟨run, engine, remote, found, running, acted, served, rfl⟩ :=
        step.eq_act tracks.steady.hosted
      have working : slot = some run.engine :=
        (tracks.works run.engine).mp ⟨index, run, found, running, rfl, acted.not_ended⟩
      subst working
      have steady := tracks.steady.step (.act found running acted) rfl
      have works : (client.scheduler.executor.modifyEngine index fun _ => engine).Works
          (if engine.hasEnded then none else some engine) :=
        .acts tracks.steady.one found running
      have begun : (client.scheduler.executor.modifyEngine index fun _ => engine).hosting =
          .background :=
        tracks.steady.hosted
      have unfinished :
          (client.scheduler.executor.modifyEngine index fun _ => engine).unfinished =
            client.scheduler.executor.unfinished :=
        Nat.add_right_cancel (Executor.unfinished_modifyRun found fun run =>
          { run with engine := engine })
      have serves := Service.next?_ofEndpoint run.engine client.remote
      rw [served, Option.map_some] at serves
      have heard := Executor.hear_of_background begun act
      have undelivered :
          ((client.scheduler.executor.modifyEngine index fun _ => engine).hear act).undelivered =
            client.scheduler.executor.undelivered ++ act.report?.toList := by
        refine Executor.undelivered_of_events ?_
        rw [heard, List.map_append, ← tracks.steady.told]
        rfl
      rw [heard] at steady undelivered ⊢
      exact ⟨_, tracks.acts served acted steady (works.of_runs rfl) undelivered rfl rfl rfl,
        .acts rfl serves.symm acted undelivered unfinished⟩
  | finish index =>
      obtain ⟨executor, rfl, moved⟩ := step.eq_put rfl rfl
      have steady := tracks.steady.step moved rfl
      cases tracks.steady.does moved rfl with
      | @returns _ run found running ended =>
          have works := tracks.works.modifyRun (fun run => { run with fate := .returned })
            found (fun _ => ended) rfl nofun
          have counted : (client.scheduler.executor.settle index .returned).unfinished + _ = _ :=
            Executor.unfinished_modifyRun found _
          refine ⟨slot, tracks.quiet steady works rfl rfl rfl (List.Sublist.refl _),
            .settles rfl ?_⟩
          simp only [Executor.unfinishedRun, running, ↓reduceIte, reduceCtorEq] at counted
          exact Nat.lt_of_succ_le (by omega)
  | notice index =>
      obtain ⟨executor, rfl, moved⟩ := step.eq_put rfl rfl
      have steady := tracks.steady.step moved rfl
      cases tracks.steady.does moved rfl with
      | @notices _ run found atRest unnoticed =>
          have works := tracks.works.modifyRun (fun run => { run with noticed := true })
            found (fun running => absurd running atRest) rfl id
          have counted := Executor.unfinished_modifyRun found fun run =>
            { run with noticed := true }
          refine ⟨slot, tracks.quiet steady works rfl rfl rfl (List.Sublist.refl _),
            .settles rfl ?_⟩
          simp only [Executor.unfinishedRun, unnoticed, Bool.false_eq_true, ↓reduceIte] at counted
          exact Nat.lt_of_succ_le (by omega)
  | deliver event =>
      obtain ⟨report, rest, waits, rfl, rfl⟩ := step.eq_deliver tracks.steady.told
      exact ⟨slot, tracks.delivers waits, .delivers waits⟩
  | send | panic | shutDown | close =>
      obtain ⟨task, _, _⟩ := step
      cases task

end Tracks

end Client

end ResumableUpload
