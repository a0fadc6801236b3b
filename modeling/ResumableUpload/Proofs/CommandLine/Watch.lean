import ResumableUpload.CommandLine.Commands
import ResumableUpload.Proofs.Fairness
import ResumableUpload.Proofs.Scheduler.Client
import ResumableUpload.Proofs.Session.Moves

/-!
# The command that waits for its uploads

Once its files are queued, an upload command leaves their transfer to a client in the background and
waits.  A ticker takes a snapshot of the queue from time to time and has it sent to the executor before
it takes the next one.  The worker of the executor, its engines, their supervisors and whoever delivers
their reports go on by themselves.  With each report for a queued path the command is told the queue as
it then is.  It looks at what it was told in turn, and returns with the first queue in which no entry
may run any more; it fails if one of its own files has a message there.

`Watch.Step` lets all of them move in any order.  `Returns` tells how the command can end, and `Ends`
that it does, as long as nobody who can move waits for ever.
-/

namespace ResumableUpload.CommandLine

variable {place : Place} {session : Session} {files : List String} {directory : String}

/-- A command that waits for its uploads, with the client that transfers them. -/
structure Watch where
  client : Client Endpoint
  /-- How many of the queues that it was told the command has looked at. -/
  seen : Nat := 0
  /-- The queue with which the command stops to wait. -/
  result : Option (List Entry) := none

namespace Watch

/-- What happens next to a command that waits. -/
inductive Move where
  /-- The ticker takes a snapshot of the queue. -/
  | tick
  /-- The snapshot that was taken reaches the executor. -/
  | post
  /-- A task of the executor goes on. -/
  | task (move : Executor.Move)
  /-- The command looks at the next queue that it was told. -/
  | look

/-- Those who go on by themselves. -/
inductive Actor where
  | ticker
  | worker
  | engine (run : Nat)
  | supervisor (run : Nat)
  | dispatcher
  | command

/-- Who makes a move. -/
def Move.actor : Move → Actor
  | .tick | .post => .ticker
  | .look => .command
  | .task (.act run _) | .task (.finish run) | .task (.panic run) => .engine run
  | .task (.notice run) => .supervisor run
  | .task (.deliver _) => .dispatcher
  | .task .handle | .task .close | .task .shutDown | .task (.send _) => .worker

/-- A command all of whose files are queued, before anything was sent to the executor. -/
def start (session : Session) : Watch where
  client := { scheduler := session.scheduler, remote := { state := session.endpoint } }

/-- What the endpoint has come to. -/
def endpoint (watch : Watch) : Endpoint :=
  watch.client.remote.state

/-- Whether a queue lets the command wait on. -/
def isBusy (entries : List Entry) : Bool :=
  entries.any (·.runnable)

/-- The command after it has looked at a queue. -/
def afterLook (watch : Watch) (entries : List Entry) : Watch :=
  { watch with
    seen := watch.seen + 1
    result := if isBusy entries then none else some entries }

/-- The moves that can be made until the command returns. -/
inductive Step (watch : Watch) : Move → Watch → Prop where
  | tick {scheduler : Scheduler}
      (waits : watch.result = none)
      (posted : watch.client.scheduler.taken = [])
      (step : Scheduler.Step watch.client.scheduler .tick scheduler) :
      Step watch .tick { watch with client := { watch.client with scheduler := scheduler } }
  | post {scheduler : Scheduler}
      (waits : watch.result = none)
      (step : Scheduler.Step watch.client.scheduler (.post 0) scheduler) :
      Step watch .post { watch with client := { watch.client with scheduler := scheduler } }
  | task {move : Executor.Move} {client : Client Endpoint}
      (waits : watch.result = none)
      (step : Client.Step .ofEndpoint watch.client move client) :
      Step watch (.task move) { watch with client := client }
  | look {entries : List Entry}
      (waits : watch.result = none)
      (told : watch.client.told[watch.seen]? = some entries) :
      Step watch .look (watch.afterLook entries)

/-- Nothing happens any more once the command has returned. -/
theorem stuck_of_result
    {watch : Watch}
    {entries : List Entry}
    (returned : watch.result = some entries) :
    Stuck Step watch := by
  intro move next step
  cases step with
  | tick waits | post waits | task waits | look waits => cases waits.symm.trans returned

/-- A run of the command is a run of the scheduler that it drives. -/
theorem trace_of_steps
    {watch final : Watch}
    {moves : List Move}
    (run : Trace Step watch moves final) :
    ∃ moves, Trace Scheduler.Step watch.client.scheduler moves final.client.scheduler := by
  induction run with
  | refl => exact ⟨[], .refl⟩
  | snoc _ last before =>
      obtain ⟨earlier, past⟩ := before
      cases last with
      | tick _ _ step => exact ⟨_, past.snoc step⟩
      | post _ step => exact ⟨_, past.snoc step⟩
      | task _ step =>
          obtain ⟨_, _, step⟩ := step
          exact ⟨_, past.snoc step⟩
      | look => exact ⟨earlier, past⟩

/-! ## Runs that can be computed -/

/-- Who goes on next. -/
inductive Cue where
  | tick
  | post
  /-- What an engine does is for itself and the endpoint to say. -/
  | engine (run : Nat)
  | task (move : Executor.Move)
  /-- The oldest event is delivered. -/
  | deliver
  | look

/--
The cues by which the next snapshot starts an engine, which does so much and returns, and its reports are
delivered and looked at.
-/
def Cue.transfer (run acts reports : Nat) : List Cue :=
  [.tick, .post, .task .handle] ++ List.replicate acts (.engine run) ++
    [.task (.finish run), .task (.notice run)] ++ List.replicate reports .deliver ++
    List.replicate reports .look

/-- The command after a turn in the background, if there is one to take. -/
def turn? (watch : Watch) (turn : Client.Turn) : Option Watch :=
  (watch.client.turn? .ofEndpoint turn).map fun client => { watch with client := client }

/-- The command after somebody went on, if it can. -/
def follow? (watch : Watch) (cue : Cue) : Option Watch :=
  if watch.result.isSome then none
  else
    match cue with
    | .tick =>
      if watch.client.scheduler.taken.isEmpty then
        (watch.client.scheduler.move? .tick).map fun scheduler =>
          { watch with client := { watch.client with scheduler := scheduler } }
      else none
    | .post =>
      (watch.client.scheduler.move? (.post 0)).map fun scheduler =>
        { watch with client := { watch.client with scheduler := scheduler } }
    | .engine run => watch.turn? (.engine run)
    | .task move => watch.turn? (.other move)
    | .deliver =>
      (watch.client.scheduler.executor.events.head?).bind fun event =>
        watch.turn? (.other (.deliver event))
    | .look => (watch.client.told[watch.seen]?).map watch.afterLook

theorem step_of_turn?
    {watch next : Watch}
    {turn : Client.Turn}
    (waits : watch.result = none)
    (taken : watch.turn? turn = some next) :
    ∃ move, Step watch move next := by
  obtain ⟨client, went, rfl⟩ := Option.map_eq_some_iff.mp taken
  obtain ⟨move, step⟩ := Client.step_of_turn? went
  exact ⟨_, .task waits step⟩

theorem step_of_follow?
    {watch next : Watch}
    {cue : Cue}
    (followed : watch.follow? cue = some next) :
    ∃ move, Step watch move next := by
  unfold follow? at followed
  split at followed
  case isTrue => cases followed
  case isFalse returned =>
      have waits : watch.result = none := Option.not_isSome_iff_eq_none.mp returned
      cases cue with
      | tick =>
          dsimp only at followed
          split at followed
          case isTrue posted =>
              obtain ⟨scheduler, moved, rfl⟩ := Option.map_eq_some_iff.mp followed
              exact ⟨_, .tick waits (List.isEmpty_iff.mp posted) (Scheduler.step_of_move? moved)⟩
          case isFalse => cases followed
      | post =>
          obtain ⟨scheduler, moved, rfl⟩ := Option.map_eq_some_iff.mp followed
          exact ⟨_, .post waits (Scheduler.step_of_move? moved)⟩
      | engine | task => exact step_of_turn? waits followed
      | deliver =>
          obtain ⟨event, _, taken⟩ := Option.bind_eq_some_iff.mp followed
          exact step_of_turn? waits taken
      | look =>
          obtain ⟨entries, told, rfl⟩ := Option.map_eq_some_iff.mp followed
          exact ⟨_, .look waits told⟩

end Watch

/-! ## The command drives a scheduler -/

theorem calls_queueFiles
    (session : Session)
    (files : List String) :
    session.Calls (queueFiles place directory session files).1 := by
  induction files generalizing session with
  | nil => exact .refl session
  | cons file rest later =>
      unfold queueFiles
      cases remotePathOf directory file with
      | error => exact .refl session
      | ok path =>
          cases place.openFile rest.length file with
          | error => exact .refl session
          | ok handle =>
              have added := Session.Calls.add session handle path
              dsimp only
              cases call : session.add handle path with
              | mk next result =>
                  rw [call] at added
                  cases result with
                  | error => exact added
                  | ok =>
                      have further := added.trans (later next)
                      dsimp only
                      cases queueing : queueFiles place directory next rest with
                      | mk final result =>
                          rw [queueing] at further
                          cases result <;> exact further

/-- To make a session ready for an upload is to make calls that its scheduler takes. -/
theorem calls_prepare
    (place : Place)
    (session : Session)
    (files : List String)
    (directory : String) :
    session.Calls (prepare place session files directory).1 := by
  unfold prepare
  split
  case h_1 => exact .refl session
  case h_2 => exact (Session.Calls.restore session).trans (calls_queueFiles _ files)

/-- From its beginning an upload command is a run of the scheduler of its session. -/
theorem trace_of_upload
    {ready : Session}
    {paths : List String}
    {moves : List Watch.Move}
    {final : Watch}
    (prepared : prepare place session files directory = (ready, .ok paths))
    (run : Trace Watch.Step (Watch.start ready) moves final) :
    ∃ moves, Trace Scheduler.Step session.scheduler moves final.client.scheduler := by
  obtain ⟨_, earlier, past⟩ := (calls_prepare place session files directory).follows
  rw [prepared] at past
  obtain ⟨later, further⟩ := Watch.trace_of_steps run
  exact ⟨_, past.append further⟩

/-! ## How the command ends -/

/-- How an upload command can end: what it returns, and the endpoint as it then is. -/
inductive Returns (place : Place) (session : Session) (files : List String) (directory : String) :
    Except Failure String → Endpoint → Prop where
  /-- A file could not be queued. -/
  | unprepared {failed : Session} {failure : Failure}
      (prepared : prepare place session files directory = (failed, .error failure)) :
      Returns place session files directory (.error failure) failed.endpoint
  /-- Everybody has moved until no entry may run any more. -/
  | transferred {ready : Session} {paths : List String} {moves : List Watch.Move} {final : Watch}
      {entries : List Entry}
      (prepared : prepare place session files directory = (ready, .ok paths))
      (run : Trace Watch.Step (Watch.start ready) moves final)
      (returned : final.result = some entries) :
      Returns place session files directory (verdict entries paths) final.endpoint

/-- How the command ends if everybody goes on by these cues, if it does. -/
def replay? (place : Place) (session : Session) (files : List String) (directory : String)
    (cues : List Watch.Cue) : Option (Except Failure String × Endpoint) :=
  match prepare place session files directory with
  | (failed, .error failure) => some (.error failure, failed.endpoint)
  | (ready, .ok paths) =>
    (cues.foldlM Watch.follow? (Watch.start ready)).bind fun final =>
      final.result.map fun entries => (verdict entries paths, final.endpoint)

theorem returns_of_replay?
    {cues : List Watch.Cue}
    {outcome : Except Failure String}
    {endpoint : Endpoint}
    (replayed : replay? place session files directory cues = some (outcome, endpoint)) :
    Returns place session files directory outcome endpoint := by
  unfold replay? at replayed
  split at replayed
  case h_1 prepared =>
      cases replayed
      exact .unprepared prepared
  case h_2 prepared =>
      obtain ⟨final, followed, ended⟩ := Option.bind_eq_some_iff.mp replayed
      obtain ⟨entries, returned, same⟩ := Option.map_eq_some_iff.mp ended
      cases same
      let Follows (watch : Watch) (cue : Watch.Cue) (next : Watch) := watch.follow? cue = some next
      have cued : Trace Follows (Watch.start _) cues final :=
        Trace.of_foldlM Follows (fun followed => followed) followed
      obtain ⟨moves, run⟩ := cued.relabel Watch.step_of_follow?
      exact .transferred prepared run returned

/--
An upload command returns, in whatever order everybody moves, and what it returns and the endpoint as it
then is are as they are told to be.
-/
def Ends (place : Place) (session : Session) (files : List String) (directory : String)
    (good : Except Failure String → Endpoint → Prop) : Prop :=
  match prepare place session files directory with
  | (failed, .error failure) => good (.error failure) failed.endpoint
  | (ready, .ok paths) =>
    ∀ run : FairRun Watch.Step Watch.Move.actor (Watch.start ready),
      ∃ time entries,
        (run.state time).result = some entries ∧
          good (verdict entries paths) (run.state time).endpoint

theorem Ends.of_failed
    {good : Except Failure String → Endpoint → Prop}
    {failed : Session}
    {failure : Failure}
    (prepared : prepare place session files directory = (failed, .error failure))
    (holds : good (.error failure) failed.endpoint) :
    Ends place session files directory good := by
  unfold Ends
  rw [prepared]
  exact holds

theorem Ends.imp
    {good better : Except Failure String → Endpoint → Prop}
    (ends : Ends place session files directory good)
    (implied : ∀ {outcome endpoint}, good outcome endpoint → better outcome endpoint) :
    Ends place session files directory better := by
  unfold Ends at ends ⊢
  split
  case h_1 prepared =>
      rw [prepared] at ends
      exact implied ends
  case h_2 prepared =>
      rw [prepared] at ends
      intro run
      obtain ⟨time, entries, returned, holds⟩ := ends run
      exact ⟨time, entries, returned, implied holds⟩

/-- What is sure of how the command ends holds of every way in which it can end. -/
theorem Ends.of_returns
    {good : Except Failure String → Endpoint → Prop}
    {outcome : Except Failure String}
    {endpoint : Endpoint}
    (ends : Ends place session files directory good)
    (returns : Returns place session files directory outcome endpoint) :
    good outcome endpoint := by
  cases returns with
  | unprepared prepared =>
      unfold Ends at ends
      rw [prepared] at ends
      exact ends
  | @transferred _ _ _ final _ prepared run returned =>
      unfold Ends at ends
      rw [prepared] at ends
      have stuck := Watch.stuck_of_result returned
      obtain ⟨fair, last, here⟩ := FairRun.exists_of_trace Watch.Move.actor run stuck
      obtain ⟨time, entries, done, holds⟩ := ends fair
      -- Nothing happens after either moment, so the run is in the same state at both.
      have same : fair.state time = final := by
        rcases Nat.le_total time last with ordered | ordered
        · exact (fair.eq_of_stuck (Watch.stuck_of_result done) ordered).symm.trans here
        · exact (fair.eq_of_stuck (here.symm ▸ stuck) ordered).trans here
      rw [same] at done holds
      cases returned.symm.trans done
      exact holds

end ResumableUpload.CommandLine
