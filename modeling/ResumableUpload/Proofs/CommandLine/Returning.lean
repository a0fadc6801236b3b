import ResumableUpload.Proofs.CommandLine.Watch
import ResumableUpload.Proofs.Scheduler.Tracking

/-!
# An upload command returns

While it waits, a command is on the way of the drain of its session (`Client.Tracks`), so that it
returns with the queue and the endpoint of that drain and with no others (`Watch.drained_of_result`).
It does return, if nobody who can move waits for ever and there is something to transfer
(`Watch.exists_result`).  What is left to do is measured by `Watch.toDo`, which no move raises.  Where
an engine, a supervisor, the dispatcher or the command can move, its move lowers that (`Due`); where
none of them can, it is for the ticker to take a snapshot and for the worker to handle it, which then
is not late and starts an engine.
-/

namespace ResumableUpload

/-- The session as it is while its uploads are transferred in the background. -/
def Session.inBackground (session : Session) : Session :=
  { session with executor := { hosting := .background, tuning := session.executor.tuning } }

namespace CommandLine.Watch

variable {watch next final : Watch} {move : Move} {moves : List Move} {entries : List Entry}
variable {target : String → Option Bytes} {drained session : Session} {slot : Option Engine}

open Client (Tracks Goes)

/-! ## On the way of the drain -/

theorem Step.eq_tick (step : Step watch .tick next) :
    watch.client.scheduler.taken = [] ∧
      next =
        { watch with
          client := watch.client.put watch.client.scheduler.executor
            [watch.client.scheduler.queue.snapshot] } := by
  cases step with
  | tick _ posted step =>
      cases step
      rw [posted]
      exact ⟨rfl, rfl⟩

theorem Step.eq_post (step : Step watch .post next) :
    ∃ snapshot behind,
      watch.client.scheduler.taken = snapshot :: behind ∧
        next =
          { watch with
            client :=
              watch.client.put (watch.client.scheduler.executor.receive snapshot) behind } := by
  cases step with
  | post _ step =>
      cases step with
      | @post _ snapshot found =>
          cases taken : watch.client.scheduler.taken with
          | nil =>
              rw [taken] at found
              cases found
          | cons first behind =>
              rw [taken] at found
              cases found
              exact ⟨snapshot, behind, rfl, rfl⟩

/-- Whoever moves, the client stays on its way. -/
theorem Step.tracks
    (step : Step watch move next)
    (tracks : Tracks target drained watch.client slot) :
    ∃ left, Tracks target drained next.client left := by
  cases move with
  | tick =>
      obtain ⟨posted, rfl⟩ := step.eq_tick
      have ticked := tracks.tick
      rw [posted] at ticked
      exact ⟨slot, ticked⟩
  | post =>
      obtain ⟨snapshot, behind, taken, rfl⟩ := step.eq_post
      obtain ⟨requests, received, _, _, posted⟩ := tracks.post taken
      exact ⟨slot, received ▸ posted⟩
  | task =>
      cases step with
      | task _ step =>
          obtain ⟨left, kept, _⟩ := tracks.goes step
          exact ⟨left, kept⟩
  | look =>
      cases step
      exact ⟨slot, tracks⟩

/-- What a command was told is not taken back. -/
theorem Step.told (step : Step watch move next) :
    watch.client.told <+: next.client.told := by
  cases step with
  | tick | post | look => exact List.prefix_rfl
  | task _ step =>
      obtain ⟨_, _, _⟩ := step
      exact List.prefix_append _ _

/-- What a command has made of what it was told. -/
structure Looks (watch : Watch) : Prop where
  seen : watch.seen ≤ watch.client.told.length
  busy : watch.result = none → ∀ entries ∈ watch.client.told.take watch.seen, isBusy entries = true
  returned : ∀ {entries : List Entry}, watch.result = some entries →
    entries ∈ watch.client.told ∧ isBusy entries = false

theorem Looks.start (session : Session) : (Watch.start session).Looks :=
  ⟨Nat.le_refl _, nofun, nofun⟩

theorem Looks.step
    (looks : watch.Looks)
    (step : Step watch move next) :
    next.Looks := by
  obtain ⟨more, told⟩ := step.told
  cases step with
  | tick | post => exact ⟨looks.seen, looks.busy, looks.returned⟩
  | @task _ client waits step =>
      have told : watch.client.told ++ more = client.told := told
      refine ⟨?_, ?_, fun returned => ?_⟩
      · rw [← told, List.length_append]
        exact Nat.le_add_right_of_le looks.seen
      · rw [← told, List.take_append_of_le_length looks.seen]
        exact looks.busy
      · cases waits.symm.trans returned
  | @look entries waits found =>
      have within := (List.getElem?_eq_some_iff.mp found).1
      refine ⟨within, ?_, ?_⟩
      · intro goes other member
        rw [afterLook, List.take_add_one, found, Option.toList_some] at member
        rcases List.mem_append.mp member with earlier | last
        · exact looks.busy waits other earlier
        · rw [List.mem_singleton.mp last]
          by_contra idle
          rw [afterLook, if_neg idle] at goes
          cases goes
      · intro other returned
        dsimp only [afterLook] at returned
        split at returned
        case isTrue => cases returned
        case isFalse idle =>
            cases returned
            exact ⟨List.mem_of_getElem? found, Bool.eq_false_iff.mpr idle⟩

/-- A command returns with the queue of the drain, and the endpoint is as the drain leaves it. -/
theorem drained_of_result
    (loaded : Session.Loaded target session)
    (unreported : session.queue.reportsSeen = 0)
    (run : Trace Step (start session.inBackground) moves final)
    (returned : final.result = some entries) :
    entries = session.drain.queue.entries ∧ final.endpoint = session.drain.endpoint := by
  have follows : (∃ slot, Tracks target session.drain final.client slot) ∧ final.Looks := by
    clear returned
    induction run with
    | refl => exact ⟨⟨none, .start loaded unreported _⟩, .start _⟩
    | snoc _ last before =>
        obtain ⟨⟨slot, tracks⟩, looks⟩ := before
        exact ⟨last.tracks tracks, looks.step last⟩
  obtain ⟨⟨slot, tracks⟩, looks⟩ := follows
  obtain ⟨told, idle⟩ := looks.returned returned
  obtain ⟨rested, rfl⟩ := tracks.told entries told idle
  have free : slot = none := by
    by_contra busy
    exact tracks.awaits.runnables_ne_zero (.inl busy) rested
  have delivered : final.client.scheduler.executor.undelivered = [] := by
    by_contra more
    exact tracks.awaits.runnables_ne_zero (.inr more) rested
  have midway := tracks.midway
  rw [free, Scheduler.ahead, delivered] at midway
  obtain ⟨queue, endpoint⟩ := midway.drained_eq rested
  exact ⟨congrArg (·.entries) queue.symm, endpoint.symm⟩

/-! ## What is left to do -/

/-- What is left to do, as a number, then as one within that, and as one within that again. -/
abbrev Amount : Type := Nat × Nat × Nat

/-- One amount is less than another. -/
def Less : Amount → Amount → Prop :=
  Prod.Lex (· < ·) (Prod.Lex (· < ·) (· < ·))

theorem less_wellFounded : WellFounded Less :=
  (Prod.lex Nat.lt_wfRel (Prod.lex Nat.lt_wfRel Nat.lt_wfRel)).wf

theorem less_of_first {left right : Amount} (fewer : left.1 < right.1) : Less left right :=
  .left _ _ fewer

theorem less_of_second
    {left right : Amount}
    (first : left.1 ≤ right.1)
    (fewer : left.2.1 < right.2.1) :
    Less left right := by
  obtain ⟨here, _⟩ := left
  obtain ⟨there, _⟩ := right
  rcases Nat.lt_or_eq_of_le first with lower | same
  · exact .left _ _ lower
  · obtain rfl : here = there := same
    exact .right _ (.left _ _ fewer)

theorem less_of_third
    {left right : Amount}
    (first : left.1 = right.1)
    (second : left.2.1 = right.2.1)
    (fewer : left.2.2 < right.2.2) :
    Less left right := by
  obtain ⟨here, inside, _⟩ := left
  obtain ⟨there, within, _⟩ := right
  obtain rfl : here = there := first
  obtain rfl : inside = within := second
  exact .right _ (.right _ fewer)

/-- How many of these snapshots are late, as the queue has heard of a report since. -/
def late (queue : Queue) (snapshots : List Snapshot) : Nat :=
  snapshots.countP fun snapshot => snapshot.reportsSeen < queue.reportsSeen

theorem late_cons_of_late
    {queue : Queue}
    {snapshot : Snapshot}
    (stale : snapshot.reportsSeen < queue.reportsSeen)
    (snapshots : List Snapshot) :
    late queue snapshots < late queue (snapshot :: snapshots) := by
  have counted : late queue (snapshot :: snapshots) = late queue snapshots + 1 :=
    List.countP_cons_of_pos (decide_eq_true stale)
  exact counted ▸ Nat.lt_succ_self _

theorem late_cons_of_current
    {queue : Queue}
    {snapshot : Snapshot}
    (current : queue.reportsSeen ≤ snapshot.reportsSeen)
    (snapshots : List Snapshot) :
    late queue (snapshot :: snapshots) = late queue snapshots :=
  List.countP_cons_of_neg (by simpa only [decide_eq_true_eq, Nat.not_lt] using current)

theorem late_snoc (queue : Queue) (snapshots : List Snapshot) :
    late queue (snapshots ++ [queue.snapshot]) = late queue snapshots := by
  have current : late queue [queue.snapshot] = 0 :=
    late_cons_of_current (Nat.le_refl _) []
  rw [late, List.countP_append]
  exact congrArg (_ + ·) current

/--
What is left to do.  First come the engines to be started and to end; then what is to be done for the one
at work, the engines to return and be noticed, the reports to be delivered and the queues to be looked
at; and then the snapshots that are late.
-/
def toDo (watch : Watch) (slot : Option Engine) : Amount :=
  let scheduler := watch.client.scheduler
  let engine := slot.elim 0 fun engine => 5 * Transfer.remaining engine watch.endpoint
  (2 * scheduler.ahead.runnables + slot.isNone.toNat,
    engine + scheduler.executor.unfinished + 2 * scheduler.executor.undelivered.length +
      (watch.client.told.length - watch.seen),
    late scheduler.queue scheduler.line)

/-- What is left to do if no engine and not the dispatcher has done anything. -/
theorem toDo_put
    {executor : Executor}
    {taken : List Snapshot}
    (events : executor.events = watch.client.scheduler.executor.events)
    (unfinished : executor.unfinished = watch.client.scheduler.executor.unfinished) :
    toDo { watch with client := watch.client.put executor taken } slot =
      ((watch.toDo slot).1, (watch.toDo slot).2.1,
        late watch.client.scheduler.queue (executor.requests ++ taken)) := by
  simp only [toDo, Client.ahead_put events]
  simp only [endpoint, Client.put, Executor.undelivered, events, unfinished, Scheduler.line]

/-- What holds of a command that waits, where `slot` is the engine at work. -/
structure Waits (target : String → Option Bytes) (drained : Session) (amount : Amount)
    (watch : Watch) (slot : Option Engine) : Prop where
  waits : watch.result = none
  tracks : Tracks target drained watch.client slot
  looks : watch.Looks
  /-- Once nothing may run any more, the command was told so. -/
  told :
    watch.client.scheduler.queue.runnables = 0 →
      watch.client.scheduler.queue.entries ∈ watch.client.told
  left : watch.toDo slot = amount

/-- The command has returned, or there is less left to do. -/
def Nears (target : String → Option Bytes) (drained : Session) (amount : Amount) (watch : Watch) :
    Prop :=
  watch.result ≠ none ∨
    ∃ less slot, Less less amount ∧ Waits target drained less watch slot

/-- The moves that leave as much to do. -/
inductive Idles (watch : Watch) (slot : Option Engine) : Move → Watch → Prop where
  | tick (posted : watch.client.scheduler.taken = []) :
      Idles watch slot .tick
        { watch with
          client := watch.client.put watch.client.scheduler.executor
            [watch.client.scheduler.queue.snapshot] }
  | post {requests behind : List Snapshot}
      (taken : watch.client.scheduler.taken ≠ [])
      (some_ : requests ≠ []) :
      Idles watch slot .post
        { watch with
          client := watch.client.put
            { watch.client.scheduler.executor with requests := requests } behind }
  | finds (handled : watch.client.scheduler.executor.requests = []) :
      Idles watch slot (.task .handle) watch
  | passes {executor : Executor} {snapshot : Snapshot} {behind : List Snapshot}
      (waits : watch.client.scheduler.executor.requests = snapshot :: behind)
      (current : watch.client.scheduler.queue.reportsSeen ≤ snapshot.reportsSeen)
      (events : executor.events = watch.client.scheduler.executor.events)
      (runs :
        executor.runs = watch.client.scheduler.executor.runs ∨
          slot = none ∧ executor.runs = watch.client.scheduler.executor.stopHolder.runs)
      (spent :
        watch.client.scheduler.executor.Vacant →
          watch.client.scheduler.executor.emitted ≤ snapshot.reportsSeen → snapshot.next? = none) :
      Idles watch slot (.task .handle)
        { watch with client := watch.client.put executor watch.client.scheduler.taken }

namespace Waits

variable {amount : Amount} {client : Client Endpoint}

/-- A command that has done nothing itself waits on, with the same queue to look at next. -/
theorem put
    {left : Option Engine}
    (waits : Waits target drained amount watch slot)
    (tracks : Tracks target drained client left)
    (queue : client.scheduler.queue = watch.client.scheduler.queue)
    (told : client.told = watch.client.told) :
    Waits target drained (toDo { watch with client := client } left) { watch with client := client }
      left where
  waits := waits.waits
  tracks := tracks
  looks := ⟨told ▸ waits.looks.seen, told ▸ waits.looks.busy, told ▸ waits.looks.returned⟩
  told := by
    rw [queue, told]
    exact waits.told
  left := rfl

/-- If nothing else is done than to take snapshots and to handle them, no more snapshots may be late. -/
theorem keeps
    {executor : Executor}
    {taken : List Snapshot}
    (waits : Waits target drained amount watch slot)
    (tracks : Tracks target drained (watch.client.put executor taken) slot)
    (events : executor.events = watch.client.scheduler.executor.events)
    (unfinished : executor.unfinished = watch.client.scheduler.executor.unfinished)
    (lates :
      late watch.client.scheduler.queue (executor.requests ++ taken) ≤ (watch.toDo slot).2.2) :
    Nears target drained amount { watch with client := watch.client.put executor taken } ∨
      Waits target drained amount { watch with client := watch.client.put executor taken } slot := by
  have after := waits.put tracks rfl rfl
  rw [toDo_put events unfinished] at after
  rcases Nat.lt_or_eq_of_le lates with less | same
  · refine .inl (.inr ⟨_, slot, ?_, after⟩)
    obtain rfl := waits.left
    exact less_of_third rfl rfl less
  · rw [same, waits.left] at after
    exact .inr after

/-- The engine at work has less to do, or it has ended. -/
theorem acts
    {engine after : Engine}
    {act : Engine.Act}
    {executor : Executor}
    {remote : Remote Endpoint}
    (waits : Waits target drained amount watch (some engine))
    (served : Transfer.serve? engine watch.endpoint = some (act, remote.state))
    (step : Engine.Step engine act after)
    (undelivered :
      executor.undelivered = watch.client.scheduler.executor.undelivered ++ act.report?.toList)
    (unfinished : executor.unfinished = watch.client.scheduler.executor.unfinished) :
    Less
      (toDo
        { watch with
          client :=
            { watch.client.put executor watch.client.scheduler.taken with remote := remote } }
        (if after.hasEnded then none else some after))
      amount := by
  obtain ⟨_, less, fewer⟩ := waits.tracks.midway.advance served step
  obtain rfl := waits.left
  have ahead :
      (watch.client.put executor watch.client.scheduler.taken).scheduler.ahead =
        Scheduler.hear watch.client.scheduler.ahead act.report? :=
    Scheduler.ahead_of_made rfl undelivered
  rw [← ahead] at fewer
  cases ended : after.hasEnded with
  | true =>
      rw [ended] at fewer
      refine less_of_first ?_
      simp only [toDo, ↓reduceIte, Option.isNone_none, Option.isNone_some, Bool.toNat_true,
        Bool.toNat_false] at fewer ⊢
      omega
  | false =>
      rw [ended] at fewer
      have one : act.report?.toList.length ≤ 1 := Option.length_toList_le
      refine less_of_second ?_ ?_
      · simp only [toDo, Bool.false_eq_true, ↓reduceIte, Option.isNone_some, Bool.toNat_false]
          at fewer ⊢
        omega
      · simp only [toDo, endpoint, Client.put, Bool.false_eq_true, ↓reduceIte, Option.elim_some,
          undelivered, unfinished, List.length_append] at less ⊢
        omega

/-- The queue hears of a report, and the command is told. -/
theorem delivers
    {report : Report}
    {rest : List Report}
    (waits : Waits target drained amount watch slot)
    (pending : watch.client.scheduler.executor.undelivered = report :: rest)
    (looks : Looks { watch with client := watch.client.deliver report rest }) :
    Nears target drained amount { watch with client := watch.client.deliver report rest } := by
  have tracks := waits.tracks.delivers pending
  have told : (watch.client.deliver report rest).told =
      watch.client.told ++ [(watch.client.scheduler.queue.reconcile report).entries] := by
    rw [Client.deliver, waits.tracks.notice?_eq pending, Option.toList_some]
  refine .inr ⟨_, slot, ?_, waits.waits, tracks, looks, ?_, rfl⟩
  · obtain rfl := waits.left
    have within := waits.looks.seen
    refine less_of_second ?_ ?_
    · simp only [toDo, Client.ahead_deliver pending, Nat.le_refl]
    · have unfinished : (watch.client.deliver report rest).scheduler.executor.unfinished =
          watch.client.scheduler.executor.unfinished :=
        rfl
      simp only [toDo, Client.undelivered_deliver, pending, told, unfinished, List.length_append,
        List.length_cons, List.length_nil]
      simp only [endpoint, Client.deliver]
      omega
  · intro _
    rw [told]
    exact List.mem_append_right _ List.mem_cons_self

/-- What a task comes to. -/
theorem task
    {move : Executor.Move}
    (waits : Waits target drained amount watch slot)
    (step : Client.Step .ofEndpoint watch.client move client) :
    Nears target drained amount { watch with client := client } ∨
      Waits target drained amount { watch with client := client } slot ∧
        Idles watch slot (.task move) { watch with client := client } := by
  obtain ⟨left, tracks, goes⟩ := waits.tracks.goes step
  cases goes with
  | finds handled => exact .inr ⟨waits, .finds handled⟩
  | @passes executor snapshot behind pending requests events runs spent =>
      have unfinished : executor.unfinished = watch.client.scheduler.executor.unfinished := by
        rcases runs with same | ⟨_, stopped⟩
        · exact Executor.unfinished_congr same
        · exact (Executor.unfinished_congr stopped).trans (Executor.unfinished_stopHolder _)
      have before : (watch.toDo slot).2.2 =
          late watch.client.scheduler.queue
            (snapshot :: (behind ++ watch.client.scheduler.taken)) := by
        simp only [toDo, Scheduler.line, pending, List.cons_append]
      by_cases current : watch.client.scheduler.queue.reportsSeen ≤ snapshot.reportsSeen
      · rw [late_cons_of_current current, ← requests] at before
        exact (waits.keeps tracks events unfinished (Nat.le_of_eq before.symm)).imp_right
          fun after => ⟨after, .passes pending current events runs spent⟩
      · have after := waits.put tracks rfl rfl
        rw [toDo_put events unfinished] at after
        refine .inl (.inr ⟨_, slot, ?_, after⟩)
        obtain rfl := waits.left
        refine less_of_third rfl rfl ?_
        rw [before, requests]
        exact late_cons_of_late (Nat.lt_of_not_le current) _
  | @starts executor engine free events =>
      refine .inl (.inr ⟨_, _, ?_, waits.put tracks rfl rfl⟩)
      obtain rfl := waits.left
      subst free
      refine less_of_first ?_
      simp only [toDo, Client.ahead_put events, Option.isNone_none, Option.isNone_some, Bool.toNat_true,
        Bool.toNat_false]
      exact Nat.lt_succ_self _
  | acts working served acted undelivered unfinished =>
      subst working
      exact .inl (.inr ⟨_, _, waits.acts served acted undelivered unfinished,
        waits.put tracks rfl rfl⟩)
  | settles events fewer =>
      refine .inl (.inr ⟨_, _, ?_, waits.put tracks rfl rfl⟩)
      obtain rfl := waits.left
      refine less_of_second ?_ ?_
      · simp only [toDo, Client.ahead_put events, Nat.le_refl]
      · simp only [toDo, endpoint, Client.put, Executor.undelivered, events]
        omega
  | delivers pending => exact .inl (waits.delivers pending (waits.looks.step (.task waits.waits step)))

/-- Any move leaves less to do, or leaves the command waiting with as much to do. -/
theorem step
    (waits : Waits target drained amount watch slot)
    (step : Step watch move next) :
    Nears target drained amount next ∨
      Waits target drained amount next slot ∧ Idles watch slot move next := by
  cases move with
  | tick =>
      obtain ⟨posted, rfl⟩ := step.eq_tick
      have tracks := waits.tracks.tick
      rw [posted, List.nil_append] at tracks
      have same : late watch.client.scheduler.queue
          (watch.client.scheduler.executor.requests ++ [watch.client.scheduler.queue.snapshot]) =
            (watch.toDo slot).2.2 := by
        simp only [toDo, Scheduler.line, posted, List.append_nil, late_snoc]
      exact (waits.keeps tracks rfl rfl (Nat.le_of_eq same)).imp_right fun after =>
        ⟨after, .tick posted⟩
  | post =>
      obtain ⟨snapshot, behind, taken, rfl⟩ := step.eq_post
      obtain ⟨requests, received, some_, line, tracks⟩ := waits.tracks.post taken
      rw [received]
      exact (waits.keeps tracks rfl (Executor.unfinished_congr rfl) line.countP_le).imp_right
        fun after => ⟨after, .post (taken ▸ List.cons_ne_nil _ _) some_⟩
  | task move =>
      cases step with
      | task _ step => exact waits.task step
  | look =>
      have looks := waits.looks.step step
      cases step with
      | @look entries _ found =>
          left
          cases returned : (watch.afterLook entries).result with
          | some => exact .inl (by rw [returned]; exact Option.some_ne_none _)
          | none =>
              refine .inr ⟨_, slot, ?_, returned, waits.tracks, looks, waits.told, rfl⟩
              obtain rfl := waits.left
              have within := (List.getElem?_eq_some_iff.mp found).1
              refine less_of_second (Nat.le_refl _) ?_
              simp only [toDo, afterLook, endpoint]
              omega

end Waits

/-! ## Who is due -/

/-- Those but the ticker and the worker who can move. -/
inductive Due (watch : Watch) : Actor → Prop where
  | engine {index : Nat} {run : Run}
      (found : watch.client.scheduler.executor.runs[index]? = some run)
      (running : run.fate = .running) :
      Due watch (.engine index)
  | supervisor {index : Nat} {run : Run}
      (found : watch.client.scheduler.executor.runs[index]? = some run)
      (atRest : run.fate ≠ .running)
      (unnoticed : run.noticed = false) :
      Due watch (.supervisor index)
  | dispatcher {report : Report} {rest : List Report}
      (pending : watch.client.scheduler.executor.undelivered = report :: rest) :
      Due watch .dispatcher
  | command {entries : List Entry}
      (told : watch.client.told[watch.seen]? = some entries) :
      Due watch .command

/-- Nobody but the ticker and the worker can move. -/
def Quiet (watch : Watch) : Prop :=
  ∀ who, ¬ Due watch who

/-- While nobody else can move the slot can be had. -/
theorem Quiet.vacant (quiet : watch.Quiet) : watch.client.scheduler.executor.Vacant := by
  intro run held
  obtain ⟨index, _, found⟩ := Option.bind_eq_some_iff.mp held
  by_contra noticed
  by_cases running : run.fate = .running
  · exact quiet _ (.engine found running)
  · exact quiet _ (.supervisor found running (Bool.eq_false_iff.mpr noticed))

namespace Waits

variable {amount : Amount} {who : Actor}

/-- Whoever is due can move. -/
theorem exists_moves
    (waits : Waits target drained amount watch slot)
    (due : Due watch who) :
    ∃ next, Moves Step Move.actor who watch next := by
  have steady := waits.tracks.steady
  have serves (move : Executor.Move) {executor : Executor} {remote : Remote Endpoint}
      (task : move.isTask = true)
      (served : watch.client.Serves .ofEndpoint remote move)
      (moved : Executor.Step watch.client.scheduler.executor move executor) :
      ∃ next, Step watch (.task move) next :=
    ⟨_, .task waits.waits (.intro task served (.work (Client.isWork_of_isTask task) moved))⟩
  cases due with
  | @engine index run found running =>
      cases ended : run.engine.hasEnded with
      | true =>
          obtain ⟨next, step⟩ := serves (.finish index) rfl rfl (.finish found running ended)
          exact ⟨next, _, rfl, step⟩
      | false =>
          have working := (waits.tracks.works run.engine).mp ⟨index, run, found, running, rfl, ended⟩
          have midway := waits.tracks.midway
          rw [working] at midway
          obtain ⟨act, after, engine, served, acted⟩ := midway.exists_act
          obtain ⟨⟨_, remote⟩, answered, same⟩ :=
            Option.map_eq_some_iff.mp ((Service.next?_ofEndpoint _ _).trans served)
          cases same
          have known : watch.client.scheduler.executor.engine? index = some run.engine := by
            rw [Executor.engine?, found, Option.map_some]
          obtain ⟨next, step⟩ := serves (.act index act) rfl ⟨_, known, answered⟩ (.act found running acted)
          exact ⟨next, _, rfl, step⟩
  | @supervisor index run found atRest unnoticed =>
      obtain ⟨next, step⟩ := serves (.notice index) rfl rfl (.notice steady.hosted found atRest unnoticed)
      exact ⟨next, _, rfl, step⟩
  | @dispatcher report rest pending =>
      have events : watch.client.scheduler.executor.events =
          .progress report :: rest.map .progress := by
        rw [steady.told, pending, List.map_cons]
      obtain ⟨left, taken⟩ :
          ∃ left, watch.client.scheduler.executor.takeEvent = some (.progress report, left) := by
        rw [Executor.takeEvent, events]
        exact ⟨_, rfl⟩
      obtain ⟨next, step⟩ := serves (.deliver _) rfl rfl (.deliver taken)
      exact ⟨next, _, rfl, step⟩
  | command told => exact ⟨_, .look, rfl, .look waits.waits told⟩

/-- While nobody else can move there is something to transfer. -/
theorem runnables_ne_zero
    (waits : Waits target drained amount watch slot)
    (quiet : watch.Quiet) :
    watch.client.scheduler.queue.runnables ≠ 0 := by
  intro rested
  have looked : watch.client.told.take watch.seen = watch.client.told := by
    refine List.take_of_length_le (Nat.le_of_not_lt fun more => ?_)
    exact quiet _ (.command (List.getElem?_eq_getElem more))
  have busy := waits.looks.busy waits.waits _ (looked.symm ▸ waits.told rested)
  obtain ⟨entry, member, runnable⟩ := List.any_eq_true.mp busy
  exact List.countP_eq_zero.mp rested entry member runnable

/-- While nobody else can move, a snapshot that is not late starts an engine. -/
theorem next?_ne_none
    {snapshot : Snapshot}
    {behind : List Snapshot}
    (waits : Waits target drained amount watch slot)
    (quiet : watch.Quiet)
    (pending : watch.client.scheduler.executor.requests = snapshot :: behind)
    (current : watch.client.scheduler.queue.reportsSeen ≤ snapshot.reportsSeen) :
    watch.client.scheduler.executor.emitted ≤ snapshot.reportsSeen ∧ snapshot.next? ≠ none := by
  have delivered : watch.client.scheduler.executor.undelivered = [] := by
    cases undelivered : watch.client.scheduler.executor.undelivered with
    | nil => rfl
    | cons => exact absurd (.dispatcher undelivered) (quiet _)
  have counted := waits.tracks.counted
  rw [delivered] at counted
  refine ⟨Nat.le_trans (Nat.le_of_eq counted) current, ?_⟩
  have line : watch.client.scheduler.line =
      snapshot :: (behind ++ watch.client.scheduler.taken) := by
    rw [Scheduler.line, pending, List.cons_append]
  obtain rfl := (line ▸ waits.tracks.line).eq_of_head current snapshot List.mem_cons_self
  intro nothing
  have ready : ∀ entry ∈ watch.client.scheduler.queue.snapshot.entries, entry.Ready :=
    waits.tracks.ready
  have first := Snapshot.next?_eq_first? ready
  rw [nothing, Option.map_none] at first
  exact waits.runnables_ne_zero quiet
    (List.countP_eq_zero.mpr (List.find?_eq_none.mp first.symm))

end Waits

/-! ## While others idle -/

theorem Due.congr
    {who : Actor}
    (due : Due watch who)
    (runs : next.client.scheduler.executor.runs = watch.client.scheduler.executor.runs)
    (events : next.client.scheduler.executor.events = watch.client.scheduler.executor.events)
    (told : next.client.told = watch.client.told)
    (seen : next.seen = watch.seen) :
    Due next who := by
  cases due with
  | engine found running => exact .engine (runs ▸ found) running
  | supervisor found atRest unnoticed => exact .supervisor (runs ▸ found) atRest unnoticed
  | dispatcher pending => exact .dispatcher ((congrArg (List.filterMap _) events).trans pending)
  | command listed =>
      rw [← told, ← seen] at listed
      exact .command listed

theorem Quiet.congr
    (quiet : watch.Quiet)
    (runs : next.client.scheduler.executor.runs = watch.client.scheduler.executor.runs)
    (events : next.client.scheduler.executor.events = watch.client.scheduler.executor.events)
    (told : next.client.told = watch.client.told)
    (seen : next.seen = watch.seen) :
    next.Quiet :=
  fun who due => quiet who (due.congr runs.symm events.symm told.symm seen.symm)

/-- How far the next snapshot is from the worker: not taken, taken, or waiting to be handled. -/
def way (watch : Watch) : Nat :=
  match watch.client.scheduler.executor.requests, watch.client.scheduler.taken with
  | [], [] => 2
  | [], _ :: _ => 1
  | _ :: _, _ => 0

/-- Whose move brings a snapshot that is so far from the worker nearer to it, or has it handled. -/
def awaited : Nat → Actor
  | 0 => .worker
  | _ + 1 => .ticker

namespace Idles

variable {who : Actor}

/-- Whoever is due does not idle. -/
theorem not_due (idles : Idles watch slot move next) : ¬ Due watch move.actor := by
  cases idles <;> nofun

/-- Whoever is due stays so while others idle. -/
theorem due
    (idles : Idles watch slot move next)
    (due : Due watch who) :
    Due next who := by
  cases idles with
  | tick | post => exact due.congr rfl rfl rfl rfl
  | finds => exact due
  | passes _ _ events runs =>
      rcases runs with same | ⟨_, stopped⟩
      · exact due.congr same events rfl rfl
      · cases due with
        | engine found running =>
            obtain ⟨after, here, fate, _⟩ := Executor.exists_of_stopHolder found
            exact .engine (stopped ▸ here) (fate.trans running)
        | supervisor found atRest unnoticed =>
            obtain ⟨after, here, fate, noticed⟩ := Executor.exists_of_stopHolder found
            exact .supervisor (stopped ▸ here) (fate ▸ atRest) (noticed.trans unnoticed)
        | dispatcher pending => exact .dispatcher ((congrArg (List.filterMap _) events).trans pending)
        | command listed => exact .command listed

end Idles

namespace Waits

variable {amount : Amount} {who : Actor}

/--
While nobody else can move, the next snapshot gets nearer to the worker, unless somebody moves whom that
does not wait for.
-/
theorem step_of_quiet
    (waits : Waits target drained amount watch slot)
    (quiet : watch.Quiet)
    (step : Step watch move next) :
    Nears target drained amount next ∨
      (Waits target drained amount next slot ∧ next.Quiet) ∧
        (next.way < watch.way ∨ next.way = watch.way ∧ move.actor ≠ awaited watch.way) := by
  rcases waits.step step with nears | ⟨after, idles⟩
  · exact .inl nears
  · right
    cases idles with
    | tick posted =>
        refine ⟨⟨after, quiet.congr rfl rfl rfl rfl⟩, ?_⟩
        cases handled : watch.client.scheduler.executor.requests with
        | nil => exact .inl (by simp only [way, Client.put, handled, posted, Nat.lt_succ_self])
        | cons =>
            refine .inr ?_
            simp only [way, Client.put, handled, awaited, Move.actor, ne_eq, reduceCtorEq,
              not_false_eq_true, and_self]
    | @post requests behind taken some_ =>
        refine ⟨⟨after, quiet.congr rfl rfl rfl rfl⟩, ?_⟩
        obtain ⟨first, others, rfl⟩ := List.exists_cons_of_ne_nil some_
        obtain ⟨snapshot, later, taken⟩ := List.exists_cons_of_ne_nil taken
        cases handled : watch.client.scheduler.executor.requests with
        | nil => exact .inl (by simp only [way, Client.put, handled, taken, Nat.zero_lt_one])
        | cons =>
            refine .inr ?_
            simp only [way, Client.put, handled, awaited, Move.actor, ne_eq, reduceCtorEq,
              not_false_eq_true, and_self]
    | finds handled =>
        refine ⟨⟨after, quiet⟩, .inr ⟨rfl, ?_⟩⟩
        cases taken : watch.client.scheduler.taken <;>
          simp only [way, handled, taken, awaited, Move.actor, ne_eq, reduceCtorEq,
            not_false_eq_true]
    | passes pending current _ _ spent =>
        obtain ⟨seen, more⟩ := waits.next?_ne_none quiet pending current
        exact absurd (spent quiet.vacant seen) more

end Waits

/-! ## Somebody gets on -/

namespace Waits

variable {amount : Amount} {who : Actor} {begun : Watch} {time : Nat}

/-- If somebody but the ticker and the worker can move, there is less left to do at some time. -/
theorem leads_of_due
    (run : FairRun Step Move.actor begun)
    (waits : Waits target drained amount (run.state time) slot)
    (due : Due (run.state time) who) :
    ∃ later ≥ time, Nears target drained amount (run.state later) := by
  refine run.leads (fun watch => Waits target drained amount watch slot ∧ Due watch who) _ who
    ?_ ?_ ?_ ⟨waits, due⟩
  · exact fun held => held.1.exists_moves held.2
  · rintro watch next ⟨waits, due⟩ ⟨move, rfl, step⟩
    exact (waits.step step).resolve_right fun idle => idle.2.not_due due
  · rintro watch move next ⟨waits, due⟩ step
    rcases waits.step step with nears | ⟨after, idles⟩
    · exact .inr nears
    · exact .inl ⟨after, idles.due due⟩

/-- The ticker and the worker can always move. -/
theorem exists_moves_of_awaited
    (waits : Waits target drained amount watch slot)
    (way : Nat) :
    ∃ next, Moves Step Move.actor (awaited way) watch next := by
  cases way with
  | zero =>
      have steady := waits.tracks.steady
      exact ⟨_, .task .handle, rfl, .task waits.waits
        (.intro rfl rfl (.work rfl (.handle steady.hosted steady.working)))⟩
  | succ =>
      cases taken : watch.client.scheduler.taken with
      | nil => exact ⟨_, .tick, rfl, .tick waits.waits taken .tick⟩
      | cons => exact ⟨_, .post, rfl, .post waits.waits (.post (by rw [taken]; rfl))⟩

/-- If only the ticker and the worker can move, the next snapshot gets to the worker and is handled. -/
theorem leads_of_quiet
    {way : Nat}
    (run : FairRun Step Move.actor begun)
    (waits : Waits target drained amount (run.state time) slot)
    (quiet : (run.state time).Quiet)
    (away : (run.state time).way = way) :
    ∃ later ≥ time, Nears target drained amount (run.state later) := by
  induction way using Nat.strongRecOn generalizing time with
  | ind way nearer =>
      have approaches : ∃ later ≥ time,
          Nears target drained amount (run.state later) ∨
            Waits target drained amount (run.state later) slot ∧ (run.state later).Quiet ∧
              (run.state later).way < way := by
        refine run.leads
          (fun watch => Waits target drained amount watch slot ∧ watch.Quiet ∧ watch.way = way)
          (fun watch =>
            Nears target drained amount watch ∨
              Waits target drained amount watch slot ∧ watch.Quiet ∧ watch.way < way)
          (awaited way) (fun held => held.1.exists_moves_of_awaited way) ?_ ?_
          ⟨waits, quiet, away⟩
        · rintro watch next ⟨waits, quiet, rfl⟩ ⟨move, moves, step⟩
          rcases waits.step_of_quiet quiet step with nears | ⟨⟨after, still⟩, less | ⟨_, other⟩⟩
          · exact .inl nears
          · exact .inr ⟨after, still, less⟩
          · exact absurd moves other
        · rintro watch move next ⟨waits, quiet, rfl⟩ step
          rcases waits.step_of_quiet quiet step with nears | ⟨⟨after, still⟩, less | ⟨same, _⟩⟩
          · exact .inr (.inl nears)
          · exact .inr (.inr ⟨after, still, less⟩)
          · exact .inl ⟨after, still, same⟩
      obtain ⟨later, after, nears | ⟨still, silent, less⟩⟩ := approaches
      · exact ⟨later, after, nears⟩
      · obtain ⟨last, beyond, nears⟩ := nearer _ less still silent rfl
        exact ⟨last, Nat.le_trans after beyond, nears⟩

/-- However much is left to do, there is less at some time, or the command has returned. -/
theorem leads
    (run : FairRun Step Move.actor begun)
    (waits : Waits target drained amount (run.state time) slot) :
    ∃ later ≥ time, Nears target drained amount (run.state later) := by
  by_cases quiet : (run.state time).Quiet
  · exact waits.leads_of_quiet run quiet rfl
  · obtain ⟨who, due⟩ := not_forall_not.mp quiet
    exact waits.leads_of_due run due

end Waits

/-- A command returns, if there is something to transfer and nobody who can move waits for ever. -/
theorem exists_result
    (loaded : Session.Loaded target session)
    (unreported : session.queue.reportsSeen = 0)
    (some_ : session.queue.runnables ≠ 0)
    (run : FairRun Step Move.actor (start session.inBackground)) :
    ∃ time entries, (run.state time).result = some entries := by
  have waits : Waits target session.drain _ (start session.inBackground) none :=
    ⟨rfl, .start loaded unreported _, .start _, fun rested => absurd rested some_, rfl⟩
  obtain ⟨time, returned⟩ := run.reaches less_wellFounded
    (fun amount watch => ∃ slot, Waits target session.drain amount watch slot)
    (fun watch => watch.result ≠ none)
    (by
      rintro amount time ⟨slot, waits⟩
      obtain ⟨later, after, returned | ⟨less, left, lower, still⟩⟩ := waits.leads run
      · exact ⟨later, after, .inl returned⟩
      · exact ⟨later, after, .inr ⟨less, lower, left, still⟩⟩)
    ⟨none, waits⟩
  exact ⟨time, Option.ne_none_iff_exists'.mp returned⟩

end CommandLine.Watch

end ResumableUpload
