import Mathlib.Data.List.Forall2
import ResumableUpload.Proofs.Scheduler.Requests

/-!
# Numbered snapshots

Snapshots reach the executor in any order, and those for which there is no room are never handled.
`Tickets` numbers them in the order in which they were taken and follows the numbers on their way, so
that one can say of a run in which order its snapshots were handled.
-/

namespace ResumableUpload

/-- The numbers of the snapshots that were taken. -/
structure Tickets where
  /-- How many there are. -/
  issued : Nat := 0
  /-- Those that have not reached the executor. -/
  taken : List Nat := []
  /-- Those that wait to be handled. -/
  waiting : List Nat := []
  /-- Those that were handled, in the order in which they were. -/
  handled : List Nat := []
  closed : Bool := false

namespace Tickets

/-- A snapshot reaches the executor. -/
def receive (hosting : Hosting) (tickets : Tickets) (ticket : Nat) : Tickets :=
  match hosting with
  | .inline => { tickets with handled := tickets.handled ++ [ticket] }
  | .background =>
    if tickets.closed || Executor.requestDepth ≤ tickets.waiting.length then tickets
    else { tickets with waiting := tickets.waiting ++ [ticket] }

/-- The oldest waiting snapshot is handled. -/
def handle (tickets : Tickets) : Tickets :=
  match tickets.waiting with
  | [] => tickets
  | ticket :: rest => { tickets with waiting := rest, handled := tickets.handled ++ [ticket] }

/-- Handling a snapshot takes it from those that wait. -/
theorem handle_frame (tickets : Tickets) :
    tickets.handle.taken = tickets.taken ∧ tickets.handle.waiting = tickets.waiting.tail ∧
      tickets.handle.closed = tickets.closed := by
  unfold handle
  cases waiting : tickets.waiting with
  | nil => exact ⟨rfl, waiting, rfl⟩
  | cons => exact ⟨rfl, rfl, rfl⟩

/-- The numbers after a move. -/
def follow (hosting : Hosting) (tickets : Tickets) : Scheduler.Move → Tickets
  | .tick =>
    { tickets with
      issued := tickets.issued + 1
      taken := tickets.taken ++ [tickets.issued] }
  | .post position =>
    match tickets.taken[position]? with
    | some ticket =>
      receive hosting { tickets with taken := tickets.taken.eraseIdx position } ticket
    | none => tickets
  | .work .handle => tickets.handle
  | .work .close => { tickets with waiting := [], closed := true }
  | _ => tickets

theorem issued_follow
    (hosting : Hosting)
    (tickets : Tickets)
    (move : Scheduler.Move) :
    tickets.issued ≤ (tickets.follow hosting move).issued := by
  unfold follow
  split
  case h_1 => exact Nat.le_succ _
  case h_2 =>
      split
      · unfold receive
        split
        · exact Nat.le_refl _
        · split <;> exact Nat.le_refl _
      · exact Nat.le_refl _
  case h_3 =>
      unfold handle
      split <;> exact Nat.le_refl _
  case h_4 => exact Nat.le_refl _
  case h_5 => exact Nat.le_refl _

/-- What was handled stays handled. -/
theorem handled_follow
    (hosting : Hosting)
    (tickets : Tickets)
    (move : Scheduler.Move) :
    tickets.handled <+: (tickets.follow hosting move).handled := by
  unfold follow
  split
  case h_1 => exact List.prefix_refl _
  case h_2 =>
      split
      · unfold receive
        split
        · exact List.prefix_append _ _
        · split <;> exact List.prefix_refl _
      · exact List.prefix_refl _
  case h_3 =>
      unfold handle
      split
      · exact List.prefix_refl _
      · exact List.prefix_append _ _
  case h_4 => exact List.prefix_refl _
  case h_5 => exact List.prefix_refl _

end Tickets

/-- What stands at a position of one list is related to what stands there in the other. -/
theorem related_of_getElem?
    {First Second : Type}
    {relation : First → Second → Prop}
    {firsts : List First}
    {seconds : List Second}
    {position : Nat}
    {first : First}
    (related : List.Forall₂ relation firsts seconds)
    (found : firsts[position]? = some first) :
    ∃ second, seconds[position]? = some second ∧ relation first second := by
  induction related generalizing position with
  | nil => cases found
  | @cons _ second _ _ head _ later =>
      cases position with
      | zero =>
          cases found
          exact ⟨second, rfl, head⟩
      | succ position => exact later found

theorem related_eraseIdx
    {First Second : Type}
    {relation : First → Second → Prop}
    {firsts : List First}
    {seconds : List Second}
    (related : List.Forall₂ relation firsts seconds)
    (position : Nat) :
    List.Forall₂ relation (firsts.eraseIdx position) (seconds.eraseIdx position) := by
  rw [List.eraseIdx_eq_take_drop_succ, List.eraseIdx_eq_take_drop_succ]
  exact List.rel_append (List.forall₂_take _ related) (List.forall₂_drop _ related)

namespace Scheduler

variable {scheduler next : Scheduler} {move : Move} {tickets : Tickets} {snapshot : Snapshot}
variable {relation : Snapshot → Nat → Prop}

/-- The numbers of the snapshots of a run. -/
def ticketsOf (hosting : Hosting) (moves : List Move) : Tickets :=
  moves.foldl (Tickets.follow hosting) {}

theorem ticketsOf_concat
    (hosting : Hosting)
    (moves : List Move)
    (move : Move) :
    ticketsOf hosting (moves ++ [move]) = (ticketsOf hosting moves).follow hosting move :=
  List.foldl_concat _ _ _ _

theorem handled_ticketsOf
    (hosting : Hosting)
    (moves further : List Move) :
    (ticketsOf hosting moves).handled <+: (ticketsOf hosting (moves ++ further)).handled := by
  unfold ticketsOf
  rw [List.foldl_append]
  generalize moves.foldl (Tickets.follow hosting) {} = tickets
  induction further generalizing tickets with
  | nil => exact List.prefix_refl _
  | cons move rest longer =>
      exact (tickets.handled_follow hosting move).trans (longer (tickets.follow hosting move))

/-- The tickets are those of the snapshots, each of which is related to its own. -/
structure Numbered
    (relation : Snapshot → Nat → Prop)
    (scheduler : Scheduler)
    (tickets : Tickets) : Prop where
  taken : List.Forall₂ relation scheduler.taken tickets.taken
  waiting : List.Forall₂ relation scheduler.executor.requests tickets.waiting
  closed : tickets.closed = scheduler.executor.closed

namespace Numbered

theorem imp
    {other : Snapshot → Nat → Prop}
    (numbered : Numbered relation scheduler tickets)
    (weaker : ∀ snapshot ticket, relation snapshot ticket → other snapshot ticket) :
    Numbered other scheduler tickets where
  taken := numbered.taken.imp weaker
  waiting := numbered.waiting.imp weaker
  closed := numbered.closed

theorem post
    {position : Nat}
    (numbered : Numbered relation scheduler tickets)
    (found : scheduler.taken[position]? = some snapshot) :
    Numbered relation
      { scheduler with
        taken := scheduler.taken.eraseIdx position
        executor := scheduler.executor.receive snapshot }
      (tickets.follow scheduler.executor.hosting (.post position)) := by
  obtain ⟨ticket, number, related⟩ := related_of_getElem? numbered.taken found
  have left := related_eraseIdx numbered.taken position
  unfold Tickets.follow Executor.receive
  simp only [number]
  cases scheduler.executor.hosting with
  | inline =>
      have synced := Executor.frame_sync scheduler.executor snapshot
      refine ⟨left, ?_, ?_⟩
      · rw [synced.2.1]
        exact numbered.waiting
      · rw [synced.2.2]
        exact numbered.closed
  | background =>
      unfold Tickets.receive Executor.enqueue
      simp only [numbered.closed, ← numbered.waiting.length_eq]
      split
      · exact ⟨left, numbered.waiting, rfl⟩
      · exact ⟨left, List.rel_append numbered.waiting (.cons related .nil), rfl⟩

theorem work
    {work : Executor.Move}
    {executor : Executor}
    {queue : Queue}
    (numbered : Numbered relation scheduler tickets)
    (own : isWork work = true)
    (acting : Executor.Step scheduler.executor work executor) :
    Numbered relation { scheduler with executor := executor, queue := queue }
      (tickets.follow scheduler.executor.hosting (.work work)) := by
  obtain ⟨_, requests, closed⟩ := acting.frame
  cases work with
  | send => cases own
  | handle =>
      have frame := tickets.handle_frame
      unfold Tickets.follow
      refine ⟨frame.1 ▸ numbered.taken, ?_, frame.2.2.trans (numbered.closed.trans closed.symm)⟩
      rw [frame.2.1, requests]
      unfold Executor.waitingAfter
      rw [← List.drop_one, ← List.drop_one]
      exact List.forall₂_drop 1 numbered.waiting
  | close => exact ⟨numbered.taken, requests ▸ .nil, closed.symm⟩
  | act | panic | finish | notice | deliver | shutDown =>
      exact ⟨numbered.taken, requests ▸ numbered.waiting, numbered.closed.trans closed.symm⟩

theorem step
    (numbered : Numbered relation scheduler tickets)
    (step : Step scheduler move next)
    (new : move = .tick → relation scheduler.queue.snapshot tickets.issued) :
    Numbered relation next (tickets.follow scheduler.executor.hosting move) := by
  cases step with
  | tick =>
      exact ⟨List.rel_append numbered.taken (.cons (new rfl) .nil), numbered.waiting, numbered.closed⟩
  | post found => exact numbered.post found
  | work own acting => exact numbered.work own acting
  | add | stop | discard | restore => exact ⟨numbered.taken, numbered.waiting, numbered.closed⟩

/-- A snapshot that is handled is handled under its own number. -/
theorem handled
    (numbered : Numbered relation scheduler tickets)
    (step : Step scheduler move next)
    (handles : scheduler.Handles move snapshot) :
    ∃ ticket,
      relation snapshot ticket ∧
        (tickets.follow scheduler.executor.hosting move).handled = tickets.handled ++ [ticket] := by
  obtain ⟨work, works, handles⟩ := handles
  cases move with
  | post position =>
      obtain ⟨taken, found, rfl⟩ := Option.map_eq_some_iff.mp works
      cases handles with
      | inlined inlined =>
          obtain ⟨ticket, number, related⟩ := related_of_getElem? numbered.taken found
          refine ⟨ticket, related, ?_⟩
          unfold Tickets.follow
          simp only [number, inlined]
          rfl
  | work =>
      cases works
      cases handles with
      | inlined =>
          cases step with
          | work own => cases own
      | queued hosted waiting =>
          have related := numbered.waiting
          rw [waiting] at related
          obtain ⟨ticket, rest, head, _, same⟩ := List.forall₂_cons_left_iff.mp related
          refine ⟨ticket, head, ?_⟩
          unfold Tickets.follow Tickets.handle
          simp only [same]
  | add | stop | discard | restore | tick => cases works

end Numbered

/-- The number of every snapshot that was taken and not handled has been issued. -/
theorem numbered_of_trace
    {limit : Nat}
    {hosting : Hosting}
    {tuning : Tuning}
    {moves : List Move}
    {final : Scheduler}
    (run :
      Trace Step { limit := limit, executor := { hosting := hosting, tuning := tuning } }
        moves final) :
    Numbered (fun _ ticket => ticket < (ticketsOf hosting moves).issued) final
      (ticketsOf hosting moves) := by
  induction run with
  | refl => exact ⟨.nil, .nil, rfl⟩
  | @snoc labels middle final label past last numbered =>
      have hosted : middle.executor.hosting = hosting := hosting_of_trace past
      have longer := (ticketsOf hosting labels).issued_follow hosting label
      rw [ticketsOf_concat]
      have kept :
          Numbered (fun _ ticket => ticket < ((ticketsOf hosting labels).follow hosting label).issued)
            middle (ticketsOf hosting labels) :=
        numbered.imp fun _ _ below => Nat.lt_of_lt_of_le below longer
      have stepped := kept.step last (by rintro rfl; exact Nat.lt_succ_self _)
      rw [hosted] at stepped
      exact stepped

end Scheduler

end ResumableUpload
