import ResumableUpload.Proofs.Scheduler.Moves
import ResumableUpload.Proofs.Session.Drain

/-!
# In the middle of a drain

A session that is drained transfers one upload after another, in turns.  `Midway` holds of a queue and
an endpoint that it comes to on the way, with the engine that is at work there, if one is.  Nothing in
it asks when the things in between happen or who does them, so it serves to compare a drain with
uploads that are transferred in another way: whoever begins a turn as the queue then says
(`Midway.launch`), does what an engine does next (`Midway.advance`), and stops once nothing may run any more,
has come to where the drain ends (`Midway.drained_eq`).
-/

namespace ResumableUpload.Session

/--
The drain of a session comes to such a queue and endpoint, between two turns or with an engine at work,
and still leads to where it leads from its start.
-/
inductive Midway (tuning : Tuning) (target : String → Option Bytes) (drained : Session) :
    Option Engine → Queue → Endpoint → Prop where
  | between {session : Session} {turns : Nat}
      (loaded : Loaded target session)
      (tuned : session.executor.tuning = tuning)
      (enough : session.queue.runnables ≤ turns)
      (leads : session.drainFor turns = drained) :
      Midway tuning target drained none session.queue session.endpoint
  | within {before session : Session} {entry : Entry} {file : FileHandle} {bytes : Bytes}
      {engine : Engine} {fuel turns : Nat}
      (loaded : Loaded target before)
      (tuned : before.executor.tuning = tuning)
      (enough : before.queue.runnables ≤ turns + 1)
      (wanted : target entry.path = some bytes)
      (turn :
        Turn { before with executor := before.executor.launch entry file } entry.path bytes session
          engine)
      (going : engine.hasEnded = false)
      (patient : Transfer.remaining engine session.endpoint ≤ fuel)
      (leads :
        let (final, rested) := session.runEngine engine fuel
        (final.freeSlot before.executor.runs.length rested).drainFor turns = drained) :
      Midway tuning target drained (some engine) session.queue session.endpoint

namespace Midway

variable {tuning : Tuning} {target : String → Option Bytes} {session drained : Session}
variable {slot : Option Engine} {queue : Queue} {endpoint after : Endpoint}
variable {engine next : Engine} {act : Engine.Act}

/-- A drain begins between two turns. -/
theorem start (loaded : Loaded target session) :
    Midway session.executor.tuning target session.drain none session.queue session.endpoint :=
  .between loaded rfl List.countP_le_length rfl

theorem tidy (midway : Midway tuning target drained slot queue endpoint) : queue.Tidy := by
  cases midway with
  | between loaded => exact loaded.tidy
  | within _ _ _ _ turn => exact turn.tidy

theorem ready (midway : Midway tuning target drained slot queue endpoint) : queue.Ready := by
  cases midway with
  | between loaded => exact loaded.ready
  | within _ _ _ _ turn => exact turn.ready

/-- The path of the engine at work is queued, and may still run. -/
theorem queued (midway : Midway tuning target drained (some engine) queue endpoint) :
    ∃ entry,
      queue.find? engine.path = some entry ∧ entry.runnable = true ∧ entry.size = engine.size := by
  cases midway with
  | within _ _ _ _ turn going =>
      obtain ⟨_, entry, found, runnable, size⟩ := turn.going going
      exact ⟨entry, turn.path_eq ▸ found, runnable, size.trans turn.driven.faithful.size_eq.symm⟩

theorem ordered (midway : Midway tuning target drained (some engine) queue endpoint) :
    engine.Ordered := by
  cases midway with
  | within _ _ _ _ turn => exact turn.driven.faithful.ordered

/-- The engine at work has something to do, and the endpoint serves it. -/
theorem exists_act (midway : Midway tuning target drained (some engine) queue endpoint) :
    ∃ act after next,
      Transfer.serve? engine endpoint = some (act, after) ∧ Engine.Step engine act next := by
  cases midway with
  | within _ _ _ _ turn going =>
      obtain ⟨act, after, next, served, step, _⟩ := advance_eq turn.online turn.begun going
      exact ⟨act, after, next, served, step⟩

/-- The first entry that may run is given the slot. -/
theorem launch
    {entry : Entry}
    {file : FileHandle}
    (midway : Midway tuning target drained none queue endpoint)
    (first : queue.snapshot.next? = some (entry, file)) :
    Midway tuning target drained
      (some (Engine.new tuning entry.path file entry.uploaded).start) queue endpoint := by
  cases midway with
  | @between session turns loaded tuned enough leads =>
      obtain ⟨member, eligible, _⟩ := Snapshot.next?_eq_some first
      rw [(loaded.ready entry member).isEligible_eq] at eligible
      have some_ : 0 < session.queue.runnables := List.countP_pos_iff.mpr ⟨entry, member, eligible⟩
      cases turns with
      | zero => omega
      | succ turns =>
          rcases loaded.drainFor_succ turns with ⟨_, empty⟩ | ⟨_, _, _, _, _, taken, goes⟩
          · omega
          · cases first.symm.trans taken.first
            have begun := loaded.turn taken.found taken.runnable taken.held taken.holds taken.partway
            have turned := goes.symm.trans leads
            rw [← tuned]
            exact @within _ _ _ session { session with executor := session.executor.launch entry file }
              _ _ _ _ _ _ loaded rfl enough taken.wanted begun rfl
              (remaining_le_patience _ _ _ _ _) (by rw [taken.ran]; exact turned)

theorem runEngine_of_ended
    (ended : engine.hasEnded = true)
    (fuel : Nat) :
    session.runEngine engine fuel = (session, engine) := by
  cases fuel with
  | zero => rfl
  | succ fuel => rw [runEngine, if_pos ended]

/--
Whatever the engine at work does next leaves it less to do; with its last report the turn is over, and
the queue has fewer entries that may run.
-/
theorem advance
    (midway : Midway tuning target drained (some engine) queue endpoint)
    (served : Transfer.serve? engine endpoint = some (act, after))
    (step : Engine.Step engine act next) :
    Midway tuning target drained (if next.hasEnded then none else some next)
        (Scheduler.hear queue act.report?) after ∧
      Transfer.remaining next after < Transfer.remaining engine endpoint ∧
      (Scheduler.hear queue act.report?).runnables + next.hasEnded.toNat ≤ queue.runnables := by
  cases midway with
  | @within before session entry file bytes _ fuel turns
      loaded tuned enough wanted turn going patient leads =>
      obtain ⟨_, _, also, known, stepped, advanced⟩ := advance_eq turn.online turn.begun going
      cases served.symm.trans known
      obtain rfl := step.next_eq stepped
      have kept := turn.advance loaded.inline going
      rw [advanced] at kept
      obtain ⟨turned, fewer⟩ := kept
      cases fuel with
      | zero => omega
      | succ fuel =>
          simp only [runEngine, going, Bool.false_eq_true, ↓reduceIte, advanced] at leads
          have heard :
              (hear { session with endpoint := after } act.report?).queue =
                  Scheduler.hear session.queue act.report? ∧
                (hear { session with endpoint := after } act.report?).endpoint = after := by
            cases act.report? <;> exact ⟨rfl, rfl⟩
          generalize hear { session with endpoint := after } act.report? = later
            at heard turned fewer leads
          rw [← heard.1, ← heard.2]
          have same := (turn.going going).1
          cases ended : next.hasEnded with
          | false =>
              have less := Nat.le_of_lt_succ (Nat.lt_of_lt_of_le fewer patient)
              exact ⟨.within loaded tuned enough wanted turned ended less leads, fewer,
                Nat.le_of_eq ((turned.going ended).1.trans same.symm)⟩
          | true =>
              simp only [runEngine_of_ended ended] at leads
              obtain ⟨freed, left⟩ := turned.loaded ended loaded wanted
              have kept : (later.freeSlot before.executor.runs.length next).executor.tuning =
                  before.executor.tuning := by
                obtain ⟨_, same⟩ := freeSlot_eq turned.executor next
                rw [same]
              have less := Nat.le_of_lt_succ (Nat.lt_of_lt_of_le left enough)
              exact ⟨@between _ _ _ (later.freeSlot _ next) _ freed (kept.trans tuned) less leads,
                fewer, same ▸ (turned.ended ended).1⟩

/-- Once nothing may run any more, the drain is over. -/
theorem drained_eq
    (midway : Midway tuning target drained none queue endpoint)
    (rested : queue.runnables = 0) :
    drained.queue = queue ∧ drained.endpoint = endpoint := by
  cases midway with
  | @between session turns loaded _ _ leads =>
      cases turns with
      | zero => exact leads ▸ ⟨rfl, rfl⟩
      | succ turns =>
          rcases loaded.drainFor_succ turns with ⟨same, _⟩ | ⟨_, _, _, _, _, taken, _⟩
          · exact (same.symm.trans leads) ▸ ⟨rfl, rfl⟩
          · have member := Queue.mem_of_find? taken.found
            exact absurd taken.runnable (List.countP_eq_zero.mp rested _ member)

end Midway

end ResumableUpload.Session
