import ResumableUpload.Proofs.Engine.Reports
import ResumableUpload.Proofs.Executor.Moves
import ResumableUpload.Proofs.Queue.Runnable
import ResumableUpload.Proofs.Transfer.Termination
import ResumableUpload.Session.Drain

/-!
# The turn of one upload

When a session runs an engine, every thing that the engine does is one of its steps, served by the
endpoint of the session, and every report is applied to the queue at once.  `Turn` is what holds
while the engine of one path is run: nothing changes for other paths, and once the engine has ended,
its path is `Concluded`.  An engine is given enough to do to come to its end.
-/

namespace ResumableUpload

/-! ## The last report of an engine -/

namespace Engine

variable {engine : Engine} {report : Report}

/-- An engine either goes on after a report, or has sent all of its file, or gives a message. -/
theorem Ordered.report_cases
    (ordered : engine.Ordered)
    (made : engine.report? = some report) :
    (report.runnable = true ∧ engine.afterReport.hasEnded = false ∧
        report.uploaded < engine.size) ∨
      (report.runnable = false ∧ engine.afterReport.hasEnded = true ∧
        (engine.size ≤ report.uploaded ∨ report.message ≠ "")) := by
  unfold report? at made
  unfold afterReport
  unfold Ordered at ordered
  split at made
  case h_1 phase =>
      cases made
      simp only [phase] at ordered
      exact .inl ⟨rfl, rfl, ordered⟩
  case h_2 phase =>
      cases made
      simp only [phase] at ordered
      exact .inl ⟨rfl, rfl, ordered⟩
  case h_3 outcome phase =>
      cases made
      refine .inr ⟨rfl, rfl, ?_⟩
      by_cases finished : outcome = .finished
      · subst finished
        simp only [phase] at ordered
        exact .inl (Nat.le_of_eq ordered.symm)
      · exact .inr (Outcome.message_ne_empty finished)
  case h_4 => cases made

end Engine

namespace Session

variable {before session : Session} {engine : Engine} {path : String} {bytes : Bytes}

/-! ## One thing that an engine does -/

/-- What an engine does next is a step of it that the endpoint serves. -/
theorem advance_eq
    (online : session.cutOff = none)
    (begun : engine.phase ≠ .idle)
    (going : engine.hasEnded = false) :
    ∃ act endpoint next,
      Transfer.serve? engine session.endpoint = some (act, endpoint) ∧
        Engine.Step engine act next ∧
        session.advance engine =
          ({ session with endpoint := endpoint }, next, act.report?) := by
  cases phase : engine.phase with
  | idle => exact absurd phase begun
  | ended outcome =>
      simp only [Engine.hasEnded, Engine.outcome?, phase, Option.isSome_some] at going
      cases going
  | creating attempt =>
      simp only [advance, Transfer.serve?, phase, callCreate, call, online]
      exact ⟨_, _, _, rfl, .create phase _, rfl⟩
  | pausingCreate attempt =>
      simp only [advance, Transfer.serve?, phase]
      exact ⟨_, _, _, rfl, .retryCreate phase, rfl⟩
  | checking =>
      simp only [advance, Transfer.serve?, phase]
      exact ⟨_, _, _, rfl, .check phase, rfl⟩
  | reading =>
      simp only [advance, Transfer.serve?, phase]
      exact ⟨_, _, _, rfl, .read phase _, rfl⟩
  | sending content =>
      simp only [advance, Transfer.serve?, phase, sendChunk, online, answerChunk]
      exact ⟨_, _, _, rfl, .chunk phase _, rfl⟩
  | accepted =>
      have made : engine.report? = some ⟨engine.path, engine.offset, true, ""⟩ := by
        simp only [Engine.report?, phase]
      simp only [advance, Transfer.serve?, phase, made]
      exact ⟨_, _, _, rfl, .report made, rfl⟩
  | refused reason =>
      have made : engine.report? = some ⟨engine.path, engine.offset, true, reason⟩ := by
        simp only [Engine.report?, phase]
      simp only [advance, Transfer.serve?, phase, made]
      exact ⟨_, _, _, rfl, .report made, rfl⟩
  | concluding outcome =>
      have made :
          engine.report? = some ⟨engine.path, engine.offset, false, outcome.message⟩ := by
        simp only [Engine.report?, phase]
      simp only [advance, Transfer.serve?, phase, made]
      exact ⟨_, _, _, rfl, .report made, rfl⟩
  | backingOff =>
      simp only [advance, Transfer.serve?, phase]
      exact ⟨_, _, _, rfl, .backOff phase, rfl⟩
  | resyncing =>
      simp only [advance, Transfer.serve?, phase, callStatus, call, online]
      exact ⟨_, _, _, rfl, .status phase _, rfl⟩

/-! ## The turn of a path -/

/-- An upload has come to its end: it is completed and has left the queue, or has failed. -/
inductive Concluded (session : Session) (path : String) (bytes : Bytes) : Prop where
  | arrived
      (gone : session.queue.find? path = none)
      (completed : session.endpoint.completed? path = some bytes)
  | failed {entry : Entry}
      (found : session.queue.find? path = some entry)
      (paused : entry.runnable = false)
      (told : entry.message ≠ "")

/-- What holds while the engine of a path is run, where `before` is the session at its start. -/
structure Turn (before : Session) (path : String) (bytes : Bytes) (session : Session)
    (engine : Engine) : Prop where
  online : session.cutOff = none
  begun : engine.phase ≠ .idle
  path_eq : engine.path = path
  driven : Transfer.Driven bytes engine session.endpoint
  /-- The executor has only counted reports, and every one of them was applied. -/
  executor :
    session.executor = { before.executor with emitted := session.queue.reportsSeen }
  tidy : session.queue.Tidy
  ready : session.queue.Ready
  others : session.queue.others path = before.queue.others path
  stored : ∀ {other : String}, other ≠ path →
    Endpoint.AgreesOn other before.endpoint session.endpoint
  going : engine.hasEnded = false →
    session.queue.runnables = before.queue.runnables ∧
      ∃ entry, session.queue.find? path = some entry ∧ entry.runnable = true ∧
        entry.size = bytes.length
  ended : engine.hasEnded = true →
    session.queue.runnables < before.queue.runnables ∧ session.Concluded path bytes

namespace Turn

theorem queued
    {other : String}
    (turn : Turn before path bytes session engine)
    (differs : other ≠ path) :
    session.queue.find? other = before.queue.find? other :=
  Queue.find?_of_others turn.others differs

/-- A report is counted and applied; after the last one the path has come to its end. -/
theorem report
    {report : Report}
    (turn : Turn before path bytes session engine)
    (inline : before.executor.hosting = .inline)
    (going : engine.hasEnded = false)
    (made : engine.report? = some report)
    (driven : Transfer.Driven bytes engine.afterReport session.endpoint) :
    Turn before path bytes (session.hear (some report)) engine.afterReport := by
  obtain ⟨same, entry, found, runnable, size⟩ := turn.going going
  have sent : report.path = path := (Engine.report?_eq_some made).1.trans turn.path_eq
  have whole : entry.size = engine.size := size.trans turn.driven.faithful.size_eq.symm
  have applied := turn.tidy.find?_reconcile report
  have here :
      (session.queue.reconcile report).find? path =
        if entry.size ≤ report.uploaded then none else some (entry.apply report) := by
    rw [applied, if_pos sent.symm, found, Option.bind_some]
  have step : Engine.Step engine (.report report) engine.afterReport := .report made
  rw [← sent] at found
  refine ⟨turn.online, step.begun, step.path_eq.trans turn.path_eq, driven, ?_,
    turn.tidy.reconcile report, turn.ready.reconcile turn.tidy report, ?_, turn.stored, ?_, ?_⟩
  · simp only [hear, Executor.emit, Queue.reportsSeen_reconcile, turn.executor, inline]
  · exact (sent ▸ Queue.others_reconcile session.queue report).trans turn.others
  · intro continues
    rcases turn.driven.faithful.ordered.report_cases made with
      ⟨lasting, _, lacking⟩ | ⟨_, ended, _⟩
    · rw [← whole] at lacking
      refine ⟨(Queue.runnables_of_lasting found lacking lasting).trans same,
        entry.apply report, here.trans (if_neg (Nat.not_le_of_lt lacking)), ?_, size⟩
      simp only [Entry.apply, runnable, lasting, Bool.and_true]
    · rw [continues] at ended
      cases ended
  · intro ends
    rcases turn.driven.faithful.ordered.report_cases made with
      ⟨_, continues, _⟩ | ⟨last, _, complete⟩
    · rw [continues] at ends
      cases ends
    · refine ⟨same ▸ Queue.runnables_of_last found runnable last, ?_⟩
      by_cases reached : entry.size ≤ report.uploaded
      · refine .arrived (here.trans (if_pos reached)) ?_
        rw [(Engine.report?_eq_some made).2, size] at reached
        exact turn.path_eq ▸ turn.driven.faithful.whole reached
      · refine .failed (here.trans (if_neg reached)) ?_ ?_
        · simp only [Entry.apply, last, Bool.and_false]
        · exact complete.resolve_left (whole ▸ reached)

/-- What an engine does beside reporting is between it and the endpoint. -/
theorem quiet
    {act : Engine.Act}
    {endpoint : Endpoint}
    {next : Engine}
    (turn : Turn before path bytes session engine)
    (going : engine.hasEnded = false)
    (served : Transfer.serve? engine session.endpoint = some (act, endpoint))
    (step : Engine.Step engine act next)
    (silent : act.report? = none) :
    Turn before path bytes { session with endpoint := endpoint } next := by
  have agrees : ∀ {other : String}, other ≠ path →
      Endpoint.AgreesOn other session.endpoint endpoint := by
    intro other differs
    apply (Transfer.served_of_serve? served).agreesOn
    rw [turn.path_eq]
    exact differs
  have continues : next.hasEnded = false := by
    rw [Bool.eq_false_iff]
    intro ended
    obtain ⟨report, rfl, _⟩ := step.ends ended
    cases silent
  refine ⟨turn.online, step.begun, step.path_eq.trans turn.path_eq,
    turn.driven.step step served, turn.executor, turn.tidy, turn.ready, turn.others, ?_, ?_, ?_⟩
  · intro other differs
    exact (turn.stored differs).trans (agrees differs)
  · exact fun _ => turn.going going
  · intro ended
    rw [continues] at ended
    cases ended

/-- Whatever the engine does next keeps its turn, and leaves it less to do. -/
theorem advance
    (turn : Turn before path bytes session engine)
    (inline : before.executor.hosting = .inline)
    (going : engine.hasEnded = false) :
    let (advanced, next, report) := session.advance engine
    Turn before path bytes (advanced.hear report) next ∧
      Transfer.remaining next (advanced.hear report).endpoint <
        Transfer.remaining engine session.endpoint := by
  obtain ⟨act, endpoint, next, served, step, advanced⟩ :=
    advance_eq turn.online turn.begun going
  have fewer := turn.driven.remaining_lt step served
  have driven := turn.driven.step step served
  rw [advanced]
  cases reported : act.report? with
  | none => exact ⟨turn.quiet going served step reported, fewer⟩
  | some report =>
      cases act with
      | report made =>
          cases reported
          obtain ⟨made, rfl⟩ := step.report_made
          obtain rfl := Transfer.endpoint_of_report served
          exact ⟨turn.report inline going made driven, fewer⟩
      | create | read | chunk | status | check | wait => cases reported

/-- An engine that is given enough to do comes to its end. -/
theorem runEngine
    {fuel : Nat}
    (turn : Turn before path bytes session engine)
    (inline : before.executor.hosting = .inline)
    (enough : Transfer.remaining engine session.endpoint ≤ fuel) :
    ∃ final rested,
      session.runEngine engine fuel = (final, rested) ∧
        Turn before path bytes final rested ∧ rested.hasEnded = true := by
  -- Without fuel the engine has ended, as whatever it did next would leave it less than nothing.
  induction fuel generalizing session engine with
  | zero =>
      cases going : engine.hasEnded with
      | true => exact ⟨session, engine, rfl, turn, going⟩
      | false =>
          obtain ⟨_, fewer⟩ := turn.advance inline going
          omega
  | succ fuel ends =>
      unfold Session.runEngine
      cases going : engine.hasEnded with
      | true => exact ⟨session, engine, rfl, turn, going⟩
      | false =>
          obtain ⟨kept, fewer⟩ := turn.advance inline going
          exact ends kept (by omega)

end Turn

end Session

end ResumableUpload
