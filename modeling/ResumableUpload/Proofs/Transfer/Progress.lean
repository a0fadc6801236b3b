import ResumableUpload.Proofs.Endpoint.Held
import ResumableUpload.Proofs.Engine.Chunks
import ResumableUpload.Proofs.Transfer.Integrity

/-!
# Progress that is reported has been made

What an engine reports as uploaded the endpoint holds at that moment, and no report takes back what an
earlier one told, however many calls and answers the network loses and whenever the engine is told to
stop.  `Backed` is what holds between any two moves: the offset is held by the endpoint, and as long as
the upload is yet to be opened it is stored of one that is begun, since opening gives up one that was
completed.
-/

namespace ResumableUpload.Transfer

open ResumableUpload.Endpoint

variable {engine next : Engine} {endpoint after : Endpoint} {act : Engine.Act}

/-- The report that a move makes. -/
def Move.report? (move : Move) : Option Report :=
  move.act?.bind Engine.Act.report?

/-! ## What serving an engine does to what is held -/

/-- Until an upload is opened, serving the engine keeps what is stored of one that is begun. -/
theorem Served.stored_eq
    (served : Served engine endpoint act after)
    (step : Engine.Step engine act next)
    (unscripted : endpoint.Unscripted)
    (single : endpoint.Single engine.path)
    (opening : engine.Opening) :
    after.Single engine.path ∧ after.stored engine.path = endpoint.stored engine.path := by
  cases step with
  | create phase answer =>
      cases served with
      | create delivery =>
          rcases delivery.endpoint_cases with rfl | rfl
          · exact create_stored unscripted single engine.size
          · exact ⟨single, rfl⟩
  | retryCreate =>
      cases served
      exact ⟨single, rfl⟩
  | check phase | read phase | chunk phase | backOff phase | status phase =>
      simp only [Engine.Opening, phase] at opening
  | report made =>
      cases served
      exact ⟨single, rfl⟩

/-- Once an upload is opened, serving the engine takes away nothing. -/
theorem Served.held_le
    (served : Served engine endpoint act after)
    (step : Engine.Step engine act next)
    (unscripted : endpoint.Unscripted)
    (single : endpoint.Single engine.path)
    (further : ¬ engine.Opening) :
    after.Single engine.path ∧ endpoint.held engine.path ≤ after.held engine.path := by
  cases step with
  | create phase =>
      refine absurd ?_ further
      simp only [Engine.Opening, phase]
  | @chunk content =>
      cases served with
      | chunk delivery =>
          rcases delivery.endpoint_cases with rfl | rfl
          · obtain ⟨still, grown, _⟩ := chunk_held unscripted single content engine.offset
            exact ⟨still, grown⟩
          · exact ⟨single, Nat.le_refl _⟩
  | status =>
      cases served with
      | status delivery =>
          rcases delivery.endpoint_cases with rfl | rfl
          · have agrees := status_agreesOn endpoint engine.path engine.path
            exact ⟨agrees.single single, Nat.le_of_eq agrees.held_eq.symm⟩
          · exact ⟨single, Nat.le_refl _⟩
  | retryCreate | check | read | report | backOff =>
      cases served <;> exact ⟨single, Nat.le_refl _⟩

/-- An answer only brings an offset if it is the endpoint's own. -/
theorem success_of_confirmed
    {policy : Policy}
    {answer : Answer StatusReply}
    {uploaded : Nat}
    (confirmed :
      (match policy.classify answer with
        | .success reply => some reply.uploaded
        | .fatal _ | .retryable _ => none) = some uploaded) :
    ∃ status reply, answer = .ok ⟨status, some reply⟩ ∧ reply.uploaded = uploaded := by
  split at confirmed
  case h_1 reply judged =>
      cases confirmed
      obtain ⟨status, given⟩ := Policy.classify_eq_success judged
      exact ⟨status, reply, given, rfl⟩
  case h_2 | h_3 => cases confirmed

/-- What is confirmed to an engine is what the endpoint holds then. -/
theorem Served.confirmed_eq
    {policy : Policy}
    {uploaded : Nat}
    (served : Served engine endpoint act after)
    (unscripted : endpoint.Unscripted)
    (single : endpoint.Single engine.path)
    (confirmed : act.confirmed? policy = some uploaded) :
    uploaded = after.held engine.path := by
  cases served with
  | chunk delivery =>
      obtain ⟨status, reply, given, rfl⟩ := success_of_confirmed confirmed
      obtain ⟨rfl, same⟩ := delivery.served_of_success given
      exact (chunk_held unscripted single _ _).2.2 (same.symm.trans given)
  | status delivery =>
      obtain ⟨status, reply, given, rfl⟩ := success_of_confirmed confirmed
      obtain ⟨rfl, same⟩ := delivery.served_of_success given
      rw [(status_agreesOn endpoint engine.path engine.path).held_eq]
      exact status_held unscripted (same.symm.trans given)
  | create | read | unread | report | check | wait => cases confirmed

/-! ## The offset and what is held -/

/-- An engine that has yet to open its upload is confirmed nothing. -/
theorem offset_eq_of_opening
    (step : Engine.Step engine act next)
    (opening : engine.Opening) :
    next.offset = engine.offset := by
  have stands := step.offset_eq
  cases step with
  | create | retryCreate => exact stands
  | report => exact stands
  | check phase | read phase | chunk phase | backOff phase | status phase =>
      simp only [Engine.Opening, phase] at opening

/-- What holds of an engine and of the endpoint that backs the offset of it. -/
structure Backed (engine : Engine) (endpoint : Endpoint) : Prop where
  unscripted : endpoint.Unscripted
  single : endpoint.Single engine.path
  within : engine.offset ≤ engine.size
  opening : engine.Opening → engine.offset ≤ endpoint.stored engine.path
  held : engine.offset ≤ endpoint.held engine.path

namespace Backed

theorem start
    {tuning : Tuning}
    {path : String}
    {file : FileHandle}
    {uploaded : Nat}
    (unscripted : endpoint.Unscripted)
    (single : endpoint.Single path)
    (behind : uploaded ≤ endpoint.stored path) :
    Backed (Engine.new tuning path file uploaded).start endpoint := by
  have stored : min uploaded file.size ≤ endpoint.stored path :=
    Nat.le_trans (Nat.min_le_left _ _) behind
  exact
    { unscripted := unscripted
      single := single
      within := Nat.min_le_right _ _
      opening := fun _ => stored
      held := Nat.le_trans stored (stored_le_held endpoint path) }

theorem requestStop (backed : Backed engine endpoint) :
    Backed engine.requestStop endpoint where
  unscripted := backed.unscripted
  single := backed.single
  within := backed.within
  opening := backed.opening
  held := backed.held

theorem elsewhere
    (backed : Backed engine endpoint)
    (elsewhere : endpoint.Elsewhere engine.path after) :
    Backed engine after := by
  have agrees := elsewhere.agreesOn
  exact
    { unscripted := elsewhere.unscripted backed.unscripted
      single := agrees.single backed.single
      within := backed.within
      opening := fun opening => agrees.stored_eq ▸ backed.opening opening
      held := agrees.held_eq ▸ backed.held }

/-- What is left to show of a step, once it is known to be one of the engine. -/
theorem of_step
    (step : Engine.Step engine act next)
    (unscripted : after.Unscripted)
    (single : after.Single engine.path)
    (within : next.offset ≤ engine.size)
    (opening : next.Opening → next.offset ≤ after.stored engine.path)
    (held : next.offset ≤ after.held engine.path) :
    Backed next after where
  unscripted := unscripted
  single := step.path_eq ▸ single
  within := step.size_eq ▸ within
  opening := step.path_eq ▸ opening
  held := step.path_eq ▸ held

/-- Every step of an engine that is served keeps the offset backed, and never lowers it. -/
theorem step
    (backed : Backed engine endpoint)
    (step : Engine.Step engine act next)
    (served : Served engine endpoint act after) :
    Backed next after ∧ engine.offset ≤ next.offset := by
  have unscripted := served.unscripted backed.unscripted
  by_cases opening : engine.Opening
  · obtain ⟨single, same⟩ := served.stored_eq step backed.unscripted backed.single opening
    have stands := offset_eq_of_opening step opening
    have stored : next.offset ≤ after.stored engine.path := by
      rw [stands, same]
      exact backed.opening opening
    constructor
    · apply of_step step unscripted single
      · rw [stands]
        exact backed.within
      · exact fun _ => stored
      · exact Nat.le_trans stored (stored_le_held after engine.path)
    · exact Nat.le_of_eq stands.symm
  · obtain ⟨single, grows⟩ := served.held_le step backed.unscripted backed.single opening
    have told := step.offset_eq
    have within := backed.within
    have held := backed.held
    -- The offset stays, or goes to what the endpoint holds now, which is no less than before.
    have moves :
        engine.offset ≤ next.offset ∧ next.offset ≤ engine.size ∧
          next.offset ≤ after.held engine.path := by
      cases confirmed : act.confirmed? engine.tuning.policy with
      | none =>
          have stands : next.offset = engine.offset := by
            rw [told, confirmed]
          omega
      | some uploaded =>
          have same := served.confirmed_eq backed.unscripted backed.single confirmed
          have adopted : next.offset = min uploaded engine.size := by
            rw [told, confirmed]
          omega
    constructor
    · apply of_step step unscripted single moves.2.1
      · intro still
        exact absurd (step.opening still).1 opening
      · exact moves.2.2
    · exact moves.1

end Backed

/-! ## The reports of a run -/

/-- The offset is backed, and no report that was made is beyond it or below an earlier one. -/
structure Progressing (moves : List Move) (transfer : Transfer) : Prop where
  backed : Backed transfer.engine transfer.endpoint
  reached :
    ∀ report ∈ moves.filterMap Move.report?, report.uploaded ≤ transfer.engine.offset
  ascending :
    (moves.filterMap Move.report?).Pairwise fun earlier later => earlier.uploaded ≤ later.uploaded

namespace Progressing

variable {transfer following : Transfer} {moves : List Move}

/-- A move without a report. -/
theorem silent
    {move : Move}
    (progressing : Progressing moves transfer)
    (silent : move.report? = none)
    (backed : Backed following.engine following.endpoint)
    (ahead : transfer.engine.offset ≤ following.engine.offset) :
    Progressing (moves ++ [move]) following := by
  have same : (moves ++ [move]).filterMap Move.report? = moves.filterMap Move.report? := by
    rw [filterMap_concat, silent, Option.toList_none, List.append_nil]
  constructor
  · exact backed
  · intro report member
    rw [same] at member
    exact Nat.le_trans (progressing.reached report member) ahead
  · rw [same]
    exact progressing.ascending

/-- A report tells the offset, which is at least what was reported before. -/
theorem reported
    {report : Report}
    (progressing : Progressing moves transfer)
    (tells : report.uploaded = transfer.engine.offset)
    (backed : Backed following.engine following.endpoint)
    (ahead : transfer.engine.offset ≤ following.engine.offset) :
    Progressing (moves ++ [.act (.report report)]) following := by
  have made :
      (moves ++ [Move.act (.report report)]).filterMap Move.report? =
        moves.filterMap Move.report? ++ [report] :=
    filterMap_concat Move.report? moves _
  constructor
  · exact backed
  · rw [made, List.forall_mem_append, List.forall_mem_singleton, tells]
    refine ⟨?_, ahead⟩
    intro earlier past
    exact Nat.le_trans (progressing.reached earlier past) ahead
  · rw [made, List.pairwise_append]
    refine ⟨progressing.ascending, List.pairwise_singleton _ _, ?_⟩
    intro earlier past later now
    rw [List.mem_singleton.mp now, tells]
    exact progressing.reached earlier past

theorem step
    {move : Move}
    (progressing : Progressing moves transfer)
    (moved : Step transfer move following) :
    Progressing (moves ++ [move]) following := by
  cases moved with
  | @act act _ _ step served =>
      obtain ⟨backed, ahead⟩ := progressing.backed.step step served
      cases act with
      | report report =>
          have tells := (Engine.report?_eq_some step.report_made.1).2
          exact progressing.reported tells backed ahead
      | create | read | chunk | status | check | wait =>
          exact progressing.silent rfl backed ahead
  | stop => exact progressing.silent rfl progressing.backed.requestStop (Nat.le_refl _)
  | elsewhere elsewhere =>
      exact progressing.silent rfl (progressing.backed.elsewhere elsewhere) (Nat.le_refl _)

end Progressing

theorem path_of_trace
    {transfer final : Transfer}
    {moves : List Move}
    (run : Trace Step transfer moves final) :
    final.engine.path = transfer.engine.path := by
  induction run with
  | refl => rfl
  | snoc _ last same =>
      cases last with
      | act step => exact step.path_eq.trans same
      | stop | elsewhere => exact same

theorem progressing_of_trace
    {transfer final : Transfer}
    {moves : List Move}
    (backed : Backed transfer.engine transfer.endpoint)
    (run : Trace Step transfer moves final) :
    Progressing moves final := by
  induction run with
  | refl =>
      constructor
      · exact backed
      · intro report member
        cases member
      · exact List.Pairwise.nil
  | snoc _ last progressing => exact progressing.step last

/--
Let an engine begin with no more than what the endpoint has stored of its upload.  Whatever the
network loses, whenever the engine is told to stop and whatever other clients do to other paths, what
its reports give as uploaded never decreases, and the endpoint holds as much when the report is made.
-/
theorem reported_progress_is_held
    {tuning : Tuning}
    {path : String}
    {file : FileHandle}
    {uploaded : Nat}
    {endpoint : Endpoint}
    {moves : List Move}
    {final : Transfer}
    (unscripted : endpoint.Unscripted)
    (single : endpoint.Single path)
    (behind : uploaded ≤ endpoint.stored path)
    (run : Trace Step ⟨(Engine.new tuning path file uploaded).start, endpoint⟩ moves final) :
    ((moves.filterMap Move.report?).Pairwise fun earlier later =>
      earlier.uploaded ≤ later.uploaded) ∧
    ∀ {report : Report} {following : Transfer},
      Step final (.act (.report report)) following →
        report.path = path ∧ report.uploaded ≤ final.endpoint.held path ∧
          ∀ earlier ∈ moves.filterMap Move.report?, earlier.uploaded ≤ report.uploaded := by
  have progressing := progressing_of_trace (.start unscripted single behind) run
  have same : final.engine.path = path := path_of_trace run
  constructor
  · exact progressing.ascending
  · intro report following moved
    cases moved with
    | act step =>
        obtain ⟨named, tells⟩ := Engine.report?_eq_some step.report_made.1
        have held := progressing.backed.held
        rw [same, ← tells] at held
        refine ⟨named.trans same, held, ?_⟩
        rw [tells]
        exact progressing.reached

/-- The answer to the only chunk is lost, and the endpoint tells afterwards that it holds the file. -/
theorem lost_answer_is_reported_late :
    let file : FileHandle := ⟨0, .ofBytes [7, 8, 9]⟩
    let endpoint : Endpoint := { pending := [⟨"a", 3, [7]⟩] }
    let engine := (Engine.new (Config.tuning { chunkLength := 2 }) "a" file 1).start
    let last : Report := ⟨"a", 3, false, ""⟩
    ∃ moves final following,
      endpoint.Unscripted ∧ endpoint.Single "a" ∧ 1 ≤ endpoint.stored "a" ∧
        Trace Step ⟨engine, endpoint⟩ moves final ∧
        Step final (.act (.report last)) following ∧
        final.endpoint.held "a" = 3 ∧ last.uploaded ≤ final.endpoint.held "a" := by
  intro file endpoint engine last
  have arrived :
      ([false, false, false, true, false, false, false, false].foldlM advance?
        ⟨engine, endpoint⟩).map (fun final => (final.engine.report?, final.endpoint.held "a")) =
          some (some last, 3) := by
    decide
  obtain ⟨final, advanced, facts⟩ := Option.map_eq_some_iff.mp arrived
  obtain ⟨made, held⟩ := Prod.mk.inj facts
  obtain ⟨moves, run⟩ :=
    (Trace.of_foldlM (fun before _ after => ∃ move, Step before move after)
      step_of_advance? advanced).relabel id
  have unscripted : endpoint.Unscripted := ⟨rfl, rfl, rfl⟩
  have single : endpoint.Single "a" := by
    unfold Endpoint.Single
    decide
  have behind : 1 ≤ endpoint.stored "a" := by decide
  have reports : Step final (.act (.report last)) ⟨final.engine.afterReport, final.endpoint⟩ :=
    .act (.report made) (.report last)
  have told := (reported_progress_is_held unscripted single behind run).2 reports
  exact ⟨moves, final, _, unscripted, single, behind, run, reports, held, told.2.1⟩

end ResumableUpload.Transfer
