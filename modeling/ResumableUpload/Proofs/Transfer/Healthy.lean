import ResumableUpload.Proofs.Engine.Reports
import ResumableUpload.Proofs.Transfer.Progress
import ResumableUpload.Proofs.Transfer.Recovery

/-!
# A transfer that meets with no trouble

An engine that starts within the bytes that the endpoint has stored is `Behind` it until the first
chunk is answered, and `Level` with it from then on.  In both states every chunk call takes the offset
further, even one whose bytes are all stored already, and nothing makes the engine back off: `Gains`
says so of one act.  `Climbs` adds up what the acts of a run have gained.
-/

namespace ResumableUpload

/-- Whether an act is a chunk call. -/
def Engine.Act.isChunk : Engine.Act → Bool
  | .chunk .. => true
  | .create _ | .read _ | .status _ | .report _ | .check | .wait => false

namespace Transfer

open ResumableUpload.Endpoint

variable {engine next : Engine} {endpoint after : Endpoint} {act : Engine.Act} {bytes : Bytes}
variable {path : String} {uploaded : Nat}

/-- The engine stands within what is stored, and none of its chunks was answered yet. -/
def Behind (engine : Engine) (endpoint : Endpoint) : Prop :=
  engine.offset < engine.size ∧
    match engine.phase with
    | .creating _ => engine.offset ≤ endpoint.stored engine.path
    | .checking | .reading | .sending _ =>
      ∃ stored, endpoint.pendingLength? engine.path = some stored ∧ engine.offset ≤ stored
    | _ => False

/--
What an act of an undisturbed engine does to its offset: a chunk takes it further and nothing else
moves it; no report carries a message, and there is no wait and no status call.
-/
def Gains (engine : Engine) (act : Engine.Act) (next : Engine) : Prop :=
  match act with
  | .chunk .. => engine.offset < next.offset
  | .create _ | .read _ | .check => next.offset = engine.offset
  | .report report => report.message = "" ∧ next.offset = engine.offset
  | .status _ | .wait => False

namespace Behind

/-- An engine within what is stored stays so until its chunk takes it to the end of that. -/
theorem step
    (behind : Behind engine endpoint)
    (untroubled : Untroubled bytes engine endpoint)
    (step : Engine.Step engine act next)
    (served : serve? engine endpoint = some (act, after)) :
    Gains engine act next ∧ (Behind next after ∨ Level next after) := by
  obtain ⟨left, stands⟩ := behind
  have faithful := untroubled.driven.faithful
  cases step with
  | create phase answer =>
      simp only [phase] at stands
      simp only [serve?, phase] at served
      cases served
      rw [faithful.size_eq]
      obtain ⟨⟨status, body, given, created⟩, begins⟩ :=
        create_begins untroubled.unscripted faithful.partway
      rw [given, afterCreate_created _ _ created]
      exact ⟨rfl, .inl ⟨left, _, begins, stands⟩⟩
  | check phase =>
      simp only [phase] at stands
      simp only [serve?, phase] at served
      cases served
      rw [untroubled.check_eq left]
      exact ⟨rfl, .inl ⟨left, stands⟩⟩
  | read phase found =>
      simp only [phase] at stands
      simp only [serve?, phase] at served
      cases served
      rw [faithful.holds.read_chunk left]
      exact ⟨rfl, .inl ⟨left, stands⟩⟩
  | chunk phase answer =>
      simp only [phase] at stands
      obtain ⟨stored, found, reached⟩ := stands
      simp only [serve?, phase] at served
      cases served
      have beyond := untroubled.driven.exactly.offset_lt_chunkLast (Nat.le_refl 1) left
      obtain ⟨level, stands⟩ := Level.of_chunk found reached untroubled phase
      refine ⟨?_, .inr level⟩
      dsimp only [Gains]
      rw [stands]
      exact Nat.lt_of_lt_of_le beyond (Nat.le_max_right _ _)
  | report made =>
      simp only [Engine.report?] at made
      split at made
      case h_1 phase | h_2 phase | h_3 phase => simp only [phase] at stands
      case h_4 => cases made
  | retryCreate phase | backOff phase | status phase => simp only [phase] at stands

theorem agreesOn
    (behind : Behind engine endpoint)
    (agrees : AgreesOn engine.path endpoint after) :
    Behind engine after := by
  simp only [Behind, Endpoint.stored, pendingLength?, agrees.partial?_eq] at behind ⊢
  exact behind

end Behind

theorem Level.gains
    (level : Level engine endpoint)
    (untroubled : Untroubled bytes engine endpoint)
    (step : Engine.Step engine act next)
    (served : serve? engine endpoint = some (act, after)) :
    Gains engine act next := by
  have stands := level.offset_eq step
  cases step with
  | create phase | check phase | read phase =>
      exact stands fun _ sending => by cases phase.symm.trans sending
  | chunk phase answer =>
      simp only [serve?, phase] at served
      cases served
      have exactly := untroubled.driven.exactly
      dsimp only [Gains]
      rw [(level.chunk untroubled phase).2]
      exact exactly.offset_lt_chunkLast (Nat.le_refl 1) (exactly.sending phase).1
  | report made =>
      have unmoved : engine.afterReport.offset = engine.offset := by
        unfold Engine.afterReport
        split <;> rfl
      simp only [Engine.report?] at made
      split at made
      case h_1 phase =>
          cases made
          exact ⟨rfl, unmoved⟩
      case h_2 phase => simp only [Level, phase] at level
      case h_3 phase =>
          simp only [Level, phase] at level
          cases made
          exact ⟨congrArg Outcome.message level, unmoved⟩
      case h_4 => cases made
  | retryCreate phase | backOff phase | status phase => simp only [Level, phase] at level

/-! ## What the acts of a run add up to -/

/-- The offset that an engine started with, and those that it has reported since. -/
def marks (uploaded : Nat) (done : List Engine.Act) : List Nat :=
  uploaded :: (done.filterMap Engine.Act.report?).map (·.uploaded)

theorem marks_concat
    (uploaded : Nat)
    (done : List Engine.Act)
    (act : Engine.Act) :
    marks uploaded (done ++ [act]) =
      marks uploaded done ++ (act.report?.map (·.uploaded)).toList := by
  simp only [marks, filterMap_concat, List.map_append, List.cons_append]
  cases act.report? <;> rfl

/--
What an engine has gained since it started with `uploaded` bytes.  Each report is due further on than
the one before it: behind an accepted chunk the offset is beyond all that was told, and as long as the
engine has not ended no report has told all of the file.
-/
structure Climbs (uploaded : Nat) (done : List Engine.Act) (engine : Engine) : Prop where
  ordered : engine.Ordered
  chunks : uploaded + done.countP Engine.Act.isChunk ≤ engine.offset
  calm : Engine.Act.wait ∉ done
  quiet : ∀ report ∈ done.filterMap Engine.Act.report?, report.message = ""
  ascending : (marks uploaded done).Pairwise (· < ·)
  reached : ∀ mark ∈ marks uploaded done, mark ≤ engine.offset
  accepted : engine.phase = .accepted → ∀ mark ∈ marks uploaded done, mark < engine.offset
  going : engine.hasEnded = false → ∀ mark ∈ marks uploaded done, mark < engine.size
  ended : engine.hasEnded = true → (marks uploaded done).getLast? = some engine.offset

namespace Climbs

variable {done : List Engine.Act}

theorem start
    (tuning : Tuning)
    (path : String)
    {file : FileHandle}
    (below : uploaded < file.size) :
    Climbs uploaded [] (Engine.new tuning path file uploaded).start := by
  have stands : min uploaded file.size = uploaded := Nat.min_eq_left (Nat.le_of_lt below)
  have only : ∀ mark ∈ marks uploaded [], mark = uploaded := fun mark => List.mem_singleton.mp
  exact
    { ordered := Engine.ordered_start tuning path file below
      chunks := Nat.le_of_eq stands.symm
      calm := List.not_mem_nil
      quiet := nofun
      ascending := List.pairwise_singleton _ _
      reached := fun mark member => Nat.le_of_eq ((only mark member).trans stands.symm)
      accepted := nofun
      going := fun _ mark member => only mark member ▸ below
      ended := nofun }

/-- An act without a report, after which the offset is further on if it is a chunk call. -/
theorem silent
    (climbs : Climbs uploaded done engine)
    (step : Engine.Step engine act next)
    (silent : act.report? = none)
    (chunks : engine.offset + [act].countP Engine.Act.isChunk ≤ next.offset)
    (calm : act ≠ .wait)
    (accepted : next.phase = .accepted → engine.offset < next.offset) :
    Climbs uploaded (done ++ [act]) next := by
  have same : marks uploaded (done ++ [act]) = marks uploaded done := by
    rw [marks_concat, silent, Option.map_none, Option.toList_none, List.append_nil]
  have ahead : engine.offset ≤ next.offset := Nat.le_trans (Nat.le_add_right _ _) chunks
  constructor
  · exact climbs.ordered.step step
  · have before := climbs.chunks
    rw [List.countP_append]
    omega
  · rw [List.mem_append, List.mem_singleton, not_or]
    exact ⟨climbs.calm, calm.symm⟩
  · rw [filterMap_concat, silent, Option.toList_none, List.append_nil]
    exact climbs.quiet
  · rw [same]
    exact climbs.ascending
  · rw [same]
    exact fun mark member => Nat.le_trans (climbs.reached mark member) ahead
  · rw [same]
    exact fun phase mark member => Nat.lt_of_le_of_lt (climbs.reached mark member) (accepted phase)
  · rw [same, step.size_eq]
    exact fun _ => climbs.going step.not_ended
  · intro ended
    obtain ⟨report, rfl, _⟩ := step.ends ended
    cases silent

/-- A report without a message that tells more than those before it. -/
theorem reports
    {report : Report}
    (climbs : Climbs uploaded done engine)
    (step : Engine.Step engine (.report report) next)
    (quiet : report.message = "")
    (unmoved : next.offset = engine.offset)
    (further : ∀ mark ∈ marks uploaded done, mark < engine.offset) :
    Climbs uploaded (done ++ [.report report]) next := by
  obtain ⟨made, rfl⟩ := step.report_made
  have told : report.uploaded = engine.offset := (Engine.report?_eq_some made).2
  have same : marks uploaded (done ++ [.report report]) = marks uploaded done ++ [engine.offset] := by
    rw [marks_concat, ← told]
    rfl
  have leads := step.leads
  constructor
  · exact climbs.ordered.step step
  · rw [List.countP_append, unmoved]
    exact climbs.chunks
  · rw [List.mem_append, List.mem_singleton, not_or]
    exact ⟨climbs.calm, nofun⟩
  · rw [filterMap_concat, List.forall_mem_append]
    refine ⟨climbs.quiet, ?_⟩
    intro last member
    obtain rfl := List.mem_singleton.mp member
    exact quiet
  · rw [same, List.pairwise_append]
    refine ⟨climbs.ascending, List.pairwise_singleton _ _, ?_⟩
    intro mark earlier last now
    exact List.mem_singleton.mp now ▸ further mark earlier
  · rw [same, List.forall_mem_append, List.forall_mem_singleton, unmoved]
    exact ⟨climbs.reached, Nat.le_refl _⟩
  · intro phase
    rw [phase] at leads
    cases leads
  · intro going
    rw [same, List.forall_mem_append, List.forall_mem_singleton, step.size_eq, ← told]
    exact ⟨climbs.going step.not_ended, climbs.ordered.report_below made going⟩
  · rw [same, List.getLast?_concat, unmoved]
    exact fun _ => rfl

end Climbs

/-! ## Whole runs -/

/-- What holds of a transfer that has met with no trouble. -/
structure Healthy (bytes : Bytes) (uploaded : Nat) (done : List Engine.Act) (transfer : Transfer) :
    Prop where
  untroubled : Untroubled bytes transfer.engine transfer.endpoint
  stands :
    Behind transfer.engine transfer.endpoint ∨ Level transfer.engine transfer.endpoint
  climbs : Climbs uploaded done transfer.engine

namespace Healthy

variable {transfer following : Transfer} {done : List Engine.Act} {move : Move}

/-- An engine that starts within what is stored meets with no trouble. -/
theorem start
    {config : Config}
    {file : FileHandle}
    (valid : config.check = .ok ())
    (holds : file.Holds bytes)
    (unscripted : endpoint.Unscripted)
    (partway : endpoint.Partway path bytes)
    (within : uploaded ≤ endpoint.stored path)
    (proper : uploaded < bytes.length) :
    Healthy bytes uploaded []
      ⟨(Engine.new (config.tuningWith scaleExactly) path file uploaded).start, endpoint⟩ := by
  have below : uploaded < file.size := holds.size ▸ proper
  constructor
  · exact
      { driven :=
          .start (Config.keeps_one_exactly valid) holds proper partway unscripted.onlyFails
        unscripted := unscripted
        unstopped := rfl }
  · refine .inl ⟨?_, ?_⟩
    · exact Nat.lt_of_le_of_lt (Nat.min_le_left _ _) below
    · exact Nat.le_trans (Nat.min_le_left _ _) within
  · exact .start _ path below

theorem phase_ne_idle (healthy : Healthy bytes uploaded done transfer) :
    transfer.engine.phase ≠ .idle := by
  intro idle
  rcases healthy.stands with ⟨_, behind⟩ | level
  · simp only [idle] at behind
  · simp only [Level, idle] at level

theorem stage_ne_backingOff (healthy : Healthy bytes uploaded done transfer) :
    transfer.engine.stage ≠ .backingOff := by
  intro backsOff
  unfold Engine.stage at backsOff
  split at backsOff
  case h_8 phase | h_9 phase | h_10 phase =>
      rcases healthy.stands with ⟨_, behind⟩ | level
      · simp only [phase] at behind
      · simp only [Level, phase] at level
  case h_11 outcome _ | h_12 outcome _ => cases outcome <;> cases backsOff
  all_goals cases backsOff

/-- A report is only due where the engine stands beyond all that it has told. -/
theorem further
    {report : Report}
    (healthy : Healthy bytes uploaded done transfer)
    (made : transfer.engine.report? = some report) :
    ∀ mark ∈ marks uploaded done, mark < transfer.engine.offset := by
  have climbs := healthy.climbs
  unfold Engine.report? at made
  split at made
  case h_1 phase => exact climbs.accepted phase
  case h_2 phase =>
      rcases healthy.stands with ⟨_, behind⟩ | level
      · simp only [phase] at behind
      · simp only [Level, phase] at level
  case h_3 phase =>
      rcases healthy.stands with ⟨_, behind⟩ | level
      · simp only [phase] at behind
      · simp only [Level, phase] at level
        subst level
        have whole := climbs.ordered
        simp only [Engine.Ordered, phase] at whole
        rw [whole]
        refine climbs.going ?_
        simp only [Engine.hasEnded, Engine.outcome?, phase, Option.isSome_none]
  case h_4 => cases made

theorem climbs_step
    (healthy : Healthy bytes uploaded done transfer)
    (gains : Gains transfer.engine act next)
    (step : Engine.Step transfer.engine act next) :
    Climbs uploaded (done ++ [act]) next := by
  have leads := step.leads
  cases act with
  | create | read | check =>
      refine healthy.climbs.silent step rfl (Nat.le_of_eq gains.symm) nofun ?_
      intro phase
      rw [phase] at leads
      cases leads
  | chunk => exact healthy.climbs.silent step rfl gains nofun fun _ => gains
  | report report =>
      obtain ⟨quiet, unmoved⟩ := gains
      exact healthy.climbs.reports step quiet unmoved (healthy.further step.report_made.1)
  | status | wait => exact gains.elim

theorem step
    (healthy : Healthy bytes uploaded done transfer)
    (smooth : Smooth transfer move following) :
    Healthy bytes uploaded (done ++ move.act?.toList) following := by
  have untroubled := healthy.untroubled
  cases smooth with
  | act served step =>
      rcases healthy.stands with behind | level
      · obtain ⟨gains, stands⟩ := behind.step untroubled step served
        exact ⟨untroubled.step step served, stands, healthy.climbs_step gains step⟩
      · have gains := level.gains untroubled step served
        exact ⟨untroubled.step step served, .inr (level.step untroubled step served).2,
          healthy.climbs_step gains step⟩
  | elsewhere elsewhere =>
      have agrees := elsewhere.agreesOn
      refine ⟨untroubled.elsewhere elsewhere, ?_, ?_⟩
      · exact healthy.stands.imp (·.agreesOn agrees) (·.agreesOn agrees)
      · rw [Move.act?, Option.toList_none, List.append_nil]
        exact healthy.climbs

/-- An engine that has ended has finished, and its last report told all of the file. -/
theorem ended
    (healthy : Healthy bytes uploaded done transfer)
    (ended : transfer.engine.hasEnded = true) :
    transfer.engine.outcome? = some .finished ∧
      (marks uploaded done).getLast? = some bytes.length ∧
      transfer.endpoint.completed? transfer.engine.path = some bytes := by
  have faithful := healthy.untroubled.driven.faithful
  have last := healthy.climbs.ended ended
  have whole := healthy.climbs.ordered
  simp only [Engine.hasEnded, Engine.outcome?] at ended
  split at ended
  case h_1 outcome phase =>
      rcases healthy.stands with ⟨_, behind⟩ | level
      · simp only [phase] at behind
      · simp only [Level, phase] at level
        subst level
        simp only [Engine.Ordered, phase, faithful.size_eq] at whole
        rw [whole] at last
        refine ⟨?_, last, faithful.whole (Nat.le_of_eq whole.symm)⟩
        simp only [Engine.outcome?, phase]
  case h_2 => cases ended

end Healthy

theorem healthy_of_trace
    {transfer final : Transfer}
    {moves : List Move}
    (healthy : Healthy bytes uploaded [] transfer)
    (run : Trace Smooth transfer moves final) :
    final.engine.path = transfer.engine.path ∧
      Healthy bytes uploaded (acts moves) final ∧
      (acts moves).length + remaining final.engine final.endpoint ≤
        remaining transfer.engine transfer.endpoint := by
  induction run with
  | refl => exact ⟨rfl, healthy, Nat.le_of_eq (Nat.zero_add _)⟩
  | snoc _ last held =>
      obtain ⟨path, reached, count⟩ := held
      have less := reached.untroubled.remaining_add_le last
      refine ⟨last.kept.1.trans path, ?_, ?_⟩
      · rw [acts, filterMap_concat]
        exact reached.step last
      · rw [acts, filterMap_concat, List.length_append]
        unfold acts at count
        omega

/--
Let an engine begin within what the endpoint has stored of its file, which is not all of it.  If no
call is lost and nobody stops it, it ends after finitely many steps, whatever other clients do to other
paths: it has finished, and the completed upload is the file.  Until then it never backs off, makes at
most one chunk call for every byte that it was to send, and tells more with every report, the last of
which tells all of the file.
-/
theorem healthy_transfer_finishes
    {config : Config}
    {path : String}
    {file : FileHandle}
    {bytes : Bytes}
    {uploaded : Nat}
    {endpoint : Endpoint}
    (valid : config.check = .ok ())
    (holds : file.Holds bytes)
    (unscripted : endpoint.Unscripted)
    (partway : endpoint.Partway path bytes)
    (within : uploaded ≤ endpoint.stored path)
    (proper : uploaded < bytes.length) :
    ∃ bound, ∀ {moves : List Move} {final : Transfer},
      Trace Smooth
          ⟨(Engine.new (config.tuningWith scaleExactly) path file uploaded).start, endpoint⟩
          moves final →
        let told := (acts moves).filterMap Engine.Act.report?
        (acts moves).length ≤ bound ∧
        (acts moves).countP Engine.Act.isChunk ≤ bytes.length - uploaded ∧
        final.engine.stage ≠ .backingOff ∧ Engine.Act.wait ∉ acts moves ∧
        (∀ report ∈ told, report.message = "") ∧
        (uploaded :: told.map (·.uploaded)).Pairwise (· < ·) ∧
        (final.engine.hasEnded = false →
          ∃ act following, Smooth final (.act act) following) ∧
        (final.engine.hasEnded = true →
          final.engine.outcome? = some .finished ∧
            (told.map (·.uploaded)).getLast? = some bytes.length ∧
            final.endpoint.completed? path = some bytes) := by
  refine ⟨remaining (Engine.new (config.tuningWith scaleExactly) path file uploaded).start
    endpoint, ?_⟩
  intro moves final run told
  have begun := Healthy.start valid holds unscripted partway within proper
  obtain ⟨same, healthy, count⟩ := healthy_of_trace begun run
  have climbs := healthy.climbs
  refine ⟨Nat.le_trans (Nat.le_add_right _ _) count, ?_, healthy.stage_ne_backingOff, climbs.calm,
    climbs.quiet, climbs.ascending, ?_, ?_⟩
  · have chunks := climbs.chunks
    have below := climbs.ordered.offset_le
    rw [healthy.untroubled.driven.faithful.size_eq] at below
    omega
  · intro going
    obtain ⟨act, after, next, served, step⟩ :=
      exists_serve? final.endpoint healthy.phase_ne_idle going
    exact ⟨act, ⟨next, after⟩, .act served step⟩
  · intro ended
    obtain ⟨finished, last, completed⟩ := healthy.ended ended
    rw [same] at completed
    refine ⟨finished, ?_, completed⟩
    -- The mark that the engine started from is not the last one: it does not tell all of the file.
    rw [marks, List.getLast?_cons] at last
    cases latest : (told.map (·.uploaded)).getLast? with
    | none =>
        rw [latest, Option.getD_none] at last
        exact absurd (Option.some.inj last) (Nat.ne_of_lt proper)
    | some mark => rwa [latest, Option.getD_some] at last

/-- All of the first chunk is stored already, and the engine goes on behind what is stored. -/
theorem stored_chunk_is_passed_over :
    let config : Config := { chunkLength := 2 }
    let file : FileHandle := ⟨0, .ofBytes [6, 7, 8, 9]⟩
    let endpoint : Endpoint := { pending := [⟨"a", 4, [6, 7, 8]⟩] }
    ∃ moves final,
      config.check = .ok () ∧ file.Holds [6, 7, 8, 9] ∧ endpoint.Unscripted ∧
        endpoint.Partway "a" [6, 7, 8, 9] ∧ 0 ≤ endpoint.stored "a" ∧
        Trace Smooth
          ⟨(Engine.new (config.tuningWith scaleExactly) "a" file 0).start, endpoint⟩ moves final ∧
        (acts moves).countP Engine.Act.isChunk ≤ 4 ∧
        final.engine.outcome? = some .finished ∧
        final.endpoint.chunkOffsets = [("a", 0), ("a", 3)] ∧
        final.endpoint.completed? "a" = some [6, 7, 8, 9] := by
  intro config file endpoint
  have valid : config.check = .ok () := Config.check_eq_ok_iff.mpr (by decide)
  have holds : file.Holds [6, 7, 8, 9] := FileHandle.holds_ofBytes 0 [6, 7, 8, 9]
  have unscripted : endpoint.Unscripted := ⟨rfl, rfl, rfl⟩
  have partway : endpoint.Partway "a" [6, 7, 8, 9] := by
    unfold Endpoint.Partway
    decide
  have within : 0 ≤ endpoint.stored "a" := Nat.zero_le _
  have arrived :
      (advanceBy? 10 ⟨(Engine.new (config.tuningWith scaleExactly) "a" file 0).start, endpoint⟩).map
        (fun final => (final.engine.hasEnded, final.endpoint.chunkOffsets)) =
          some (true, [("a", 0), ("a", 3)]) := by
    decide
  obtain ⟨final, advanced, facts⟩ := Option.map_eq_some_iff.mp arrived
  obtain ⟨ended, offsets⟩ := Prod.mk.inj facts
  obtain ⟨moves, run⟩ := smooth_of_advanceBy? advanced
  obtain ⟨_, finishes⟩ :=
    healthy_transfer_finishes valid holds unscripted partway within (by decide)
  obtain ⟨_, chunks, _, _, _, _, _, concludes⟩ := finishes run
  obtain ⟨finished, _, completed⟩ := concludes ended
  exact ⟨moves, final, valid, holds, unscripted, partway, within, run, chunks, finished, offsets,
    completed⟩

end Transfer

end ResumableUpload
