import ResumableUpload.Proofs.Engine.Reports

/-!
# Failing until it stalls

A chunk call that fails in a way that may pass shortens the chunks, and at the floor it ends the
run: the upload has stalled.  If every shortening is strict, an engine can only meet with as many
failures in a row as its length is above the floor, and one more (`Engine.patience`).

Whether it is strict is up to the ratio.  A ratio above `floor / (floor + 1)` is accepted as well,
but under it a length above the floor stays there, and the engine never stalls (`never_stalls`).
-/

namespace ResumableUpload.Engine

variable {engine next final begun : Engine} {act : Act} {moment : Moment} {moments : List Moment}
variable {outcome : Outcome}

/-! ## Tuning and length in a run -/

theorem Meets.engine_eq (meets : Meets engine moment next) : moment.engine = engine := by
  cases meets <;> rfl

theorem Meets.tuning_eq (meets : Meets engine moment next) : next.tuning = engine.tuning := by
  cases meets with
  | act step => exact step.tuning_eq
  | stop => rfl

theorem tuning_of_meets (run : Trace Meets begun moments engine) :
    engine.tuning = begun.tuning := by
  induction run with
  | refl => rfl
  | snoc _ last same => exact last.tuning_eq.trans same

theorem length_of_meets
    {least : Nat}
    (pace : begun.tuning.pace.Keeps least)
    (long : least ≤ begun.chunkLength)
    (run : Trace Meets begun moments engine) :
    least ≤ engine.chunkLength := by
  induction run with
  | refl => exact long
  | snoc past last held =>
      cases last with
      | act step =>
          refine step.keeps_length ?_ held
          rw [tuning_of_meets past]
          exact pace
      | stop => exact held

/-- What the answer to the chunk call of an event means under a policy. -/
def Event.chunk? (policy : Policy) : Event → Option (Verdict StatusReply)
  | .act (.chunk _ _ answer) => some (policy.classify answer)
  | _ => none

/-- The answers of a run mean what its policy says of them. -/
theorem chunks_of_meets (run : Trace Meets begun moments engine) :
    moments.filterMap Moment.chunk? =
      (moments.map Moment.event).filterMap (Event.chunk? begun.tuning.policy) := by
  induction run with
  | refl => rfl
  | @snoc moments _ _ moment past last same =>
      have here : moment.chunk? = moment.event.chunk? begun.tuning.policy := by
        rw [Moment.chunk?, last.engine_eq, tuning_of_meets past]
        rfl
      rw [List.map_append, List.map_singleton, filterMap_concat, filterMap_concat, same, here]

/-! ## Concluding -/

/-- An engine that has concluded sends nothing any more, and keeps its outcome. -/
theorem concluded_of_meets
    (concluded : engine.conclusion? = some outcome)
    (run : Trace Meets engine moments final) :
    final.conclusion? = some outcome ∧ moments.filterMap Moment.chunk? = [] := by
  induction run with
  | refl => exact ⟨concluded, rfl⟩
  | @snoc _ _ _ moment _ last earlier =>
      obtain ⟨still, none⟩ := earlier
      rw [filterMap_concat, none]
      cases last with
      | act step =>
          obtain ⟨kept, rfl⟩ := step.concluded still
          exact ⟨kept, rfl⟩
      | stop => exact ⟨still, rfl⟩

/-! ## Patience -/

/-- How many chunk calls may fail one after the other. -/
def patience (engine : Engine) : Nat :=
  match engine.phase with
  | .concluding _ | .ended _ => 0
  | _ => engine.chunkLength - engine.tuning.pace.floor + 1

theorem patience_le (engine : Engine) :
    engine.patience ≤ engine.chunkLength - engine.tuning.pace.floor + 1 := by
  unfold patience
  split <;> omega

/-- A call that fails at the floor ends the run. -/
theorem retreat_of_short
    (reason : String)
    (short : engine.chunkLength ≤ engine.tuning.pace.floor) :
    engine.retreat reason = engine.fail .stalled :=
  if_pos short

/-- Above the floor it shortens the chunks. -/
theorem retreat_of_long
    (reason : String)
    (long : engine.tuning.pace.floor < engine.chunkLength) :
    engine.retreat reason =
      { engine with
        chunkLength := engine.tuning.pace.shrink engine.chunkLength
        phase := .refused reason } :=
  if_neg (Nat.not_le_of_lt long)

/-- A call that fails in a way that may pass costs patience. -/
theorem patience_afterChunk
    {content : String}
    {answer : Answer StatusReply}
    {reason : String}
    (phase : engine.phase = .sending content)
    (shortens : engine.tuning.pace.Shortens)
    (judged : engine.tuning.policy.classify answer = .retryable reason) :
    (engine.afterChunk answer).patience + 1 ≤ engine.patience := by
  have patience : engine.patience = engine.chunkLength - engine.tuning.pace.floor + 1 := by
    simp only [Engine.patience, phase]
  simp only [afterChunk, judged]
  by_cases short : engine.chunkLength ≤ engine.tuning.pace.floor
  · rw [retreat_of_short reason short, patience]
    exact Nat.succ_le_succ (Nat.zero_le _)
  · have long := Nat.lt_of_not_le short
    have less := shortens.less long
    rw [retreat_of_long reason long, patience]
    simp only [Engine.patience]
    omega

/-- Nothing else does, as long as no call is accepted. -/
theorem Step.patience_le
    (step : Step engine act next)
    (silent :
      ∀ {offset : Nat} {content : String} {answer : Answer StatusReply},
        act ≠ .chunk offset content answer) :
    next.patience ≤ engine.patience := by
  cases step with
  | create phase =>
      unfold afterCreate
      split
      · simp only [patience, phase, Nat.le_refl]
      · exact Nat.zero_le _
      · split
        · simp only [patience, phase, Nat.le_refl]
        · exact Nat.zero_le _
  | retryCreate phase => simp only [afterCreatePause, patience, phase, Nat.le_refl]
  | check phase =>
      unfold Engine.check
      split
      · split
        · exact Nat.zero_le _
        · simp only [patience, phase, Nat.le_refl]
      · exact Nat.zero_le _
  | read phase bytes =>
      cases bytes with
      | ok => simp only [afterRead, patience, phase, Nat.le_refl]
      | error => exact Nat.zero_le _
  | chunk => exact absurd rfl silent
  | report =>
      unfold afterReport
      split
      case h_1 phase => simp only [patience, phase, Nat.le_refl]
      case h_2 phase => simp only [patience, phase, Nat.le_refl]
      case h_3 => exact Nat.zero_le _
      case h_4 => exact Nat.le_refl _
  | backOff phase => simp only [afterBackOff, patience, phase, Nat.le_refl]
  | status phase =>
      unfold afterStatus
      split
      · simp only [patience, phase, adopt, Nat.le_refl]
      · exact Nat.zero_le _
      · simp only [patience, phase, Nat.le_refl]

/-- What a moment of failures costs. -/
theorem Meets.patience
    (meets : Meets engine moment next)
    (shortens : engine.tuning.pace.Shortens)
    (retryable : ∀ verdict ∈ moment.chunk?, ∃ reason, verdict = .retryable reason) :
    moment.chunk?.toList.length + next.patience ≤ engine.patience := by
  cases meets with
  | stop => exact Nat.le_of_eq (Nat.zero_add _)
  | @act _ act step =>
      cases act with
      | chunk offset content answer =>
          obtain ⟨reason, judged⟩ := retryable _ rfl
          cases step with
          | chunk phase =>
              have cost := patience_afterChunk phase shortens judged
              exact Nat.add_comm 1 _ ▸ cost
      | create | read | status | report | check | wait =>
          have cost := step.patience_le nofun
          exact (Nat.zero_add _).symm ▸ cost

/-- An engine meets with no more failures in a row than it has patience. -/
theorem failures_le_patience
    (shortens : engine.tuning.pace.Shortens)
    (run : Trace Meets engine moments final)
    (retryable :
      ∀ verdict ∈ moments.filterMap Moment.chunk?, ∃ reason, verdict = .retryable reason) :
    (moments.filterMap Moment.chunk?).length + final.patience ≤ engine.patience := by
  induction run with
  | refl => exact Nat.le_of_eq (Nat.zero_add _)
  | @snoc moments middle _ moment past last earlier =>
      rw [filterMap_concat] at retryable ⊢
      have before := earlier fun verdict member => retryable verdict (List.mem_append_left _ member)
      have cost :=
        last.patience (tuning_of_meets past ▸ shortens) fun verdict member =>
          retryable verdict (List.mem_append_right _ (Option.mem_toList.mpr member))
      rw [List.length_append]
      omega

/--
Under a valid configuration whose ratio for shortening is at most `floor / (floor + 1)`, with
lengths rounded up from exact products: from any point of a run on, an engine meets with at most as
many chunk calls in a row that fail in a way that may pass as its length is above the floor, and one
more.  Each of them shortens the chunks strictly, without falling below the floor; at the floor it
ends the run: no chunk is sent any more, and the engine fails as stalled.
-/
theorem failures_shorten_until_stalled
    {config : Config}
    {path : String}
    {file : FileHandle}
    {uploaded : Nat}
    {earlier later : List Moment}
    (valid : config.check = .ok ())
    (word : config.chunkLength < Nat.pow 2 64)
    (steep :
      config.speedDownRatio.isAtMost config.chunkLengthFloor (config.chunkLengthFloor + 1) = true)
    (run :
      Trace Meets (new (config.tuningWith scaleExactly) path file uploaded).start earlier engine)
    (continued : Trace Meets engine later final)
    (retryable :
      ∀ verdict ∈ later.filterMap Moment.chunk?, ∃ reason, verdict = .retryable reason) :
    (later.filterMap Moment.chunk?).length ≤ engine.chunkLength - config.chunkLengthFloor + 1 ∧
      config.chunkLengthFloor ≤ final.chunkLength ∧
      ∀ {offset : Nat} {content : String} {answer : Answer StatusReply} {reason : String}
        {next : Engine},
        Step final (.chunk offset content answer) next →
          config.policy.classify answer = .retryable reason →
            (config.chunkLengthFloor < final.chunkLength →
              config.chunkLengthFloor ≤ next.chunkLength ∧
                next.chunkLength < final.chunkLength) ∧
            (final.chunkLength = config.chunkLengthFloor →
              next.report? =
                  some ⟨final.path, final.offset, false, UploadError.stalled.message⟩ ∧
                ∀ {after : List Moment} {last : Engine},
                  Trace Meets next after last →
                    last.conclusion? = some (.failed .stalled) ∧ last.stage = .error ∧
                      after.filterMap Moment.chunk? = []) := by
  have tuned : engine.tuning = config.tuningWith scaleExactly := tuning_of_meets run
  have whole := run.append continued
  have tunedLast : final.tuning = config.tuningWith scaleExactly := tuning_of_meets whole
  have shortens : engine.tuning.pace.Shortens := tuned ▸ config.shortens valid steep
  have few := failures_le_patience shortens continued retryable
  have bounded := engine.patience_le
  have floor : engine.tuning.pace.floor = config.chunkLengthFloor := by
    rw [tuned]
    rfl
  have floorLast : final.tuning.pace.floor = config.chunkLengthFloor := by
    rw [tunedLast]
    rfl
  have keeps := config.keeps_floor valid word
  refine ⟨by omega, length_of_meets keeps keeps.start whole, ?_⟩
  intro offset content answer reason next step judged
  have policy : final.tuning.policy.classify answer = .retryable reason := by
    rw [tunedLast]
    exact judged
  cases step with
  | chunk phase =>
      simp only [afterChunk, policy]
      constructor
      · intro long
        rw [← floorLast] at long ⊢
        rw [retreat_of_long reason long, tunedLast]
        rw [tunedLast] at long
        have shortens := config.shortens valid steep
        exact ⟨shortens.floor _, shortens.less long⟩
      · intro short
        rw [retreat_of_short reason (by omega)]
        refine ⟨rfl, fun {after last} ends => ?_⟩
        obtain ⟨still, silent⟩ := concluded_of_meets rfl ends
        exact ⟨still, stage_of_conclusion? still, silent⟩

/-- The events of an engine before its first chunk call of a file of two bytes. -/
def untilFirstChunk : List Event :=
  [.act (.create (.ok (Response.success ⟨"a", 2⟩))), .act .check, .act (.read (.ok [7, 8]))]

/-- The events from a chunk call of this piece, which fails, to the next look at the file. -/
def failing (piece : Bytes) : List Event :=
  [.act (.chunk 0 (Base64.encode piece) (.error (.io "lost"))),
    .act (.report ⟨"a", 0, true, "I/O error: lost"⟩), .act .wait,
    .act (.status (.error (.io "lost"))), .act .check]

/-- With the ratio one half the second failure at length two ends the run. -/
theorem second_failure_stalls :
    let config : Config := { chunkLength := 2 }
    ∃ earlier later engine final,
      config.check = .ok () ∧
        config.speedDownRatio.isAtMost config.chunkLengthFloor (config.chunkLengthFloor + 1) =
          true ∧
        Trace Meets
          (new (config.tuningWith scaleExactly) "a" ⟨0, .ofBytes [7, 8]⟩ 0).start earlier engine ∧
        Trace Meets engine later final ∧ engine.chunkLength = 2 ∧
        (later.filterMap Moment.chunk?).length = 2 ∧
        (later.filterMap Moment.chunk?).length ≤
          engine.chunkLength - config.chunkLengthFloor + 1 ∧
        final.outcome? = some (.failed .stalled) := by
  intro config
  let begun := (new (config.tuningWith scaleExactly) "a" ⟨0, .ofBytes [7, 8]⟩ 0).start
  let stalling : List Event :=
    failing [7, 8] ++
      [.act (.read (.ok [7])), .act (.chunk 0 (Base64.encode [7]) (.error (.io "lost"))),
        .act (.report ⟨"a", 0, false, UploadError.stalled.message⟩)]
  have valid : config.check = .ok () := Config.check_eq_ok_iff.mpr (by decide)
  have first :
      (untilFirstChunk.foldlM (goes? [7, 8]) begun).map (·.chunkLength) = some 2 := by
    decide
  obtain ⟨engine, reached, two⟩ := Option.map_eq_some_iff.mp first
  have second :
      ((untilFirstChunk ++ stalling).foldlM (goes? [7, 8]) begun).map (·.outcome?) =
        some (some (.failed .stalled)) := by
    decide
  rw [List.foldlM_append, reached] at second
  obtain ⟨final, failed, stalled⟩ := Option.map_eq_some_iff.mp second
  obtain ⟨earlier, _, run⟩ := meets_of_goes (Trace.of_foldlM (Goes _) goes_of_goes? reached)
  obtain ⟨later, seen, continued⟩ := meets_of_goes (Trace.of_foldlM (Goes _) goes_of_goes? failed)
  have judged :
      later.filterMap Moment.chunk? =
        [.retryable "I/O error: lost", .retryable "I/O error: lost"] := by
    rw [chunks_of_meets continued, seen, tuning_of_meets run]
    rfl
  have retryable :
      ∀ verdict ∈ later.filterMap Moment.chunk?, ∃ reason, verdict = .retryable reason := by
    simp [judged]
  have bounded :=
    (failures_shorten_until_stalled valid (by decide) (by decide) run continued retryable).1
  exact ⟨earlier, later, engine, final, valid, by decide, run, continued, two, by rw [judged]; rfl,
    bounded, stalled⟩

/-! ## Ratios that do not shorten -/

/--
Under a valid configuration whose ratio for shortening is above `floor / (floor + 1)`, an engine
that starts above the floor stays above it and never stalls, however many calls fail.
-/
theorem never_stalls
    {config : Config}
    {path : String}
    {file : FileHandle}
    {uploaded : Nat}
    (valid : config.check = .ok ())
    (word : config.chunkLength < Nat.pow 2 64)
    (long : config.chunkLengthFloor < config.chunkLength)
    (flat :
      config.speedDownRatio.isAtMost config.chunkLengthFloor (config.chunkLengthFloor + 1) = false)
    (run :
      Trace Meets (new (config.tuningWith scaleExactly) path file uploaded).start moments
        engine) :
    config.chunkLengthFloor < engine.chunkLength ∧
      engine.conclusion? ≠ some (.failed .stalled) := by
  have keeps := config.keeps_above_floor valid word long flat
  induction run with
  | refl => exact ⟨keeps.start, nofun⟩
  | snoc past last earlier =>
      refine ⟨length_of_meets keeps keeps.start (past.snoc last), ?_⟩
      cases last with
      | stop => exact earlier.2
      | act step =>
          intro stalled
          rcases step.concludes stalled with before | stalls
          · exact earlier.2 before
          · cases stalls with
            | stalls _ short =>
                rw [tuning_of_meets past] at short
                exact Nat.not_le_of_lt earlier.1 short

/--
With the ratio 0.9, which is accepted, a length of two is rounded up to two again: a third failure
in a row leaves it there, and a fourth chunk call follows.
-/
theorem three_failures_at_length_two :
    let config : Config := { chunkLength := 2, speedDownRatio := ⟨0x3feccccccccccccd⟩ }
    ∃ earlier later engine final,
      config.check = .ok () ∧
        Trace Meets
          (new (config.tuningWith scaleExactly) "a" ⟨0, .ofBytes [7, 8]⟩ 0).start earlier engine ∧
        Trace Meets engine later final ∧ engine.chunkLength = 2 ∧
        (∀ verdict ∈ later.filterMap Moment.chunk?, ∃ reason, verdict = .retryable reason) ∧
        ¬ (later.filterMap Moment.chunk?).length ≤
          engine.chunkLength - config.chunkLengthFloor + 1 ∧
        final.chunkLength = 2 ∧ final.phase = .reading := by
  intro config
  let begun := (new (config.tuningWith scaleExactly) "a" ⟨0, .ofBytes [7, 8]⟩ 0).start
  let again : List Event :=
    failing [7, 8] ++ .act (.read (.ok [7, 8])) :: failing [7, 8] ++
      .act (.read (.ok [7, 8])) :: failing [7, 8]
  have first :
      (untilFirstChunk.foldlM (goes? [7, 8]) begun).map (·.chunkLength) = some 2 := by
    decide
  obtain ⟨engine, reached, two⟩ := Option.map_eq_some_iff.mp first
  have second :
      ((untilFirstChunk ++ again).foldlM (goes? [7, 8]) begun).map
          (fun final => (final.chunkLength, final.phase)) =
        some (2, .reading) := by
    decide
  rw [List.foldlM_append, reached] at second
  obtain ⟨final, failed, facts⟩ := Option.map_eq_some_iff.mp second
  obtain ⟨same, reading⟩ := Prod.mk.inj facts
  obtain ⟨earlier, _, run⟩ := meets_of_goes (Trace.of_foldlM (Goes _) goes_of_goes? reached)
  obtain ⟨later, seen, continued⟩ := meets_of_goes (Trace.of_foldlM (Goes _) goes_of_goes? failed)
  have judged :
      later.filterMap Moment.chunk? =
        [.retryable "I/O error: lost", .retryable "I/O error: lost",
          .retryable "I/O error: lost"] := by
    rw [chunks_of_meets continued, seen, tuning_of_meets run]
    rfl
  refine ⟨earlier, later, engine, final, Config.check_eq_ok_iff.mpr (by decide), run, continued,
    two, ?_, ?_, same, reading⟩
  · simp [judged]
  · rw [judged, two]
    decide

end ResumableUpload.Engine
