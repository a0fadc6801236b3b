import ResumableUpload.Proofs.Engine.Reports

/-!
# Stopping an engine

An engine looks whether it was told to stop before each chunk and nowhere else.  It can be told so
at any moment, and a call of the endpoint takes time, so here a call first begins and is answered
later (`Beats`): the engine may be told in between.

Once it was told, the engine comes to its end in a bounded number of beats (`beatsLeft`), and at
most one chunk call begins, one that was decided on before (`Underway.Committed`).  It ends stopped,
unless all was or gets confirmed or something fails first (`stop_ends_the_run`).
-/

namespace ResumableUpload.Engine

variable {engine next : Engine} {act : Act} {outcome : Outcome}

/-! ## Calls that take time -/

/-- The calls of the endpoint. -/
inductive Call where
  | create
  | chunk
  | status
deriving DecidableEq, Repr

/-- The call that an engine is to make, or makes. -/
def call? (engine : Engine) : Option Call :=
  match engine.phase with
  | .creating _ => some .create
  | .sending _ => some .chunk
  | .resyncing => some .status
  | _ => none

/-- An engine in a run, and whether its call has begun. -/
structure Underway where
  engine : Engine
  calling : Bool := false

/-- Something that happens to an engine in a run. -/
inductive Beat where
  /-- A call begins. -/
  | begins (call : Call)
  /-- The engine does something; a call is answered. -/
  | act (act : Act)
  /-- The engine is told to stop. -/
  | stop

/-- What can happen to an engine whose calls take time. -/
inductive Beats : Underway → Beat → Underway → Prop where
  | begins {engine : Engine} {call : Call}
      (due : engine.call? = some call) :
      Beats ⟨engine, false⟩ (.begins call) ⟨engine, true⟩
  | act {engine next : Engine} {act : Act} {calling : Bool}
      (begun : calling = act.isCall)
      (step : Step engine act next) :
      Beats ⟨engine, calling⟩ (.act act) ⟨next, false⟩
  | stop {engine : Engine} {calling : Bool} :
      Beats ⟨engine, calling⟩ .stop ⟨engine.requestStop, calling⟩

/-- The state after a beat, if that can happen. -/
def beat? (state : Underway) : Beat → Option Underway
  | .begins call =>
    if state.calling = false ∧ state.engine.call? = some call then some ⟨state.engine, true⟩
    else none
  | .act act =>
    if state.calling = act.isCall then (state.engine.act? act).map (⟨·, false⟩) else none
  | .stop => some ⟨state.engine.requestStop, state.calling⟩

variable {state after final told : Underway} {beat : Beat} {beats : List Beat}

theorem beats_of_beat? (done : beat? state beat = some after) : Beats state beat after := by
  obtain ⟨engine, calling⟩ := state
  cases beat with
  | begins call =>
      simp only [beat?] at done
      split at done
      case isTrue able =>
          obtain ⟨rfl, due⟩ := able
          cases done
          exact .begins due
      case isFalse => cases done
  | act act =>
      simp only [beat?] at done
      split at done
      case isTrue begun =>
          obtain ⟨next, stepped, rfl⟩ := Option.map_eq_some_iff.mp done
          exact .act begun (step_of_act? stepped)
      case isFalse => cases done
  | stop =>
      cases done
      exact .stop

/-- What an engine meets with in a beat. -/
def Beat.event? : Beat → Option Event
  | .begins _ => none
  | .act act => some (.act act)
  | .stop => some .stop

/-- The report that is made. -/
def Beat.report? : Beat → Option Report
  | .act act => act.report?
  | .begins _ | .stop => none

/-- Whether a chunk call begins. -/
def Beat.beginsChunk : Beat → Bool
  | .begins .chunk => true
  | _ => false

/-- Whether the engine itself goes on. -/
def Beat.isOwn : Beat → Bool
  | .stop => false
  | .begins _ | .act _ => true

/-! ## What a run comes to -/

/-- What holds of an engine after a run, from its start on. -/
structure Started (tuning : Tuning) (path : String) (file : FileHandle) (uploaded : Nat)
    (beats : List Beat) (state : Underway) : Prop where
  tuning_eq : state.engine.tuning = tuning
  path_eq : state.engine.path = path
  file_eq : state.engine.file = file
  begun : state.engine.phase ≠ .idle
  /-- Only a call that is due has begun. -/
  calling : state.calling = true → state.engine.call?.isSome = true
  offset :
    state.engine.offset =
      min (lastConfirmed tuning.policy uploaded (beats.filterMap Beat.event?)) file.size
  finished : state.engine.conclusion? = some .finished → state.engine.offset = file.size
  reported :
    ∀ outcome, state.engine.outcome? = some outcome →
      (beats.filterMap Beat.report?).getLast? =
        some ⟨path, state.engine.offset, false, outcome.message⟩

namespace Started

variable {tuning : Tuning} {path : String} {file : FileHandle} {uploaded : Nat} {calling : Bool}

theorem start
    (tuning : Tuning)
    (path : String)
    (file : FileHandle)
    (uploaded : Nat) :
    Started tuning path file uploaded [] ⟨(new tuning path file uploaded).start, false⟩ where
  tuning_eq := rfl
  path_eq := rfl
  file_eq := rfl
  begun := nofun
  calling := nofun
  offset := rfl
  finished := nofun
  reported := nofun

theorem begins
    {call : Call}
    (started : Started tuning path file uploaded beats ⟨engine, calling⟩)
    (due : engine.call? = some call) :
    Started tuning path file uploaded (beats ++ [.begins call]) ⟨engine, true⟩ where
  tuning_eq := started.tuning_eq
  path_eq := started.path_eq
  file_eq := started.file_eq
  begun := started.begun
  calling _ := by
    simp only [due, Option.isSome_some]
  offset := by
    rw [filterMap_concat]
    exact (List.append_nil _).symm ▸ started.offset
  finished := started.finished
  reported outcome ended := by
    rw [filterMap_concat]
    exact (List.append_nil _).symm ▸ started.reported outcome ended

theorem stop
    (started : Started tuning path file uploaded beats ⟨engine, calling⟩) :
    Started tuning path file uploaded (beats ++ [.stop]) ⟨engine.requestStop, calling⟩ where
  tuning_eq := started.tuning_eq
  path_eq := started.path_eq
  file_eq := started.file_eq
  begun := started.begun
  calling := started.calling
  offset := by
    rw [filterMap_concat]
    refine started.offset.trans ?_
    exact congrArg (min · file.size) (lastConfirmed_concat tuning.policy uploaded _ .stop).symm
  finished := started.finished
  reported outcome ended := by
    rw [filterMap_concat]
    exact (List.append_nil _).symm ▸ started.reported outcome ended

theorem offset_le (started : Started tuning path file uploaded beats ⟨engine, calling⟩) :
    engine.offset ≤ file.size :=
  Nat.le_trans (Nat.le_of_eq started.offset) (Nat.min_le_right _ _)

theorem acts
    (started : Started tuning path file uploaded beats ⟨engine, calling⟩)
    (step : Step engine act next) :
    Started tuning path file uploaded (beats ++ [.act act]) ⟨next, false⟩ where
  tuning_eq := step.tuning_eq.trans started.tuning_eq
  path_eq := step.path_eq.trans started.path_eq
  file_eq := step.file_eq.trans started.file_eq
  begun := step.begun
  calling := nofun
  offset := by
    have tuned : engine.tuning = tuning := started.tuning_eq
    have held : engine.file = file := started.file_eq
    have before : engine.offset = _ := started.offset
    rw [filterMap_concat]
    change next.offset = min (lastConfirmed _ _ (_ ++ [.act act])) _
    rw [lastConfirmed_concat, step.offset_eq, tuned]
    cases confirmed : act.confirmed? tuning.policy with
    | none => simpa only [Event.confirmed?, confirmed, Option.getD_none] using before
    | some offset => simp only [Event.confirmed?, confirmed, size, held, Option.getD_some]
  finished finished := by
    rcases step.concludes finished with before | concludes
    · obtain ⟨_, rfl⟩ := step.concluded before
      exact step.offset_eq.trans (started.finished before)
    · cases concludes with
      | finishes reached =>
          have held : engine.file = file := started.file_eq
          simp only [size, held] at reached
          exact step.offset_eq.trans (Nat.le_antisymm started.offset_le reached)
  reported outcome ended := by
    obtain ⟨_, rfl⟩ := step.last_report ended
    have here : engine.path = path := started.path_eq
    rw [filterMap_concat, here]
    exact List.getLast?_concat

theorem of_trace
    (run : Trace Beats ⟨(new tuning path file uploaded).start, false⟩ beats state) :
    Started tuning path file uploaded beats state := by
  induction run with
  | refl => exact .start tuning path file uploaded
  | snoc _ last started =>
      cases last with
      | begins due => exact started.begins due
      | act _ step => exact started.acts step
      | stop => exact started.stop

/-- An engine that has not ended can go on, whatever the world answers. -/
theorem goes_on
    (started : Started tuning path file uploaded beats state)
    (going : state.engine.outcome? = none) :
    ∃ beat after, beat.isOwn = true ∧ Beats state beat after := by
  obtain ⟨engine, calling⟩ := state
  have silent : engine.call? = none → calling = false := by
    intro none
    rw [Bool.eq_false_iff]
    intro called
    have due := started.calling called
    rw [none] at due
    cases due
  cases phase : engine.phase with
  | idle => exact absurd phase started.begun
  | creating =>
      cases calling with
      | false => exact ⟨.begins .create, _, rfl, .begins (by simp only [call?, phase])⟩
      | true => exact ⟨.act (.create (.error (.io ""))), _, rfl, .act rfl (.create phase _)⟩
  | sending content =>
      cases calling with
      | false => exact ⟨.begins .chunk, _, rfl, .begins (by simp only [call?, phase])⟩
      | true =>
          exact ⟨.act (.chunk engine.offset content (.error (.io ""))), _, rfl,
            .act rfl (.chunk phase _)⟩
  | resyncing =>
      cases calling with
      | false => exact ⟨.begins .status, _, rfl, .begins (by simp only [call?, phase])⟩
      | true => exact ⟨.act (.status (.error (.io ""))), _, rfl, .act rfl (.status phase _)⟩
  | pausingCreate =>
      exact ⟨.act .wait, _, rfl, .act (silent (by simp only [call?, phase])) (.retryCreate phase)⟩
  | checking =>
      exact ⟨.act .check, _, rfl, .act (silent (by simp only [call?, phase])) (.check phase)⟩
  | reading =>
      exact ⟨.act (.read (.ok [])), _, rfl,
        .act (silent (by simp only [call?, phase])) (.read phase _)⟩
  | backingOff =>
      exact ⟨.act .wait, _, rfl, .act (silent (by simp only [call?, phase])) (.backOff phase)⟩
  | accepted | refused | concluding =>
      obtain ⟨report, made⟩ : ∃ report, engine.report? = some report := by
        simp only [report?, phase]
        exact ⟨_, rfl⟩
      exact ⟨.act (.report report), _, rfl,
        .act (silent (by simp only [call?, phase])) (.report made)⟩
  | ended => simp only [outcome?, phase, reduceCtorEq] at going

end Started

/-! ## After the engine was told -/

/-- The engine has looked whether to stop, and the chunk call after that has not begun. -/
def Underway.Committed (state : Underway) : Prop :=
  state.engine.Committed ∧ state.calling = false

/-- An engine that was told to stop commits itself to no other chunk. -/
theorem Beats.committed
    (beats : Beats state beat after)
    (told : state.engine.stopRequested = true)
    (committed : after.Committed) :
    state.Committed ∧ beat.beginsChunk = false := by
  cases beats with
  | begins => cases committed.2
  | stop => exact ⟨committed, rfl⟩
  | act begun step =>
      have before := step.committed_of_told told committed.1
      refine ⟨⟨before, begun.trans ?_⟩, rfl⟩
      cases step with
      | chunk phase => exact absurd committed.1 (Step.committed_of_chunk (.chunk phase _)).2
      | read | check | report | retryCreate | backOff => rfl
      | create phase | status phase => simp only [Engine.Committed, phase] at before

/-- A chunk call only begins when the engine has committed itself to it. -/
theorem Beats.committed_of_chunk
    (beats : Beats state beat after)
    (chunk : beat.beginsChunk = true) :
    state.Committed ∧ ¬ after.Committed := by
  cases beats with
  | act | stop => cases chunk
  | @begins engine call due =>
      refine ⟨⟨?_, rfl⟩, fun committed => by cases committed.2⟩
      unfold call? at due
      split at due
      case h_1 => cases due; cases chunk
      case h_2 phase => simp only [Engine.Committed, phase]
      case h_3 => cases due; cases chunk
      case h_4 => cases due

theorem Beats.still_told
    (beats : Beats state beat after)
    (told : state.engine.stopRequested = true) :
    after.engine.stopRequested = true := by
  cases beats with
  | begins => exact told
  | act _ step => exact step.stopRequested_eq.trans told
  | stop => rfl

/-- At most one chunk call begins, and none unless the engine had committed itself to it. -/
theorem chunks_of_told
    (run : Trace Beats state beats final)
    (told : state.engine.stopRequested = true) :
    final.engine.stopRequested = true ∧ beats.countP Beat.beginsChunk ≤ 1 ∧
      (final.Committed → state.Committed ∧ beats.countP Beat.beginsChunk = 0) ∧
      (¬ state.Committed → beats.countP Beat.beginsChunk = 0) := by
  induction run with
  | refl => exact ⟨told, Nat.zero_le _, fun committed => ⟨committed, rfl⟩, fun _ => rfl⟩
  | @snoc beats middle final beat past last earlier =>
      obtain ⟨still, few, kept, none⟩ := earlier
      have counted :
          (beats ++ [beat]).countP Beat.beginsChunk =
            beats.countP Beat.beginsChunk + if beat.beginsChunk then 1 else 0 := by
        rw [List.countP_append, List.countP_singleton]
      rw [counted]
      refine ⟨last.still_told still, ?_⟩
      cases chunk : beat.beginsChunk with
      | true =>
          obtain ⟨committed, after⟩ := last.committed_of_chunk chunk
          obtain ⟨before, zero⟩ := kept committed
          rw [zero]
          exact ⟨Nat.le_refl _, fun again => absurd again after, fun free => absurd before free⟩
      | false =>
          refine ⟨few, fun committed => ?_, none⟩
          exact kept (last.committed still committed).1

/-! ## How long it takes -/

/-- How many beats an engine that was told to stop has left at most, with its call yet to begin. -/
def beatsLeft (engine : Engine) : Nat :=
  match engine.phase with
  | .idle | .ended _ => 0
  | .concluding _ => 1
  | .checking => 2
  | .accepted => 3
  | .resyncing => 4
  | .backingOff => 5
  | .refused _ => 6
  | .sending _ => 8
  | .reading => 9
  | .creating attempt => 3 * (engine.tuning.createLimit - attempt) + 4
  | .pausingCreate attempt => 3 * (engine.tuning.createLimit - (attempt + 1)) + 5

theorem beatsLeft_le (engine : Engine) :
    engine.beatsLeft ≤ 3 * engine.tuning.createLimit + 9 := by
  unfold beatsLeft
  split <;> omega

theorem beatsLeft_afterCreate
    (engine : Engine)
    (attempt : Nat)
    (answer : Answer CreateReply) :
    (engine.afterCreate attempt answer).beatsLeft + 2 ≤
      3 * (engine.tuning.createLimit - attempt) + 4 := by
  unfold afterCreate
  split
  · simp [beatsLeft]
  · simp [beatsLeft, fail]
  · split
    · simp only [beatsLeft]
      omega
    · simp [beatsLeft, fail]

theorem beatsLeft_afterChunk_le
    (engine : Engine)
    (answer : Answer StatusReply) :
    (engine.afterChunk answer).beatsLeft ≤ 6 := by
  unfold afterChunk
  split
  case h_1 reply _ =>
      by_cases left : (engine.adopt reply.uploaded).offset < engine.size
      · simp [accept_of_lt left, beatsLeft]
      · simp [accept_of_not_lt left, beatsLeft]
  case h_2 => simp [beatsLeft, fail]
  case h_3 =>
      unfold retreat
      split <;> simp [beatsLeft, fail]

theorem beatsLeft_afterStatus_le
    (engine : Engine)
    (answer : Answer StatusReply) :
    (engine.afterStatus answer).beatsLeft ≤ 2 := by
  unfold afterStatus
  split <;> simp [beatsLeft, fail]

theorem beatsLeft_afterReport
    {report : Report}
    (made : engine.report? = some report) :
    engine.afterReport.beatsLeft + 1 ≤ engine.beatsLeft := by
  unfold report? at made
  unfold afterReport
  split at made
  case h_1 phase | h_2 phase | h_3 phase => simp [beatsLeft, phase]
  case h_4 => cases made

/-- Told to stop, an engine that looks has its last report left. -/
theorem beatsLeft_check (told : engine.stopRequested = true) : engine.check.beatsLeft = 1 := by
  unfold check
  rw [told]
  split <;> rfl

/-- A call is two beats, anything else is one. -/
def Act.cost (act : Act) : Nat :=
  if act.isCall then 2 else 1

/-- Whatever an engine that was told to stop does brings it nearer to its end. -/
theorem Step.beatsLeft
    (step : Step engine act next)
    (told : engine.stopRequested = true) :
    next.beatsLeft + act.cost ≤ engine.beatsLeft := by
  cases step with
  | create phase answer =>
      rw [Engine.beatsLeft.eq_def engine, phase]
      exact engine.beatsLeft_afterCreate _ answer
  | retryCreate phase => simp [Engine.beatsLeft, phase, Act.cost, Act.isCall, afterCreatePause]
  | check phase =>
      rw [beatsLeft_check told, Engine.beatsLeft.eq_def, phase]
      exact Nat.le_refl _
  | read phase found =>
      cases found <;> simp [Engine.beatsLeft, phase, Act.cost, Act.isCall, afterRead, fail]
  | chunk phase answer =>
      rw [Engine.beatsLeft.eq_def engine, phase]
      exact Nat.add_le_add_right (engine.beatsLeft_afterChunk_le answer) 2
  | report made => exact beatsLeft_afterReport made
  | backOff phase => simp [Engine.beatsLeft, phase, Act.cost, Act.isCall, afterBackOff]
  | status phase answer =>
      rw [Engine.beatsLeft.eq_def engine, phase]
      exact Nat.add_le_add_right (engine.beatsLeft_afterStatus_le answer) 2

/-- How many beats are left at most; a call that has begun is one beat nearer to the end. -/
def Underway.left (state : Underway) : Nat :=
  state.engine.beatsLeft - if state.calling then 1 else 0

theorem beatsLeft_of_call?
    {call : Call}
    (due : engine.call? = some call) :
    1 ≤ engine.beatsLeft := by
  unfold call? at due
  unfold beatsLeft
  split at due
  case h_1 phase | h_2 phase | h_3 phase => simp only [phase]; omega
  case h_4 => cases due

theorem Beats.left_le
    (beats : Beats state beat after)
    (told : state.engine.stopRequested = true) :
    after.left + (if beat.isOwn then 1 else 0) ≤ state.left := by
  cases beats with
  | begins due =>
      have more := beatsLeft_of_call? due
      simp only [Underway.left, Beat.isOwn, ↓reduceIte, Bool.false_eq_true]
      omega
  | act begun step =>
      have less := step.beatsLeft told
      subst begun
      simp only [Underway.left, Beat.isOwn, ↓reduceIte, Bool.false_eq_true]
      unfold Act.cost at less
      split at less
      case isTrue call =>
          rw [if_pos call]
          omega
      case isFalse call =>
          rw [if_neg call]
          omega
  | stop => exact Nat.le_refl _

/-- An engine that was told to stop has only so many beats left. -/
theorem beats_of_told
    (run : Trace Beats state beats final)
    (told : state.engine.stopRequested = true) :
    final.left + beats.countP Beat.isOwn ≤ state.left := by
  induction run with
  | refl => exact Nat.le_refl _
  | snoc past last earlier =>
      have less := last.left_le (chunks_of_told past told).1
      rw [List.countP_append, List.countP_singleton]
      omega

/-! ## Why it ends -/

/-- The error that the answer of an act can end a run with. -/
def Act.failure? (tuning : Tuning) : Act → Option UploadError
  | .create answer =>
    match tuning.policy.classifyCreate answer with
    | .success _ => none
    | .fatal code => some (.rejected code "create rejected")
    | .retryable reason => some (.createFailed tuning.createLimit reason)
  | .read (.error error) => some (.unreadable error)
  | .chunk _ _ answer =>
    match tuning.policy.classify answer with
    | .success _ => none
    | .fatal code => some (.rejected code "chunk rejected")
    | .retryable _ => some .stalled
  | .status answer =>
    match tuning.policy.classify answer with
    | .fatal code => some (.rejected code "status query rejected")
    | .success _ | .retryable _ => none
  | .read (.ok _) | .report _ | .check | .wait => none

theorem Concludes.failure?_eq
    {error : UploadError}
    (concludes : Concludes engine act (.failed error)) :
    act.failure? engine.tuning = some error := by
  cases concludes with
  | notCreated judged | givesUp judged | rejected judged | stalls judged | lost judged =>
      simp only [Act.failure?, judged]
  | unreadable => rfl

theorem Beats.tuning_eq (beats : Beats state beat after) :
    after.engine.tuning = state.engine.tuning := by
  cases beats with
  | act _ step => exact step.tuning_eq
  | begins | stop => rfl

theorem Beats.size_eq (beats : Beats state beat after) :
    after.engine.size = state.engine.size := by
  cases beats with
  | act _ step => exact step.size_eq
  | begins | stop => rfl

theorem frame_of_beats (run : Trace Beats state beats final) :
    final.engine.tuning = state.engine.tuning ∧ final.engine.size = state.engine.size := by
  induction run with
  | refl => exact ⟨rfl, rfl⟩
  | snoc _ last same => exact ⟨last.tuning_eq.trans same.1, last.size_eq.trans same.2⟩

/-- An engine fails with what it had failed with before, or with what one of its acts brought. -/
theorem failure_of_beats
    {error : UploadError}
    (run : Trace Beats state beats final)
    (failed : final.engine.conclusion? = some (.failed error)) :
    state.engine.conclusion? = some (.failed error) ∨
      ∃ act, .act act ∈ beats ∧ act.failure? state.engine.tuning = some error := by
  induction run with
  | refl => exact .inl failed
  | @snoc beats middle final beat past last earlier =>
      have before
          (same : middle.engine.conclusion? = some (.failed error)) :
          state.engine.conclusion? = some (.failed error) ∨
            ∃ act, .act act ∈ beats ++ [beat] ∧
              act.failure? state.engine.tuning = some error := by
        rcases earlier same with already | ⟨act, member, brought⟩
        · exact .inl already
        · exact .inr ⟨act, List.mem_append_left _ member, brought⟩
      cases last with
      | begins | stop => exact before failed
      | act _ step =>
          rcases step.concludes failed with same | concludes
          · exact before same
          · refine .inr ⟨_, List.mem_append_right _ (List.mem_singleton_self _), ?_⟩
            rw [← (frame_of_beats past).1]
            exact concludes.failure?_eq

/-- Whatever is confirmed at the end was confirmed before, or by an answer to one of the calls. -/
theorem whole_of_beats
    (run : Trace Beats state beats final)
    (whole : final.engine.offset = state.engine.size) :
    state.engine.offset = state.engine.size ∨
      ∃ act uploaded, .act act ∈ beats ∧
        act.confirmed? state.engine.tuning.policy = some uploaded ∧
          state.engine.size ≤ uploaded := by
  induction run with
  | refl => exact .inl whole
  | @snoc beats middle final beat past last earlier =>
      have before
          (same : middle.engine.offset = state.engine.size) :
          state.engine.offset = state.engine.size ∨
            ∃ act uploaded, .act act ∈ beats ++ [beat] ∧
              act.confirmed? state.engine.tuning.policy = some uploaded ∧
                state.engine.size ≤ uploaded := by
        rcases earlier same with already | ⟨act, uploaded, member, brought⟩
        · exact .inl already
        · exact .inr ⟨act, uploaded, List.mem_append_left _ member, brought⟩
      cases last with
      | begins | stop => exact before whole
      | @act engine next act _ _ step =>
          obtain ⟨tuned, sized⟩ := frame_of_beats past
          have stands := step.offset_eq
          have ends : next.offset = state.engine.size := whole
          rw [show engine.tuning = _ from tuned, show engine.size = _ from sized] at stands
          cases confirmed : act.confirmed? state.engine.tuning.policy with
          | none =>
              simp only [confirmed] at stands
              exact before (stands.symm.trans ends)
          | some uploaded =>
              simp only [confirmed] at stands
              refine .inr ⟨act, uploaded, ?_, confirmed, ?_⟩
              · exact List.mem_append_right _ (List.mem_singleton_self _)
              · exact Nat.le_trans (Nat.le_of_eq (ends.symm.trans stands)) (Nat.min_le_left _ _)

/-! ## Stopping -/

/--
At whatever moment an engine is told to stop: at most one chunk call begins after that, and none
unless the engine had looked whether to stop and its chunk call had not begun.  The run comes to its
end within a bounded number of beats, whatever the world answers.  The last report pauses the entry
and tells the offset that was confirmed last.  The run ends stopped, unless all was confirmed
already or is confirmed by an answer that comes later, so that it finishes, or it had failed already
or fails by what a later act brings.
-/
theorem stop_ends_the_run
    {tuning : Tuning}
    {path : String}
    {file : FileHandle}
    {uploaded : Nat}
    {before later : List Beat}
    (run : Trace Beats ⟨(new tuning path file uploaded).start, false⟩ before told)
    (stopped : Trace Beats told (.stop :: later) final) :
    later.countP Beat.beginsChunk ≤ 1 ∧
      (¬ told.Committed → later.countP Beat.beginsChunk = 0) ∧
      later.countP Beat.isOwn ≤ 3 * tuning.createLimit + 9 ∧
      (final.engine.outcome? = none →
        ∃ beat after, beat.isOwn = true ∧ Beats final beat after) ∧
      ∀ outcome, final.engine.outcome? = some outcome →
        ((before ++ .stop :: later).filterMap Beat.report?).getLast? =
            some
              ⟨path,
                min
                  (lastConfirmed tuning.policy uploaded
                    ((before ++ .stop :: later).filterMap Beat.event?))
                  file.size,
                false, outcome.message⟩ ∧
          (outcome = .stopped ∧ outcome.message = "uploading is stopped" ∨
            outcome = .finished ∧
              (told.engine.offset = file.size ∨
                ∃ act confirmed, .act act ∈ later ∧
                  act.confirmed? tuning.policy = some confirmed ∧ file.size ≤ confirmed) ∨
            ∃ error, outcome = .failed error ∧
              (told.engine.conclusion? = some (.failed error) ∨
                ∃ act, .act act ∈ later ∧ act.failure? tuning = some error)) := by
  have begun := Started.of_trace run
  have ends := Started.of_trace (run.append stopped)
  obtain ⟨asked, head, tail⟩ := stopped.uncons rfl
  obtain ⟨engine, calling⟩ := told
  cases head with
  | stop =>
      have tuned : engine.requestStop.tuning = tuning := begun.tuning_eq
      have sized : engine.requestStop.size = file.size := congrArg FileHandle.size begun.file_eq
      obtain ⟨_, few, _, none⟩ := chunks_of_told tail rfl
      have short := beats_of_told tail rfl
      have bound := engine.requestStop.beatsLeft_le
      refine ⟨few, none, ?_, ends.goes_on, fun outcome ended => ⟨?_, ?_⟩⟩
      · rw [tuned] at bound
        simp only [Underway.left] at short
        omega
      · rw [← ends.offset]
        exact ends.reported outcome ended
      · have concluded := conclusion?_of_outcome? ended
        cases outcome with
        | stopped => exact .inl ⟨rfl, rfl⟩
        | finished =>
            have whole := whole_of_beats tail ((ends.finished concluded).trans sized.symm)
            simp only [tuned, sized] at whole
            exact .inr (.inl ⟨rfl, whole⟩)
        | failed error =>
            have cause := failure_of_beats tail concluded
            simp only [tuned] at cause
            exact .inr (.inr ⟨error, rfl, cause⟩)

/-- An engine that is told while its chunk call is under way takes its answer in, and stops. -/
theorem told_during_chunk_call :
    let tuning := Config.tuning { chunkLength := 1 }
    let file : FileHandle := ⟨0, .ofBytes [7, 8, 9]⟩
    ∃ before later told final,
      Trace Beats ⟨(new tuning "a" file 0).start, false⟩ before told ∧
        Trace Beats told (.stop :: later) final ∧
        told.engine.call? = some .chunk ∧ told.calling = true ∧
        later.countP Beat.beginsChunk = 0 ∧ final.engine.outcome? = some .stopped ∧
        ((before ++ .stop :: later).filterMap Beat.report?).getLast? =
          some ⟨"a", 1, false, "uploading is stopped"⟩ := by
  intro tuning file
  let before : List Beat :=
    [.begins .create, .act (.create (.ok (Response.success ⟨"a", 3⟩))), .act .check,
      .act (.read (.ok [7])), .begins .chunk]
  let later : List Beat :=
    [.act (.chunk 0 (Base64.encode [7]) (.ok (Response.success ⟨"a", 1, 3⟩))),
      .act (.report ⟨"a", 1, true, ""⟩), .act .check,
      .act (.report ⟨"a", 1, false, "uploading is stopped"⟩)]
  have first :
      (before.foldlM beat? ⟨(new tuning "a" file 0).start, false⟩).map
          (fun told => (told.engine.call?, told.calling)) =
        some (some .chunk, true) := by
    decide
  obtain ⟨told, reached, facts⟩ := Option.map_eq_some_iff.mp first
  obtain ⟨due, calling⟩ := Prod.mk.inj facts
  have second :
      ((before ++ .stop :: later).foldlM beat? ⟨(new tuning "a" file 0).start, false⟩).map
          (·.engine.outcome?) =
        some (some .stopped) := by
    decide
  rw [List.foldlM_append, reached] at second
  obtain ⟨final, ended, outcome⟩ := Option.map_eq_some_iff.mp second
  have run := Trace.of_foldlM Beats beats_of_beat? reached
  have stopped := Trace.of_foldlM Beats beats_of_beat? ended
  obtain ⟨_, none, _, _, ends⟩ := stop_ends_the_run run stopped
  refine ⟨before, later, told, final, run, stopped, due, calling, ?_, outcome, ?_⟩
  · refine none fun committed => ?_
    rw [committed.2] at calling
    cases calling
  · exact (ends .stopped outcome).1

/--
An engine that has nothing to send finishes, although it was told to stop before it began: the
create call is answered, but no call confirms anything.
-/
theorem nothing_left_to_stop :
    let tuning := Config.tuning {}
    let file : FileHandle := ⟨0, .ofBytes [7, 8]⟩
    ∃ later final,
      Trace Beats ⟨(new tuning "a" file 2).start, false⟩ (.stop :: later) final ∧
        final.engine.outcome? = some .finished ∧ final.engine.outcome? ≠ some .stopped ∧
        (.stop :: later).filterMap Beat.report? = [⟨"a", 2, false, ""⟩] ∧
        ∀ act, .act act ∈ later →
          act.confirmed? tuning.policy = none ∧ act.failure? tuning = none := by
  intro tuning file
  let later : List Beat :=
    [.begins .create, .act (.create (.ok (Response.success ⟨"a", 2⟩))), .act .check,
      .act (.report ⟨"a", 2, false, ""⟩)]
  have finished :
      ((.stop :: later).foldlM beat? ⟨(new tuning "a" file 2).start, false⟩).map
          (·.engine.outcome?) =
        some (some .finished) := by
    decide
  obtain ⟨final, ended, outcome⟩ := Option.map_eq_some_iff.mp finished
  refine ⟨later, final, Trace.of_foldlM Beats beats_of_beat? ended, outcome, ?_, rfl, ?_⟩
  · rw [outcome]
    decide
  · intro act member
    simp only [later, List.mem_cons, List.not_mem_nil, reduceCtorEq, Beat.act.injEq, false_or,
      or_false] at member
    rcases member with rfl | rfl | rfl <;> exact ⟨rfl, rfl⟩

end ResumableUpload.Engine
