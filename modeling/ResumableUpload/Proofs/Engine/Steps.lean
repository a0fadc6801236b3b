import ResumableUpload.Engine

/-!
# Steps of an engine

What an engine does next is given by its phase; what comes of it is up to the world.  `Engine.Step`
says which steps an engine can take, labelled with what the world sees of it and answers: any answer
to a call, any bytes or failure of a read.  A stop can be requested between any two steps.

`Engine.Ordered` is what holds of the offset in every phase, `Engine.Leads` tells which phases an
act can lead to, and `Engine.Concludes` what a run can conclude with, and on which act.
-/

namespace ResumableUpload

namespace Engine

/-- One thing that an engine does, with what the world answers. -/
inductive Act where
  | create (answer : Answer CreateReply)
  | read (bytes : Except ReadError Bytes)
  | chunk (offset : Nat) (content : String) (answer : Answer StatusReply)
  | status (answer : Answer StatusReply)
  | report (report : Report)
  /-- Looks whether all is sent and whether it was told to stop. -/
  | check
  /-- Lets a wait pass. -/
  | wait

/-- Whether an act is a call of the endpoint. -/
def Act.isCall : Act → Bool
  | .create _ | .chunk .. | .status _ => true
  | .read _ | .report _ | .check | .wait => false

/-- The report that an act makes. -/
def Act.report? : Act → Option Report
  | .report made => some made
  | _ => none

/-- The steps of an engine. -/
inductive Step : Engine → Act → Engine → Prop where
  | create {engine : Engine} {attempt : Nat}
      (phase : engine.phase = .creating attempt)
      (answer : Answer CreateReply) :
      Step engine (.create answer) (engine.afterCreate attempt answer)
  | retryCreate {engine : Engine} {attempt : Nat}
      (phase : engine.phase = .pausingCreate attempt) :
      Step engine .wait (engine.afterCreatePause attempt)
  | check {engine : Engine}
      (phase : engine.phase = .checking) :
      Step engine .check engine.check
  | read {engine : Engine}
      (phase : engine.phase = .reading)
      (bytes : Except ReadError Bytes) :
      Step engine (.read bytes) (engine.afterRead bytes)
  | chunk {engine : Engine} {content : String}
      (phase : engine.phase = .sending content)
      (answer : Answer StatusReply) :
      Step engine (.chunk engine.offset content answer) (engine.afterChunk answer)
  | report {engine : Engine} {report : Report}
      (made : engine.report? = some report) :
      Step engine (.report report) engine.afterReport
  | backOff {engine : Engine}
      (phase : engine.phase = .backingOff) :
      Step engine .wait engine.afterBackOff
  | status {engine : Engine}
      (phase : engine.phase = .resyncing)
      (answer : Answer StatusReply) :
      Step engine (.status answer) (engine.afterStatus answer)

/-- The engine after an act, if it can do that. -/
def act? (engine : Engine) (act : Act) : Option Engine :=
  match engine.phase, act with
  | .creating attempt, .create answer => some (engine.afterCreate attempt answer)
  | .pausingCreate attempt, .wait => some (engine.afterCreatePause attempt)
  | .checking, .check => some engine.check
  | .reading, .read bytes => some (engine.afterRead bytes)
  | .sending content, .chunk offset sent answer =>
    if offset = engine.offset ∧ sent = content then some (engine.afterChunk answer) else none
  | .backingOff, .wait => some engine.afterBackOff
  | .resyncing, .status answer => some (engine.afterStatus answer)
  | _, .report report => if engine.report? = some report then some engine.afterReport else none
  | _, _ => none

theorem step_of_act?
    {engine next : Engine}
    {act : Act}
    (done : engine.act? act = some next) :
    Step engine act next := by
  unfold act? at done
  split at done
  case h_1 phase => cases done; exact .create phase _
  case h_2 phase => cases done; exact .retryCreate phase
  case h_3 phase => cases done; exact .check phase
  case h_4 phase => cases done; exact .read phase _
  case h_5 phase =>
      split at done
      case isTrue same =>
          obtain ⟨rfl, rfl⟩ := same
          cases done
          exact .chunk phase _
      case isFalse => cases done
  case h_6 phase => cases done; exact .backOff phase
  case h_7 phase => cases done; exact .status phase _
  case h_8 =>
      split at done
      case isTrue made => cases done; exact .report made
      case isFalse => cases done
  case h_9 => cases done

theorem Step.act?_eq
    {engine next : Engine}
    {act : Act}
    (step : Step engine act next) :
    engine.act? act = some next := by
  cases step with
  | create phase => simp only [act?, phase]
  | retryCreate phase => simp only [act?, phase]
  | check phase => simp only [act?, phase]
  | read phase => simp only [act?, phase]
  | chunk phase => simp only [act?, phase, and_self, if_true]
  | report made =>
      cases phase : engine.phase <;> simp only [act?, phase, made, if_true]
  | backOff phase => simp only [act?, phase]
  | status phase => simp only [act?, phase]

/-- What an engine does, with the answer that it is given, leads to one engine only. -/
theorem Step.next_eq
    {engine next other : Engine}
    {act : Act}
    (step : Step engine act next)
    (also : Step engine act other) :
    next = other :=
  Option.some.inj (step.act?_eq.symm.trans also.act?_eq)

/-! ## What a step leaves alone -/

/-- A step changes only the phase, the offset and the length of the chunks. -/
theorem Step.frame
    {engine next : Engine}
    {act : Act}
    (step : Step engine act next) :
    ∃ offset chunkLength phase,
      next =
        { engine with offset := offset, chunkLength := chunkLength, phase := phase } := by
  cases step with
  | create phase answer =>
      unfold afterCreate
      split
      · exact ⟨_, _, _, rfl⟩
      · exact ⟨_, _, _, rfl⟩
      · split <;> exact ⟨_, _, _, rfl⟩
  | retryCreate phase => exact ⟨_, _, _, rfl⟩
  | check phase =>
      unfold Engine.check
      split
      · split <;> exact ⟨_, _, _, rfl⟩
      · exact ⟨_, _, _, rfl⟩
  | read phase bytes => cases bytes <;> exact ⟨_, _, _, rfl⟩
  | chunk phase answer =>
      unfold afterChunk
      split
      · exact ⟨_, _, _, rfl⟩
      · exact ⟨_, _, _, rfl⟩
      · unfold retreat
        split <;> exact ⟨_, _, _, rfl⟩
  | report made => unfold afterReport; split <;> exact ⟨_, _, _, rfl⟩
  | backOff phase => exact ⟨_, _, _, rfl⟩
  | status phase answer => unfold afterStatus; split <;> exact ⟨_, _, _, rfl⟩

theorem Step.path_eq
    {engine next : Engine}
    {act : Act}
    (step : Step engine act next) :
    next.path = engine.path := by
  obtain ⟨_, _, _, rfl⟩ := step.frame
  rfl

theorem Step.file_eq
    {engine next : Engine}
    {act : Act}
    (step : Step engine act next) :
    next.file = engine.file := by
  obtain ⟨_, _, _, rfl⟩ := step.frame
  rfl

theorem Step.size_eq
    {engine next : Engine}
    {act : Act}
    (step : Step engine act next) :
    next.size = engine.size := by
  simp only [size, step.file_eq]

theorem Step.stopRequested_eq
    {engine next : Engine}
    {act : Act}
    (step : Step engine act next) :
    next.stopRequested = engine.stopRequested := by
  obtain ⟨_, _, _, rfl⟩ := step.frame
  rfl

/-- An engine that has made its final report takes no step. -/
theorem Step.not_ended
    {engine next : Engine}
    {act : Act}
    (step : Step engine act next) :
    engine.hasEnded = false := by
  cases step <;> simp_all [hasEnded, outcome?, report?]
  split at * <;> simp_all

/-! ## Where the offset stands -/

@[simp]
theorem adopt_size
    (engine : Engine)
    (uploaded : Nat) :
    (engine.adopt uploaded).size = engine.size :=
  rfl

theorem accept_of_lt
    {engine : Engine}
    {uploaded : Nat}
    (below : (engine.adopt uploaded).offset < engine.size) :
    engine.accept uploaded =
      { engine.adopt uploaded with
        chunkLength := engine.tuning.pace.grow engine.chunkLength
        phase := .accepted } := by
  simp only [accept, adopt_size, below, ↓reduceIte]

theorem accept_of_not_lt
    {engine : Engine}
    {uploaded : Nat}
    (reached : ¬ (engine.adopt uploaded).offset < engine.size) :
    engine.accept uploaded =
      { engine.adopt uploaded with
        chunkLength := engine.tuning.pace.grow engine.chunkLength
        phase := .checking } := by
  simp only [accept, adopt_size, reached, ↓reduceIte]

/--
The offset is below the size as long as there is something to send, at the size once the transfer
has finished, and an engine that stops was told to.
-/
def Ordered (engine : Engine) : Prop :=
  match engine.phase with
  | .checking => engine.offset ≤ engine.size
  | .concluding .finished | .ended .finished => engine.offset = engine.size
  | .concluding .stopped | .ended .stopped =>
    engine.offset < engine.size ∧ engine.stopRequested = true
  | _ => engine.offset < engine.size

theorem ordered_start
    (tuning : Tuning)
    (path : String)
    (file : FileHandle)
    {uploaded : Nat}
    (below : uploaded < file.size) :
    (new tuning path file uploaded).start.Ordered := by
  simp only [Ordered, start, new, size]
  omega

theorem Ordered.requestStop
    {engine : Engine}
    (ordered : engine.Ordered) :
    engine.requestStop.Ordered := by
  unfold Ordered at ordered ⊢
  simp only [Engine.requestStop, size] at ordered ⊢
  split at ordered <;> simp_all

theorem Ordered.step
    {engine next : Engine}
    {act : Act}
    (ordered : engine.Ordered)
    (step : Step engine act next) :
    next.Ordered := by
  cases step with
  | create phase answer =>
      simp only [Ordered, phase] at ordered
      unfold afterCreate
      split
      · exact Nat.le_of_lt ordered
      · exact ordered
      · split <;> exact ordered
  | retryCreate phase =>
      simp only [Ordered, phase] at ordered
      exact ordered
  | check phase =>
      simp only [Ordered, phase] at ordered
      unfold Engine.check
      split
      case isTrue below =>
          split
          case isTrue requested => exact ⟨below, requested⟩
          case isFalse => exact below
      case isFalse reached =>
          exact Nat.le_antisymm ordered (Nat.le_of_not_lt reached)
  | read phase bytes =>
      simp only [Ordered, phase] at ordered
      cases bytes <;> exact ordered
  | chunk phase answer =>
      simp only [Ordered, phase] at ordered
      unfold afterChunk
      split
      case h_1 reply _ =>
          by_cases below : (engine.adopt reply.uploaded).offset < engine.size
          · rw [accept_of_lt below]
            exact below
          · rw [accept_of_not_lt below]
            exact Nat.min_le_right _ _
      case h_2 => exact ordered
      case h_3 =>
          unfold retreat
          split <;> exact ordered
  | report made =>
      unfold afterReport
      unfold Ordered at ordered
      split
      case h_1 phase => simp only [phase] at ordered; exact Nat.le_of_lt ordered
      case h_2 phase => simp only [phase] at ordered; exact ordered
      case h_3 outcome phase =>
          cases outcome <;> simp only [phase] at ordered <;> exact ordered
      case h_4 => exact ordered
  | backOff phase =>
      simp only [Ordered, phase] at ordered
      exact ordered
  | status phase answer =>
      simp only [Ordered, phase] at ordered
      unfold afterStatus
      split
      · exact Nat.min_le_right _ _
      · exact ordered
      · exact Nat.le_of_lt ordered

/-! ## What an act can lead to -/

/-- The phases that an engine can come to by an act. -/
inductive Leads (engine : Engine) : Act → Phase → Prop where
  | created {answer : Answer CreateReply} :
      Leads engine (.create answer) .checking
  | notCreated {answer : Answer CreateReply} {attempt : Nat}
      (below : attempt < engine.tuning.createLimit) :
      Leads engine (.create answer) (.pausingCreate attempt)
  | tries {attempt : Nat} :
      Leads engine .wait (.creating attempt)
  | reads
      (left : engine.offset < engine.size)
      (unstopped : engine.stopRequested = false) :
      Leads engine .check .reading
  | sends {piece : Bytes} :
      Leads engine (.read (.ok piece)) (.sending (Base64.encode piece))
  | accepts {offset : Nat} {content : String} {answer : Answer StatusReply} :
      Leads engine (.chunk offset content answer) .accepted
  | completes {offset : Nat} {content : String} {answer : Answer StatusReply} :
      Leads engine (.chunk offset content answer) .checking
  | refuses {offset : Nat} {content : String} {answer : Answer StatusReply} {reason : String} :
      Leads engine (.chunk offset content answer) (.refused reason)
  | goesOn {report : Report} :
      Leads engine (.report report) .checking
  | backsOff {report : Report} :
      Leads engine (.report report) .backingOff
  | resyncs :
      Leads engine .wait .resyncing
  | resynced {answer : Answer StatusReply} :
      Leads engine (.status answer) .checking
  | concludes {act : Act} {outcome : Outcome} :
      Leads engine act (.concluding outcome)
  | ends {report : Report} {outcome : Outcome}
      (last : report.runnable = false) :
      Leads engine (.report report) (.ended outcome)

theorem leads_afterChunk
    (engine : Engine)
    (offset : Nat)
    (content : String)
    (answer : Answer StatusReply) :
    Leads engine (.chunk offset content answer) (engine.afterChunk answer).phase := by
  unfold afterChunk
  split
  case h_1 reply _ =>
      by_cases below : (engine.adopt reply.uploaded).offset < engine.size
      · rw [accept_of_lt below]
        exact .accepts
      · rw [accept_of_not_lt below]
        exact .completes
  case h_2 => exact .concludes
  case h_3 =>
      unfold retreat
      split
      · exact .concludes
      · exact .refuses

theorem Step.leads
    {engine next : Engine}
    {act : Act}
    (step : Step engine act next) :
    Leads engine act next.phase := by
  cases step with
  | create =>
      unfold afterCreate
      split
      case h_1 => exact .created
      case h_2 => exact .concludes
      case h_3 =>
          split
          case isTrue below => exact .notCreated below
          case isFalse => exact .concludes
  | retryCreate => exact .tries
  | check =>
      unfold Engine.check
      split
      case isTrue left =>
          split
          case isTrue => exact .concludes
          case isFalse unstopped => exact .reads left (eq_false_of_ne_true unstopped)
      case isFalse => exact .concludes
  | read _ found =>
      cases found with
      | ok piece => exact .sends
      | error => exact .concludes
  | chunk => exact leads_afterChunk _ _ _ _
  | report made =>
      unfold report? at made
      unfold afterReport
      split at made
      case h_1 => exact .goesOn
      case h_2 => exact .backsOff
      case h_3 => cases made; exact .ends rfl
      case h_4 => cases made
  | backOff => exact .resyncs
  | status =>
      unfold afterStatus
      split
      · exact .resynced
      · exact .concludes
      · exact .resynced

theorem Step.begun
    {engine next : Engine}
    {act : Act}
    (step : Step engine act next) :
    next.phase ≠ .idle := by
  intro idle
  have leads := step.leads
  rw [idle] at leads
  cases leads

/-- An engine only has a chunk to send right after it has read it. -/
theorem Step.sending
    {engine next : Engine}
    {act : Act}
    {content : String}
    (step : Step engine act next)
    (sending : next.phase = .sending content) :
    ∃ piece,
      act = .read (.ok piece) ∧ engine.phase = .reading ∧
        next = { engine with phase := .sending (Base64.encode piece) } := by
  have leads := step.leads
  rw [sending] at leads
  cases leads with
  | @sends piece =>
      cases step with
      | read phase => exact ⟨piece, rfl, phase, rfl⟩

/-! ## Opening and reporting -/

/-- The engine has yet to open its upload. -/
def Opening (engine : Engine) : Prop :=
  match engine.phase with
  | .creating _ | .pausingCreate _ => True
  | _ => False

/-- An engine that has opened its upload does not go back. -/
theorem Step.opening
    {engine next : Engine}
    {act : Act}
    (step : Step engine act next)
    (opening : next.Opening) :
    engine.Opening ∧ act.report? = none := by
  have leads := step.leads
  unfold Opening at opening
  split at opening
  case h_1 phase =>
      rw [phase] at leads
      cases leads
      cases step with
      | retryCreate before => simp only [Opening, before, Act.report?, and_self]
      | backOff => cases phase
  case h_2 phase =>
      rw [phase] at leads
      cases leads
      cases step with
      | create before => simp only [Opening, before, Act.report?, and_self]
  case h_3 => exact opening.elim

theorem report?_eq_some
    {engine : Engine}
    {report : Report}
    (made : engine.report? = some report) :
    report.path = engine.path ∧ report.uploaded = engine.offset := by
  unfold report? at made
  split at made <;> cases made <;> exact ⟨rfl, rfl⟩

theorem Step.report_made
    {engine next : Engine}
    {report : Report}
    (step : Step engine (.report report) next) :
    engine.report? = some report ∧ next = engine.afterReport := by
  cases step with
  | report made => exact ⟨made, rfl⟩

/-- Only the final report can confirm all of the file. -/
theorem Ordered.report_below
    {engine : Engine}
    {report : Report}
    (ordered : engine.Ordered)
    (made : engine.report? = some report)
    (going : engine.afterReport.hasEnded = false) :
    report.uploaded < engine.size := by
  rw [(report?_eq_some made).2]
  unfold report? at made
  unfold afterReport at going
  unfold Ordered at ordered
  split at made
  case h_1 phase => simpa only [phase] using ordered
  case h_2 phase => simpa only [phase] using ordered
  case h_3 phase =>
      simp only [phase] at going
      cases going
  case h_4 => cases made

/-- Once all of the file is sent nothing is sent again. -/
theorem Ordered.offset_below
    {engine next : Engine}
    {act : Act}
    (ordered : engine.Ordered)
    (step : Step engine act next)
    (below : next.offset < next.size) :
    engine.offset < engine.size := by
  cases step with
  | create phase => simpa only [Ordered, phase] using ordered
  | retryCreate phase => simpa only [Ordered, phase] using ordered
  | read phase => simpa only [Ordered, phase] using ordered
  | chunk phase => simpa only [Ordered, phase] using ordered
  | backOff phase => simpa only [Ordered, phase] using ordered
  | status phase => simpa only [Ordered, phase] using ordered
  | check =>
      unfold Engine.check at below
      split at below
      · split at below <;> exact below
      · exact below
  | report =>
      unfold afterReport at below
      split at below <;> exact below

/-- Only an engine that was told to stop, or fails, ends before all of the file is sent. -/
theorem Ordered.report_lasting
    {engine : Engine}
    {report : Report}
    (ordered : engine.Ordered)
    (made : engine.report? = some report)
    (unstopped : engine.offset < engine.size → engine.stopRequested = false)
    (unfailed :
      engine.offset < engine.size → ∀ error, engine.phase ≠ .concluding (.failed error)) :
    report.runnable = true ∨ engine.size ≤ report.uploaded := by
  rw [(report?_eq_some made).2]
  unfold report? at made
  unfold Ordered at ordered
  split at made
  case h_1 =>
      cases made
      exact .inl rfl
  case h_2 =>
      cases made
      exact .inl rfl
  case h_3 outcome phase =>
      cases outcome with
      | finished =>
          simp only [phase] at ordered
          exact .inr (Nat.le_of_eq ordered.symm)
      | stopped =>
          simp only [phase] at ordered
          rw [unstopped ordered.1] at ordered
          cases ordered.2
      | failed error =>
          simp only [phase] at ordered
          exact absurd phase (unfailed ordered error)
  case h_4 => cases made

/-! ## Concluding -/

/-- The outcome of an engine that has nothing left to do but to make its final report, if that. -/
def conclusion? (engine : Engine) : Option Outcome :=
  match engine.phase with
  | .concluding outcome | .ended outcome => some outcome
  | _ => none

theorem conclusion?_of_outcome?
    {engine : Engine}
    {outcome : Outcome}
    (ended : engine.outcome? = some outcome) :
    engine.conclusion? = some outcome := by
  unfold outcome? at ended
  split at ended
  case h_1 phase =>
      cases ended
      simp only [conclusion?, phase]
  case h_2 => cases ended

theorem stage_of_conclusion?
    {engine : Engine}
    {outcome : Outcome}
    (concluded : engine.conclusion? = some outcome) :
    engine.stage = .ofOutcome outcome := by
  unfold conclusion? at concluded
  split at concluded
  case h_1 phase | h_2 phase =>
      cases concluded
      simp only [stage, phase]
  case h_3 => cases concluded

/-- An observer sees a stage that nothing follows as soon as a run has concluded, and not before. -/
theorem isTerminal_stage (engine : Engine) :
    engine.stage.isTerminal = engine.conclusion?.isSome := by
  unfold stage conclusion?
  cases engine.phase with
  | concluding outcome | ended outcome => cases outcome <;> rfl
  | _ => rfl

/-- All that is left to do then is to report the outcome. -/
theorem Step.concluded
    {engine next : Engine}
    {act : Act}
    {outcome : Outcome}
    (step : Step engine act next)
    (concluded : engine.conclusion? = some outcome) :
    next.conclusion? = some outcome ∧
      act = .report ⟨engine.path, engine.offset, false, outcome.message⟩ := by
  cases step with
  | report made =>
      unfold report? at made
      split at made
      case h_1 phase => simp only [conclusion?, phase, reduceCtorEq] at concluded
      case h_2 phase => simp only [conclusion?, phase, reduceCtorEq] at concluded
      case h_3 phase =>
          simp only [conclusion?, phase, Option.some.injEq] at concluded
          subst concluded
          cases made
          simp only [afterReport, phase, conclusion?, and_self]
      case h_4 => cases made
  | create phase | retryCreate phase | check phase | read phase | chunk phase | backOff phase
    | status phase =>
      simp only [conclusion?, phase, reduceCtorEq] at concluded

/-- Why an act concludes a run with this outcome. -/
inductive Concludes (engine : Engine) : Act → Outcome → Prop where
  | finishes
      (reached : engine.size ≤ engine.offset) :
      Concludes engine .check .finished
  | stops
      (left : engine.offset < engine.size)
      (told : engine.stopRequested = true) :
      Concludes engine .check .stopped
  | notCreated {answer : Answer CreateReply} {status : Nat}
      (judged : engine.tuning.policy.classifyCreate answer = .fatal status) :
      Concludes engine (.create answer) (.failed (.rejected status "create rejected"))
  | givesUp {answer : Answer CreateReply} {reason : String}
      (judged : engine.tuning.policy.classifyCreate answer = .retryable reason) :
      Concludes engine (.create answer) (.failed (.createFailed engine.tuning.createLimit reason))
  | unreadable (error : ReadError) :
      Concludes engine (.read (.error error)) (.failed (.unreadable error))
  | rejected {offset : Nat} {content : String} {answer : Answer StatusReply} {status : Nat}
      (judged : engine.tuning.policy.classify answer = .fatal status) :
      Concludes engine (.chunk offset content answer) (.failed (.rejected status "chunk rejected"))
  | stalls {offset : Nat} {content : String} {answer : Answer StatusReply} {reason : String}
      (judged : engine.tuning.policy.classify answer = .retryable reason)
      (short : engine.chunkLength ≤ engine.tuning.pace.floor) :
      Concludes engine (.chunk offset content answer) (.failed .stalled)
  | lost {answer : Answer StatusReply} {status : Nat}
      (judged : engine.tuning.policy.classify answer = .fatal status) :
      Concludes engine (.status answer) (.failed (.rejected status "status query rejected"))

/-- An engine that has concluded after an act had done so before, or the act is the reason. -/
theorem Step.concludes
    {engine next : Engine}
    {act : Act}
    {outcome : Outcome}
    (step : Step engine act next)
    (concluded : next.conclusion? = some outcome) :
    engine.conclusion? = some outcome ∨ Concludes engine act outcome := by
  cases step with
  | create =>
      unfold afterCreate at concluded
      split at concluded
      case h_1 => cases concluded
      case h_2 judged =>
          cases concluded
          exact .inr (.notCreated judged)
      case h_3 judged =>
          split at concluded
          case isTrue => cases concluded
          case isFalse =>
              cases concluded
              exact .inr (.givesUp judged)
  | retryCreate => cases concluded
  | check =>
      unfold Engine.check at concluded
      split at concluded
      case isTrue left =>
          split at concluded
          case isTrue told =>
              cases concluded
              exact .inr (.stops left told)
          case isFalse => cases concluded
      case isFalse reached =>
          cases concluded
          exact .inr (.finishes (Nat.le_of_not_lt reached))
  | read _ found =>
      cases found with
      | ok => cases concluded
      | error error =>
          cases concluded
          exact .inr (.unreadable error)
  | chunk _ answer =>
      unfold afterChunk at concluded
      split at concluded
      case h_1 reply _ =>
          by_cases left : (engine.adopt reply.uploaded).offset < engine.size
          · rw [accept_of_lt left] at concluded
            cases concluded
          · rw [accept_of_not_lt left] at concluded
            cases concluded
      case h_2 judged =>
          cases concluded
          exact .inr (.rejected judged)
      case h_3 judged =>
          unfold retreat at concluded
          split at concluded
          case isTrue short =>
              cases concluded
              exact .inr (.stalls judged short)
          case isFalse => cases concluded
  | report =>
      unfold afterReport at concluded
      split at concluded
      case h_1 => cases concluded
      case h_2 => cases concluded
      case h_3 phase =>
          cases concluded
          exact .inl (by simp only [conclusion?, phase])
      case h_4 => exact .inl concluded
  | backOff => cases concluded
  | status =>
      unfold afterStatus at concluded
      split at concluded
      case h_1 => cases concluded
      case h_2 judged =>
          cases concluded
          exact .inr (.lost judged)
      case h_3 => cases concluded

/-! ## Ending, and being told to stop -/

/-- An engine ends with a report after which its entry is paused. -/
theorem Step.ends
    {engine next : Engine}
    {act : Act}
    (step : Step engine act next)
    (ended : next.hasEnded = true) :
    ∃ report, act = .report report ∧ report.path = engine.path ∧ report.runnable = false := by
  have leads := step.leads
  unfold hasEnded outcome? at ended
  split at ended
  case h_1 phase =>
      rw [phase] at leads
      cases leads with
      | @ends report _ last =>
          exact ⟨report, rfl, (report?_eq_some step.report_made.1).1, last⟩
  case h_2 => cases ended

/-- After such a report the engine has ended. -/
theorem Step.hasEnded_of_report
    {engine next : Engine}
    {report : Report}
    (step : Step engine (.report report) next)
    (last : report.runnable = false) :
    next.hasEnded = true := by
  obtain ⟨made, rfl⟩ := step.report_made
  unfold report? at made
  split at made
  case h_1 => cases made; cases last
  case h_2 => cases made; cases last
  case h_3 outcome phase =>
      unfold afterReport
      simp only [phase]
      rfl
  case h_4 => cases made

/-- The engine has looked whether it was told to stop and has not sent its chunk since. -/
def Committed (engine : Engine) : Prop :=
  match engine.phase with
  | .reading | .sending _ => True
  | _ => False

/-- A chunk is only sent after a look whether to stop, and there is a new look before the next. -/
theorem Step.committed_of_chunk
    {engine next : Engine}
    {offset : Nat}
    {content : String}
    {answer : Answer StatusReply}
    (step : Step engine (.chunk offset content answer) next) :
    engine.Committed ∧ ¬ next.Committed := by
  have leads := step.leads
  constructor
  · cases step with
    | chunk phase => simp only [Committed, phase]
  · intro committed
    unfold Committed at committed
    split at committed
    case h_1 phase =>
        rw [phase] at leads
        cases leads
    case h_2 phase =>
        rw [phase] at leads
        cases leads
    case h_3 => exact committed.elim

/-- An engine that was told to stop does not begin to read another chunk. -/
theorem Step.committed_of_told
    {engine next : Engine}
    {act : Act}
    (step : Step engine act next)
    (told : engine.stopRequested = true)
    (committed : next.Committed) :
    engine.Committed := by
  have leads := step.leads
  unfold Committed at committed
  split at committed
  case h_1 phase =>
      rw [phase] at leads
      cases leads with
      | reads _ unstopped =>
          rw [told] at unstopped
          cases unstopped
  case h_2 phase =>
      obtain ⟨_, _, reading, _⟩ := step.sending phase
      simp only [Committed, reading]
  case h_3 => exact committed.elim

end Engine

end ResumableUpload
