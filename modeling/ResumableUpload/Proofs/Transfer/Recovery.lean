import ResumableUpload.Proofs.Endpoint.Held
import ResumableUpload.Proofs.Transfer.Termination

/-!
# Recovery from bytes that the endpoint has lost

An engine can start beyond the end of what the endpoint has stored.  Its first chunk then leaves a gap
and is refused; the engine asks how far the endpoint is, goes back there and sends the rest.  It only
does so if its chunks can be shortened: one that starts at the floor takes the gap for a stall.

Until it has asked, an engine is `Ahead` of the endpoint, and from then on it is `Level` with it, as is
an engine that starts where the stored bytes end.  A level engine sends one piece after another, and
every piece begins where the one before it ended.
-/

namespace ResumableUpload.Transfer

open ResumableUpload.Endpoint

variable {engine next : Engine} {endpoint after : Endpoint} {act : Engine.Act} {bytes : Bytes}
variable {path : String}

/-! ## Runs in which nothing is lost -/

/-- The steps of a transfer in which every call is answered and the engine is not told to stop. -/
inductive Smooth : Transfer → Move → Transfer → Prop where
  | act {engine next : Engine} {endpoint after : Endpoint} {act : Engine.Act}
      (served : serve? engine endpoint = some (act, after))
      (step : Engine.Step engine act next) :
      Smooth ⟨engine, endpoint⟩ (.act act) ⟨next, after⟩
  | elsewhere {engine : Engine} {endpoint after : Endpoint}
      (elsewhere : endpoint.Elsewhere engine.path after) :
      Smooth ⟨engine, endpoint⟩ .elsewhere ⟨engine, after⟩

theorem smooth_of_advance?
    {transfer next : Transfer}
    (advanced : transfer.advance? false = some next) :
    ∃ move, Smooth transfer move next := by
  obtain ⟨⟨act, endpoint⟩, served, stepped⟩ := Option.bind_eq_some_iff.mp advanced
  obtain ⟨engine, done, rfl⟩ := Option.map_eq_some_iff.mp stepped
  exact ⟨.act act, .act served (Engine.step_of_act? done)⟩

/-- The transfer after so many things that the engine does. -/
def advanceBy? : Nat → Transfer → Option Transfer
  | 0, transfer => some transfer
  | steps + 1, transfer => (transfer.advance? false).bind (advanceBy? steps)

theorem smooth_of_advanceBy?
    {transfer final : Transfer}
    {steps : Nat}
    (advanced : advanceBy? steps transfer = some final) :
    ∃ moves, Trace Smooth transfer moves final := by
  induction steps generalizing transfer with
  | zero =>
      cases advanced
      exact ⟨[], .refl⟩
  | succ steps continued =>
      obtain ⟨following, first, rest⟩ := Option.bind_eq_some_iff.mp advanced
      obtain ⟨move, smooth⟩ := smooth_of_advance? first
      obtain ⟨moves, run⟩ := continued rest
      exact ⟨[move] ++ moves, (Trace.snoc .refl smooth).append run⟩

/-- The offset that a status call brings in an act. -/
def resynced? (policy : Policy) (act : Engine.Act) : Option Nat :=
  match act with
  | .status _ => act.confirmed? policy
  | _ => none

/-- The offsets that the status calls of a run have brought. -/
def resyncs (policy : Policy) (moves : List Move) : List Nat :=
  moves.filterMap fun move => move.act?.bind (resynced? policy)

/-- An engine that has started and not ended can go on. -/
theorem exists_serve?
    (endpoint : Endpoint)
    (begun : engine.phase ≠ .idle)
    (going : engine.hasEnded = false) :
    ∃ act after next,
      serve? engine endpoint = some (act, after) ∧ Engine.Step engine act next := by
  cases phase : engine.phase with
  | idle => exact absurd phase begun
  | ended outcome =>
      simp only [Engine.hasEnded, Engine.outcome?, phase, Option.isSome_some] at going
      cases going
  | creating attempt =>
      simp only [serve?, phase]
      exact ⟨_, _, _, rfl, .create phase _⟩
  | pausingCreate attempt =>
      simp only [serve?, phase]
      exact ⟨_, _, _, rfl, .retryCreate phase⟩
  | checking =>
      simp only [serve?, phase]
      exact ⟨_, _, _, rfl, .check phase⟩
  | reading =>
      simp only [serve?, phase]
      exact ⟨_, _, _, rfl, .read phase _⟩
  | sending content =>
      simp only [serve?, phase]
      exact ⟨_, _, _, rfl, .chunk phase _⟩
  | backingOff =>
      simp only [serve?, phase]
      exact ⟨_, _, _, rfl, .backOff phase⟩
  | resyncing =>
      simp only [serve?, phase]
      exact ⟨_, _, _, rfl, .status phase _⟩
  | accepted | refused reason | concluding outcome =>
      have made : engine.report?.isSome = true := by
        simp only [Engine.report?, phase, Option.isSome_some]
      obtain ⟨report, made⟩ := Option.isSome_iff_exists.mp made
      simp only [serve?, phase, made, Option.map_some]
      exact ⟨_, _, _, rfl, .report made⟩

/-- A client that leaves the path alone does not change what an engine has yet to do. -/
theorem remaining_eq
    (agrees : AgreesOn engine.path endpoint after)
    (unscripted : endpoint.Unscripted)
    (still : after.Unscripted) :
    remaining engine after = remaining engine endpoint := by
  have none_left : after.cannedLeft = endpoint.cannedLeft := by
    simp only [cannedLeft, unscripted.chunk, unscripted.status, still.chunk, still.status]
  have same : after.pendingLength? engine.path = endpoint.pendingLength? engine.path := by
    simp only [pendingLength?, agrees.partial?_eq]
  simp only [remaining, missing, gap, none_left, same]

/-! ## Ahead of the endpoint, and level with it -/

/-- The engine stands beyond what is stored, and can shorten its chunks when it finds out. -/
def Ahead (stored : Nat) (engine : Engine) (endpoint : Endpoint) : Prop :=
  stored < engine.offset ∧ engine.offset < engine.size ∧
    match engine.phase with
    | .creating _ =>
      endpoint.stored engine.path = stored ∧ engine.tuning.pace.floor < engine.chunkLength
    | .checking | .reading | .sending _ =>
      endpoint.pendingLength? engine.path = some stored ∧
        engine.tuning.pace.floor < engine.chunkLength
    | .refused _ | .backingOff | .resyncing =>
      endpoint.pendingLength? engine.path = some stored
    | _ => False

/-- The engine stands where the stored bytes end, or has sent all of its file. -/
def Level (engine : Engine) (endpoint : Endpoint) : Prop :=
  match engine.phase with
  | .creating _ => endpoint.stored engine.path = engine.offset
  | .checking =>
    engine.offset < engine.size → endpoint.pendingLength? engine.path = some engine.offset
  | .reading | .sending _ | .accepted =>
    endpoint.pendingLength? engine.path = some engine.offset
  | .concluding outcome | .ended outcome => outcome = .finished
  | _ => False

/-- What holds of a transfer in which nothing is lost and the engine is not told to stop. -/
structure Untroubled (bytes : Bytes) (engine : Engine) (endpoint : Endpoint) : Prop where
  driven : Driven bytes engine endpoint
  unscripted : endpoint.Unscripted
  unstopped : engine.stopRequested = false

namespace Untroubled

theorem step
    (untroubled : Untroubled bytes engine endpoint)
    (step : Engine.Step engine act next)
    (served : serve? engine endpoint = some (act, after)) :
    Untroubled bytes next after where
  driven := untroubled.driven.step step served
  unscripted := (served_of_serve? served).unscripted untroubled.unscripted
  unstopped := step.stopRequested_eq.trans untroubled.unstopped

theorem elsewhere
    (untroubled : Untroubled bytes engine endpoint)
    (elsewhere : endpoint.Elsewhere engine.path after) :
    Untroubled bytes engine after where
  driven :=
    { faithful :=
        untroubled.driven.faithful.agreesOn elsewhere.agreesOn
      exactly := untroubled.driven.exactly
      patient := untroubled.driven.patient
      fails := (elsewhere.unscripted untroubled.unscripted).onlyFails }
  unscripted := elsewhere.unscripted untroubled.unscripted
  unstopped := untroubled.unstopped

theorem check_eq
    (untroubled : Untroubled bytes engine endpoint)
    (left : engine.offset < engine.size) :
    engine.check = { engine with phase := .reading } := by
  simp only [Engine.check, left, untroubled.unstopped, Bool.false_eq_true, ↓reduceIte]

/-- With each act of the engine there is less left to do. -/
theorem remaining_add_le
    {transfer following : Transfer}
    {move : Move}
    (untroubled : Untroubled bytes transfer.engine transfer.endpoint)
    (smooth : Smooth transfer move following) :
    move.act?.toList.length + remaining following.engine following.endpoint ≤
      remaining transfer.engine transfer.endpoint := by
  cases smooth with
  | act served step =>
      rw [Nat.add_comm]
      exact untroubled.driven.remaining_lt step served
  | elsewhere elsewhere =>
      have same := remaining_eq elsewhere.agreesOn untroubled.unscripted
        (elsewhere.unscripted untroubled.unscripted)
      exact Nat.le_of_eq ((Nat.zero_add _).trans same)

end Untroubled

/-! ## What the engine is answered -/

theorem afterCreate_created
    {status : Nat}
    {body : Option CreateReply}
    (engine : Engine)
    (attempt : Nat)
    (created : Status.isCreated status = true) :
    engine.afterCreate attempt (.ok ⟨status, body⟩) = { engine with phase := .checking } := by
  simp only [Engine.afterCreate, Policy.classifyCreate, created, ↓reduceIte]

/-- A chunk that is refused for a gap is sent again shorter, if it can be. -/
theorem afterChunk_gap
    (survives : engine.tuning.policy.isFatal 416 = false)
    (room : engine.tuning.pace.floor < engine.chunkLength) :
    engine.afterChunk (.ok ⟨416, none⟩) =
      { engine with
        chunkLength := engine.tuning.pace.shrink engine.chunkLength
        phase := .refused (Policy.unexpected 416) } := by
  have judged :
      engine.tuning.policy.classify (.ok ⟨416, none⟩ : Answer StatusReply) =
        .retryable (Policy.unexpected 416) := by
    simp only [Policy.classify, survives, Bool.false_eq_true, ↓reduceIte]
    rfl
  simp only [Engine.afterChunk, judged, Engine.retreat, if_neg (Nat.not_le_of_lt room)]

namespace Ahead

variable {stored : Nat}

/-- An engine that is ahead of the endpoint stays so until it is told what is stored. -/
theorem step
    (ahead : Ahead stored engine endpoint)
    (untroubled : Untroubled bytes engine endpoint)
    (survives : engine.tuning.policy.isFatal 416 = false)
    (step : Engine.Step engine act next)
    (served : serve? engine endpoint = some (act, after)) :
    (resynced? engine.tuning.policy act = none ∧ Ahead stored next after) ∨
      (resynced? engine.tuning.policy act = some stored ∧ Level next after) := by
  obtain ⟨beyond, left, stands⟩ := ahead
  have faithful := untroubled.driven.faithful
  cases step with
  | create phase answer =>
      simp only [phase] at stands
      simp only [serve?, phase] at served
      cases served
      rw [faithful.size_eq]
      obtain ⟨⟨status, body, given, created⟩, begins⟩ :=
        create_begins untroubled.unscripted faithful.partway
      rw [given, afterCreate_created _ _ created]
      refine .inl ⟨rfl, beyond, left, ?_, stands.2⟩
      rw [begins, stands.1]
  | check phase =>
      simp only [phase] at stands
      simp only [serve?, phase] at served
      cases served
      rw [untroubled.check_eq left]
      exact .inl ⟨rfl, beyond, left, stands⟩
  | read phase found =>
      simp only [phase] at stands
      simp only [serve?, phase] at served
      cases served
      rw [faithful.holds.read_chunk left]
      exact .inl ⟨rfl, beyond, left, stands⟩
  | chunk phase answer =>
      simp only [phase] at stands
      simp only [serve?, phase] at served
      cases served
      obtain ⟨piece, rfl, _⟩ := faithful.piece phase
      obtain ⟨refused, still⟩ := chunk_beyond untroubled.unscripted stands.1 beyond piece
      rw [refused, afterChunk_gap survives stands.2]
      exact .inl ⟨rfl, beyond, left, still⟩
  | report made =>
      obtain rfl := endpoint_of_report served
      simp only [Engine.report?] at made
      split at made
      case h_1 phase => simp only [phase] at stands
      case h_2 phase =>
          simp only [phase] at stands
          simp only [Engine.afterReport, phase]
          exact .inl ⟨rfl, beyond, left, stands⟩
      case h_3 phase => simp only [phase] at stands
      case h_4 => cases made
  | backOff phase =>
      simp only [phase] at stands
      simp only [serve?, phase] at served
      cases served
      exact .inl ⟨rfl, beyond, left, stands⟩
  | status phase answer =>
      simp only [phase] at stands
      simp only [serve?, phase] at served
      cases served
      obtain ⟨size, told, still⟩ := status_tells untroubled.unscripted stands
      rw [told, afterStatus_success]
      have adopted : min stored engine.size = stored :=
        Nat.min_eq_left (Nat.le_of_lt (Nat.lt_trans beyond left))
      refine .inr ⟨?_, ?_⟩
      · simp only [resynced?, Engine.Act.confirmed?, classify_success]
      · intro _
        simp only [Engine.adopt, adopted]
        exact still
  | retryCreate phase => simp only [phase] at stands

theorem agreesOn
    (ahead : Ahead stored engine endpoint)
    (agrees : AgreesOn engine.path endpoint after) :
    Ahead stored engine after := by
  simp only [Ahead, Endpoint.stored, pendingLength?, agrees.partial?_eq] at ahead ⊢
  exact ahead

end Ahead

namespace Level

/-- A chunk that leaves no gap is appended, and the engine goes on where the stored bytes then end. -/
theorem of_chunk
    {content : String}
    {stored : Nat}
    (found : endpoint.pendingLength? engine.path = some stored)
    (reached : engine.offset ≤ stored)
    (untroubled : Untroubled bytes engine endpoint)
    (phase : engine.phase = .sending content) :
    let next := engine.afterChunk (endpoint.chunk engine.path content engine.offset).2
    Level next (endpoint.chunk engine.path content engine.offset).1 ∧
      next.offset = max stored engine.chunkLast := by
  obtain ⟨faithful, exactly, _, _⟩ := untroubled.driven
  obtain ⟨left, rfl⟩ := exactly.sending phase
  have size := exactly.size
  have beyond := exactly.offset_lt_chunkLast (Nat.le_refl 1) left
  have within : engine.chunkLast ≤ engine.size := Nat.min_le_right _ _
  have below : stored < bytes.length := faithful.partway.pendingLength?_lt found
  have last :
      engine.offset + (bytes.slice engine.offset engine.chunkLast).length = engine.chunkLast := by
    rw [Bytes.length_slice]
    omega
  have fits :
      engine.offset + (bytes.slice engine.offset engine.chunkLast).length ≤ bytes.length := by
    omega
  obtain ⟨answer, stands⟩ :=
    chunk_overlaps untroubled.unscripted faithful.partway found reached fits
  rw [last] at answer stands
  have grown : max stored engine.chunkLast ≤ engine.size := by omega
  have adopted :
      (engine.adopt (max stored engine.chunkLast)).offset = max stored engine.chunkLast :=
    Nat.min_eq_left grown
  dsimp only
  rw [answer, afterChunk_success]
  by_cases lacking : max stored engine.chunkLast < engine.size
  · rw [Engine.accept_of_lt (by rwa [adopted])]
    exact ⟨(stands (size ▸ lacking)).trans (congrArg some adopted.symm), adopted⟩
  · rw [Engine.accept_of_not_lt (by rwa [adopted])]
    exact ⟨fun below => absurd (adopted ▸ below) lacking, adopted⟩

/-- A chunk that begins where the stored bytes end is appended there, and the engine goes on behind it. -/
theorem chunk
    {content : String}
    (level : Level engine endpoint)
    (untroubled : Untroubled bytes engine endpoint)
    (phase : engine.phase = .sending content) :
    let next := engine.afterChunk (endpoint.chunk engine.path content engine.offset).2
    Level next (endpoint.chunk engine.path content engine.offset).1 ∧
      next.offset = engine.chunkLast := by
  simp only [Level, phase] at level
  have exactly := untroubled.driven.exactly
  have beyond := exactly.offset_lt_chunkLast (Nat.le_refl 1) (exactly.sending phase).1
  have sent := of_chunk level (Nat.le_refl _) untroubled phase
  rwa [Nat.max_eq_right (Nat.le_of_lt beyond)] at sent

/-- An engine that is level with the endpoint stays so until it has sent all of its file. -/
theorem step
    (level : Level engine endpoint)
    (untroubled : Untroubled bytes engine endpoint)
    (step : Engine.Step engine act next)
    (served : serve? engine endpoint = some (act, after)) :
    resynced? engine.tuning.policy act = none ∧ Level next after := by
  cases step with
  | create phase answer =>
      simp only [Level, phase] at level
      simp only [serve?, phase] at served
      cases served
      have faithful := untroubled.driven.faithful
      rw [faithful.size_eq]
      obtain ⟨⟨status, body, given, created⟩, begins⟩ :=
        create_begins untroubled.unscripted faithful.partway
      rw [given, afterCreate_created _ _ created]
      exact ⟨rfl, fun _ => begins.trans (congrArg some level)⟩
  | check phase =>
      simp only [Level, phase] at level
      simp only [serve?, phase] at served
      cases served
      by_cases left : engine.offset < engine.size
      · rw [untroubled.check_eq left]
        exact ⟨rfl, level left⟩
      · simp only [Engine.check, left, ↓reduceIte]
        exact ⟨rfl, rfl⟩
  | read phase found =>
      have left := untroubled.driven.exactly.reading phase
      simp only [Level, phase] at level
      simp only [serve?, phase] at served
      cases served
      rw [untroubled.driven.faithful.holds.read_chunk left]
      exact ⟨rfl, level⟩
  | chunk phase answer =>
      simp only [serve?, phase] at served
      cases served
      exact ⟨rfl, (level.chunk untroubled phase).1⟩
  | report made =>
      obtain rfl := endpoint_of_report served
      simp only [Engine.report?] at made
      split at made
      case h_1 phase =>
          simp only [Level, phase] at level
          simp only [Engine.afterReport, phase]
          exact ⟨rfl, fun _ => level⟩
      case h_2 phase => simp only [Level, phase] at level
      case h_3 phase =>
          simp only [Level, phase] at level
          simp only [Engine.afterReport, phase]
          exact ⟨rfl, level⟩
      case h_4 => cases made
  | retryCreate phase | backOff phase | status phase =>
      simp only [Level, phase] at level

/-- Nothing but a chunk moves it on. -/
theorem offset_eq
    (level : Level engine endpoint)
    (step : Engine.Step engine act next)
    (unsending : ∀ content, engine.phase ≠ .sending content) :
    next.offset = engine.offset := by
  have stands := step.offset_eq
  cases step with
  | chunk phase => exact absurd phase (unsending _)
  | status phase => simp only [Level, phase] at level
  | create | retryCreate | check | read | report | backOff => exact stands

theorem agreesOn
    (level : Level engine endpoint)
    (agrees : AgreesOn engine.path endpoint after) :
    Level engine after := by
  simp only [Level, Endpoint.stored, pendingLength?, agrees.partial?_eq] at level ⊢
  exact level

/-- An engine that begins where the stored bytes end is level with the endpoint. -/
theorem start
    (tuning : Tuning)
    {file : FileHandle}
    (below : endpoint.stored path < file.size) :
    Level (Engine.new tuning path file (endpoint.stored path)).start endpoint :=
  (Nat.min_eq_left (Nat.le_of_lt below)).symm

end Level

/-! ## Whole runs -/

/-- What holds of a transfer that started beyond what the endpoint has stored. -/
structure Recovering (bytes : Bytes) (stored : Nat) (brought : List Nat) (transfer : Transfer) :
    Prop where
  untroubled : Untroubled bytes transfer.engine transfer.endpoint
  /-- A gap does not end the upload for good. -/
  survives : transfer.engine.tuning.policy.isFatal 416 = false
  stands :
    (brought = [] ∧ Ahead stored transfer.engine transfer.endpoint) ∨
      (brought = [stored] ∧ Level transfer.engine transfer.endpoint)

namespace Recovering

variable {transfer following : Transfer} {stored : Nat} {brought : List Nat} {move : Move}

theorem step
    (recovering : Recovering bytes stored brought transfer)
    (smooth : Smooth transfer move following) :
    Recovering bytes stored
      (brought ++ (move.act?.bind (resynced? transfer.engine.tuning.policy)).toList)
      following := by
  have untroubled := recovering.untroubled
  cases smooth with
  | act served step =>
      refine ⟨untroubled.step step served, step.tuning_eq ▸ recovering.survives, ?_⟩
      rcases recovering.stands with ⟨rfl, ahead⟩ | ⟨rfl, level⟩
      · rcases ahead.step untroubled recovering.survives step served with ⟨silent, still⟩ | ⟨told, level⟩
        · refine .inl ⟨?_, still⟩
          rw [Move.act?, Option.bind_some, silent]
          rfl
        · refine .inr ⟨?_, level⟩
          rw [Move.act?, Option.bind_some, told]
          rfl
      · obtain ⟨silent, still⟩ := level.step untroubled step served
        refine .inr ⟨?_, still⟩
        rw [Move.act?, Option.bind_some, silent]
        rfl
  | elsewhere elsewhere =>
      have agrees := elsewhere.agreesOn
      refine ⟨untroubled.elsewhere elsewhere, recovering.survives, ?_⟩
      rw [Move.act?, Option.bind_none, Option.toList_none, List.append_nil]
      rcases recovering.stands with ⟨none_brought, ahead⟩ | ⟨once, level⟩
      · exact .inl ⟨none_brought, ahead.agreesOn agrees⟩
      · exact .inr ⟨once, level.agreesOn agrees⟩

theorem phase_ne_idle (recovering : Recovering bytes stored brought transfer) :
    transfer.engine.phase ≠ .idle := by
  intro idle
  rcases recovering.stands with ⟨_, _, _, ahead⟩ | ⟨_, level⟩
  · simp only [idle] at ahead
  · simp only [Level, idle] at level

/-- An engine that has ended was told what is stored, and has sent all of its file since. -/
theorem ended
    (recovering : Recovering bytes stored brought transfer)
    (ended : transfer.engine.hasEnded = true) :
    brought = [stored] ∧ transfer.engine.outcome? = some .finished ∧
      transfer.endpoint.completed? transfer.engine.path = some bytes := by
  have faithful := recovering.untroubled.driven.faithful
  simp only [Engine.hasEnded, Engine.outcome?] at ended
  split at ended
  case h_1 outcome phase =>
      rcases recovering.stands with ⟨_, _, _, ahead⟩ | ⟨once, level⟩
      · simp only [phase] at ahead
      · simp only [Level, phase] at level
        subst level
        have whole := faithful.ordered
        simp only [Engine.Ordered, phase, faithful.size_eq] at whole
        refine ⟨once, ?_, faithful.whole (Nat.le_of_eq whole.symm)⟩
        simp only [Engine.outcome?, phase]
  case h_2 => cases ended

end Recovering

theorem Smooth.kept
    {transfer following : Transfer}
    {move : Move}
    (smooth : Smooth transfer move following) :
    following.engine.path = transfer.engine.path ∧
      following.engine.tuning = transfer.engine.tuning := by
  cases smooth with
  | act _ step => exact ⟨step.path_eq, step.tuning_eq⟩
  | elsewhere => exact ⟨rfl, rfl⟩

/-- The acts of the engine in a run. -/
def acts (moves : List Move) : List Engine.Act :=
  moves.filterMap Move.act?

theorem recovering_of_trace
    {transfer final : Transfer}
    {moves : List Move}
    {stored : Nat}
    (recovering : Recovering bytes stored [] transfer)
    (run : Trace Smooth transfer moves final) :
    final.engine.path = transfer.engine.path ∧
      final.engine.tuning = transfer.engine.tuning ∧
      Recovering bytes stored (resyncs transfer.engine.tuning.policy moves) final ∧
      (acts moves).length + remaining final.engine final.endpoint ≤
        remaining transfer.engine transfer.endpoint := by
  induction run with
  | refl => exact ⟨rfl, rfl, recovering, Nat.le_of_eq (Nat.zero_add _)⟩
  | snoc _ last held =>
      obtain ⟨path, tuning, reached, count⟩ := held
      obtain ⟨same, unchanged⟩ := last.kept
      have further := reached.step last
      have less := reached.untroubled.remaining_add_le last
      refine ⟨same.trans path, unchanged.trans tuning, ?_, ?_⟩
      · rw [tuning] at further
        rw [resyncs, filterMap_concat]
        exact further
      · rw [acts, filterMap_concat, List.length_append]
        unfold acts at count
        omega

/-- An engine that starts beyond what is stored is ahead of the endpoint. -/
theorem recovering_start
    {config : Config}
    {file : FileHandle}
    {uploaded : Nat}
    (valid : config.check = .ok ())
    (room : config.chunkLengthFloor < config.chunkLength)
    (survives : 416 ∉ config.fatalStatuses)
    (holds : file.Holds bytes)
    (unscripted : endpoint.Unscripted)
    (partway : endpoint.Partway path bytes)
    (beyond : endpoint.stored path < uploaded)
    (proper : uploaded < bytes.length) :
    Recovering bytes (endpoint.stored path) []
      ⟨(Engine.new config.tuning path file uploaded).start, endpoint⟩ := by
  have stands : min uploaded file.size = uploaded :=
    Nat.min_eq_left (Nat.le_of_lt (holds.size ▸ proper))
  refine ⟨?_, ?_, ?_⟩
  · exact
      { driven :=
          .start (Config.keeps_one valid) holds proper partway unscripted.onlyFails
        unscripted := unscripted
        unstopped := rfl }
  · simpa only [Engine.start, Engine.new, Config.tuning, Config.tuningWith, Config.policy,
      Policy.isFatal, List.contains_eq_mem, decide_eq_false_iff_not] using survives
  · refine .inl ⟨rfl, ?_, ?_, rfl, ?_⟩
    · simp only [Engine.start, Engine.new, stands]
      exact beyond
    · simp only [Engine.start, Engine.new, Engine.size, holds.size]
      exact Nat.lt_of_le_of_lt (Nat.min_le_left _ _) proper
    · exact Nat.lt_of_lt_of_le room (Nat.le_max_left _ _)

/--
Let an engine begin beyond what the endpoint has stored of its upload, with chunks that are longer
than the floor, where a gap is not fatal.  If no call is lost and nobody stops it, it ends after
finitely many steps, whatever other clients do to other paths: it is told once how much is stored, has
finished, and the completed upload is the file.
-/
theorem lost_bytes_are_sent_again
    {config : Config}
    {path : String}
    {file : FileHandle}
    {uploaded : Nat}
    {endpoint : Endpoint}
    (valid : config.check = .ok ())
    (room : config.chunkLengthFloor < config.chunkLength)
    (survives : 416 ∉ config.fatalStatuses)
    (holds : file.Holds bytes)
    (unscripted : endpoint.Unscripted)
    (partway : endpoint.Partway path bytes)
    (beyond : endpoint.stored path < uploaded)
    (proper : uploaded < bytes.length) :
    ∃ bound, ∀ {moves : List Move} {final : Transfer},
      Trace Smooth ⟨(Engine.new config.tuning path file uploaded).start, endpoint⟩ moves final →
        (acts moves).length ≤ bound ∧
        (final.engine.hasEnded = false →
          ∃ act following, Smooth final (.act act) following) ∧
        (final.engine.hasEnded = true →
          resyncs config.policy moves = [endpoint.stored path] ∧
            final.engine.outcome? = some .finished ∧
            final.endpoint.completed? path = some bytes) := by
  refine ⟨remaining (Engine.new config.tuning path file uploaded).start endpoint, ?_⟩
  intro moves final run
  have begun := recovering_start valid room survives holds unscripted partway beyond proper
  obtain ⟨same, _, recovering, count⟩ := recovering_of_trace begun run
  refine ⟨Nat.le_trans (Nat.le_add_right _ _) count, ?_, ?_⟩
  · intro going
    obtain ⟨act, after, next, served, step⟩ :=
      exists_serve? final.endpoint recovering.phase_ne_idle going
    exact ⟨act, ⟨next, after⟩, .act served step⟩
  · intro ended
    obtain ⟨once, finished, completed⟩ := recovering.ended ended
    rw [same] at completed
    exact ⟨once, finished, completed⟩

/-- The endpoint has lost the second of two bytes, and is sent it again. -/
theorem lost_byte_is_sent_again :
    let config : Config := { chunkLength := 2 }
    let file : FileHandle := ⟨0, .ofBytes [7, 8, 9]⟩
    let endpoint : Endpoint := { pending := [⟨"a", 3, [7]⟩] }
    ∃ moves final,
      config.check = .ok () ∧ config.chunkLengthFloor < config.chunkLength ∧
        416 ∉ config.fatalStatuses ∧ file.Holds [7, 8, 9] ∧ endpoint.Unscripted ∧
        endpoint.Partway "a" [7, 8, 9] ∧ endpoint.stored "a" < 2 ∧
        Trace Smooth ⟨(Engine.new config.tuning "a" file 2).start, endpoint⟩ moves final ∧
        resyncs config.policy moves = [1] ∧ final.engine.outcome? = some .finished ∧
        final.endpoint.completed? "a" = some [7, 8, 9] := by
  intro config file endpoint
  have valid : config.check = .ok () := Config.check_eq_ok_iff.mpr (by decide)
  have room : config.chunkLengthFloor < config.chunkLength := by decide
  have survives : 416 ∉ config.fatalStatuses := by decide
  have holds : file.Holds [7, 8, 9] := FileHandle.holds_ofBytes 0 [7, 8, 9]
  have unscripted : endpoint.Unscripted := ⟨rfl, rfl, rfl⟩
  have partway : endpoint.Partway "a" [7, 8, 9] := by
    unfold Endpoint.Partway
    decide
  have beyond : endpoint.stored "a" < 2 := by decide
  have arrived :
      (advanceBy? 16 ⟨(Engine.new config.tuning "a" file 2).start, endpoint⟩).map
        (·.engine.hasEnded) = some true := by
    decide
  obtain ⟨final, advanced, ended⟩ := Option.map_eq_some_iff.mp arrived
  obtain ⟨moves, run⟩ := smooth_of_advanceBy? advanced
  obtain ⟨_, recovers⟩ :=
    lost_bytes_are_sent_again valid room survives holds unscripted partway beyond (by decide)
  obtain ⟨_, _, concludes⟩ := recovers run
  obtain ⟨once, finished, completed⟩ := concludes ended
  exact ⟨moves, final, valid, room, survives, holds, unscripted, partway, beyond, run, once,
    finished, completed⟩

/--
An engine whose chunks have the length of the floor cannot shorten them, and so takes the gap for a
stall before it asks what is stored.
-/
theorem floor_takes_gap_for_stall :
    let config : Config := { chunkLength := 1 }
    let file : FileHandle := ⟨0, .ofBytes [7, 8]⟩
    let endpoint : Endpoint := {}
    ∃ moves final,
      config.check = .ok () ∧ 416 ∉ config.fatalStatuses ∧ file.Holds [7, 8] ∧
        endpoint.Unscripted ∧ endpoint.Partway "a" [7, 8] ∧ endpoint.stored "a" < 1 ∧
        Trace Smooth ⟨(Engine.new config.tuning "a" file 1).start, endpoint⟩ moves final ∧
        final.engine.outcome? = some (.failed .stalled) ∧
        final.endpoint.completed? "a" = none := by
  intro config file endpoint
  have valid : config.check = .ok () := Config.check_eq_ok_iff.mpr (by decide)
  have holds : file.Holds [7, 8] := FileHandle.holds_ofBytes 0 [7, 8]
  have partway : endpoint.Partway "a" [7, 8] := by
    unfold Endpoint.Partway
    decide
  have stalled :
      (advanceBy? 5 ⟨(Engine.new config.tuning "a" file 1).start, endpoint⟩).map
        (fun final => (final.engine.outcome?, final.endpoint.completed? "a")) =
          some (some (.failed .stalled), none) := by
    decide
  obtain ⟨final, advanced, facts⟩ := Option.map_eq_some_iff.mp stalled
  obtain ⟨outcome, nothing⟩ := Prod.mk.inj facts
  obtain ⟨moves, run⟩ := smooth_of_advanceBy? advanced
  exact ⟨moves, final, valid, by decide, holds, ⟨rfl, rfl, rfl⟩, partway, by decide, run, outcome,
    nothing⟩

end ResumableUpload.Transfer
