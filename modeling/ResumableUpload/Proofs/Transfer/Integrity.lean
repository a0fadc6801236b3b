import ResumableUpload.Proofs.Transfer.Steps

/-!
# Integrity of a transfer

Whatever a lossy network does to the calls of an engine, the endpoint only ever holds a prefix of the
file under its path, and once the engine has finished it holds the file.  `Faithful` is what holds of
the engine and of the endpoint together: a chunk on its way is a piece of the file that starts where
the engine stands, the path is opened as soon as the engine has left its create calls behind, and an
engine that stands at the end of the file has seen it completed.
-/

namespace ResumableUpload

/-! ## What an answer must have been -/

theorem Policy.classify_eq_success
    {α : Type}
    {policy : Policy}
    {answer : Answer α}
    {body : α}
    (judged : policy.classify answer = .success body) :
    ∃ status, answer = .ok ⟨status, some body⟩ := by
  unfold classify at judged
  split at judged
  case h_1 => cases judged
  case h_2 status found =>
      cases found with
      | none =>
          dsimp only at judged
          split at judged
          · cases judged
          · split at judged <;> cases judged
      | some given =>
          dsimp only at judged
          split at judged
          · cases judged
            exact ⟨status, rfl⟩
          · split at judged <;> cases judged

theorem Policy.classifyCreate_eq_success
    {α : Type}
    {policy : Policy}
    {answer : Answer α}
    {body : Option α}
    (judged : policy.classifyCreate answer = .success body) :
    ∃ status, answer = .ok ⟨status, body⟩ ∧ Status.isCreated status = true := by
  unfold classifyCreate at judged
  split at judged
  case h_1 => cases judged
  case h_2 status found =>
      split at judged
      case isTrue created =>
          cases judged
          exact ⟨status, rfl, created⟩
      case isFalse => split at judged <;> cases judged

namespace Transfer

variable {engine next : Engine} {endpoint after : Endpoint} {act : Engine.Act} {bytes : Bytes}

theorem Lost.ne_success
    {answer : Answer StatusReply}
    {status : Nat}
    {reply : StatusReply}
    (lost : Lost answer) :
    answer ≠ .ok ⟨status, some reply⟩ := by
  rintro rfl
  cases lost

theorem LostCreate.ne_created
    {answer : Answer CreateReply}
    {status : Nat}
    {body : Option CreateReply}
    (lost : LostCreate answer)
    (created : Status.isCreated status = true) :
    answer ≠ .ok ⟨status, body⟩ := by
  rintro rfl
  have refused := lost.2
  rw [created] at refused
  cases refused

/-! ## The engine and the endpoint together -/

/-- The engine has opened the upload and has not come to an end. -/
def Underway (engine : Engine) : Prop :=
  match engine.phase with
  | .checking | .reading | .sending _ | .accepted | .refused _ | .backingOff | .resyncing => True
  | _ => False

/-- What holds of an engine that sends these bytes and of its endpoint between any two steps. -/
structure Faithful (bytes : Bytes) (engine : Engine) (endpoint : Endpoint) : Prop where
  holds : engine.file.Holds bytes
  ordered : engine.Ordered
  partway : endpoint.Partway engine.path bytes
  opened : Underway engine → endpoint.Opened engine.path bytes
  /-- A chunk on its way is a piece of the file that starts at the offset. -/
  piece :
    ∀ {content : String}, engine.phase = .sending content →
      ∃ piece, content = Base64.encode piece ∧ piece <+: bytes.drop engine.offset
  /-- An engine at the end of the file has seen it completed. -/
  whole : bytes.length ≤ engine.offset → endpoint.completed? engine.path = some bytes

/-! ## What an answer does to the offset and the phase -/

theorem afterCreate_offset
    (engine : Engine)
    (attempt : Nat)
    (answer : Answer CreateReply) :
    (engine.afterCreate attempt answer).offset = engine.offset := by
  unfold Engine.afterCreate
  split
  · rfl
  · rfl
  · split <;> rfl

/-- Only a status that lets the upload go on gets an engine past its create calls. -/
theorem created_of_underway
    {attempt : Nat}
    {answer : Answer CreateReply}
    (underway : Underway (engine.afterCreate attempt answer)) :
    ∃ status body, answer = .ok ⟨status, body⟩ ∧ Status.isCreated status = true := by
  unfold Engine.afterCreate at underway
  split at underway
  case h_1 body judged =>
      obtain ⟨status, given, created⟩ := Policy.classifyCreate_eq_success judged
      exact ⟨status, body, given, created⟩
  case h_2 => exact underway.elim
  case h_3 => split at underway <;> exact underway.elim

/-- Only an accepted chunk gets an engine to the end of its file. -/
theorem success_of_afterChunk
    {answer : Answer StatusReply}
    (below : engine.offset < engine.size)
    (reached : engine.size ≤ (engine.afterChunk answer).offset) :
    ∃ status reply, answer = .ok ⟨status, some reply⟩ ∧ engine.size ≤ reply.uploaded := by
  unfold Engine.afterChunk at reached
  split at reached
  case h_1 reply judged =>
      obtain ⟨status, given⟩ := Policy.classify_eq_success judged
      have adopted : engine.size ≤ min reply.uploaded engine.size := reached
      exact ⟨status, reply, given, by omega⟩
  case h_2 => exact absurd reached (Nat.not_le_of_lt below)
  case h_3 =>
      unfold Engine.retreat at reached
      split at reached <;> exact absurd reached (Nat.not_le_of_lt below)

/-- Only an offset that the endpoint gave gets an engine to the end of its file. -/
theorem success_of_afterStatus
    {answer : Answer StatusReply}
    (below : engine.offset < engine.size)
    (reached : engine.size ≤ (engine.afterStatus answer).offset) :
    ∃ status reply, answer = .ok ⟨status, some reply⟩ ∧ engine.size ≤ reply.uploaded := by
  unfold Engine.afterStatus at reached
  split at reached
  case h_1 reply judged =>
      obtain ⟨status, given⟩ := Policy.classify_eq_success judged
      have adopted : engine.size ≤ min reply.uploaded engine.size := reached
      exact ⟨status, reply, given, by omega⟩
  case h_2 => exact absurd reached (Nat.not_le_of_lt below)
  case h_3 => exact absurd reached (Nat.not_le_of_lt below)

theorem Delivery.served_of_success
    {served : Endpoint × Answer StatusReply}
    {answer : Answer StatusReply}
    {status : Nat}
    {reply : StatusReply}
    (delivery : Delivery Lost endpoint served after answer)
    (success : answer = .ok ⟨status, some reply⟩) :
    after = served.1 ∧ answer = served.2 := by
  cases delivery with
  | answered => exact ⟨rfl, rfl⟩
  | unanswered lost => exact absurd success lost.ne_success
  | unserved lost => exact absurd success lost.ne_success

namespace Faithful

theorem size_eq (faithful : Faithful bytes engine endpoint) :
    engine.size = bytes.length :=
  faithful.holds.size

/-- An engine starts faithful if the endpoint holds no more than a proper prefix of its file. -/
theorem start
    {tuning : Tuning}
    {path : String}
    {file : FileHandle}
    {uploaded : Nat}
    (holds : file.Holds bytes)
    (below : uploaded < bytes.length)
    (partway : endpoint.Partway path bytes) :
    Faithful bytes (Engine.new tuning path file uploaded).start endpoint where
  holds := holds
  ordered := Engine.ordered_start tuning path file (holds.size ▸ below)
  partway := partway
  opened underway := underway.elim
  piece sending := by cases sending
  whole reached := by
    have stands : min uploaded file.size < bytes.length := by omega
    exact absurd reached (Nat.not_le_of_lt stands)

theorem requestStop (faithful : Faithful bytes engine endpoint) :
    Faithful bytes engine.requestStop endpoint where
  holds := faithful.holds
  ordered := faithful.ordered.requestStop
  partway := faithful.partway
  opened := faithful.opened
  piece := faithful.piece
  whole := faithful.whole

theorem agreesOn
    (faithful : Faithful bytes engine endpoint)
    (agrees : Endpoint.AgreesOn engine.path endpoint after) :
    Faithful bytes engine after where
  holds := faithful.holds
  ordered := faithful.ordered
  partway := agrees.partway faithful.partway
  opened underway := agrees.opened (faithful.opened underway)
  piece := faithful.piece
  whole reached := agrees.completed.trans (faithful.whole reached)

/-- What is left to show of a step, once it is known to be one of the engine. -/
theorem of_step
    (faithful : Faithful bytes engine endpoint)
    (step : Engine.Step engine act next)
    (partway : after.Partway engine.path bytes)
    (opened : Underway next → after.Opened engine.path bytes)
    (brings : ∀ {piece : Bytes}, act = .read (.ok piece) → piece <+: bytes.drop engine.offset)
    (whole : bytes.length ≤ next.offset → after.completed? engine.path = some bytes) :
    Faithful bytes next after where
  holds := step.file_eq ▸ faithful.holds
  ordered := faithful.ordered.step step
  partway := step.path_eq ▸ partway
  opened := step.path_eq ▸ opened
  piece sending := by
    obtain ⟨piece, read, _, rfl⟩ := step.sending sending
    cases sending
    exact ⟨piece, rfl, brings read⟩
  whole := step.path_eq ▸ whole

/-- The create call opens the path, or the engine does not go on. -/
theorem create
    {attempt : Nat}
    {answer : Answer CreateReply}
    (faithful : Faithful bytes engine endpoint)
    (unscripted : endpoint.Unscripted)
    (phase : engine.phase = .creating attempt)
    (delivery :
      Delivery LostCreate endpoint (endpoint.create engine.path engine.size) after answer) :
    Faithful bytes (engine.afterCreate attempt answer) after := by
  have below := faithful.ordered
  simp only [Engine.Ordered, phase] at below
  rw [faithful.size_eq] at below delivery
  have served :=
    Endpoint.create_opened unscripted faithful.partway (Nat.zero_lt_of_lt below)
  have stands := afterCreate_offset engine attempt answer
  refine faithful.of_step (.create phase answer) ?_ ?_ ?_ ?_
  · rcases delivery.endpoint_cases with rfl | rfl
    · exact served.1
    · exact faithful.partway
  · intro underway
    obtain ⟨status, body, created, accepted⟩ := created_of_underway underway
    cases delivery with
    | answered => exact served.2
    | unanswered => exact served.2
    | unserved lost => exact absurd created (lost.ne_created accepted)
  · rintro _ ⟨⟩
  · intro reached
    omega

/-- Looking at the offset and the request to stop changes neither of them. -/
theorem check
    (faithful : Faithful bytes engine endpoint)
    (phase : engine.phase = .checking) :
    Faithful bytes engine.check endpoint := by
  have opened : endpoint.Opened engine.path bytes := by
    apply faithful.opened
    simp only [Underway, phase]
  have stands : engine.check.offset = engine.offset := by
    unfold Engine.check
    split
    · split <;> rfl
    · rfl
  refine faithful.of_step (.check phase) faithful.partway (fun _ => opened) nofun ?_
  rw [stands]
  exact faithful.whole

/-- What is read is a piece of the file that starts at the offset. -/
theorem read
    {found : Except ReadError Bytes}
    (faithful : Faithful bytes engine endpoint)
    (phase : engine.phase = .reading)
    (truthful :
      found = engine.file.source.read engine.offset engine.chunkLast ∨
        ∃ error, found = .error error) :
    Faithful bytes (engine.afterRead found) endpoint := by
  have below := faithful.ordered
  simp only [Engine.Ordered, phase] at below
  have opened : endpoint.Opened engine.path bytes := by
    apply faithful.opened
    simp only [Underway, phase]
  have stands : (engine.afterRead found).offset = engine.offset := by
    cases found <;> rfl
  refine faithful.of_step (.read phase found) faithful.partway (fun _ => opened) ?_ ?_
  · rintro piece ⟨⟩
    rcases truthful with brought | ⟨error, failed⟩
    · rw [faithful.holds.read_chunk below] at brought
      cases brought
      exact List.take_prefix _ _
    · cases failed
  · rw [stands]
    exact faithful.whole

/-- A chunk call stores a piece of the file, and confirms all of it only once it is completed. -/
theorem chunk
    {content : String}
    {answer : Answer StatusReply}
    (faithful : Faithful bytes engine endpoint)
    (unscripted : endpoint.Unscripted)
    (phase : engine.phase = .sending content)
    (delivery :
      Delivery Lost endpoint (endpoint.chunk engine.path content engine.offset) after answer) :
    Faithful bytes (engine.afterChunk answer) after := by
  have below := faithful.ordered
  simp only [Engine.Ordered, phase] at below
  have opened : endpoint.Opened engine.path bytes := by
    apply faithful.opened
    simp only [Underway, phase]
  obtain ⟨piece, rfl, sent⟩ := faithful.piece phase
  obtain ⟨partway, stillOpened, confirms⟩ :=
    Endpoint.chunk_opened unscripted faithful.partway opened sent
  refine faithful.of_step (.chunk phase answer) ?_ ?_ ?_ ?_
  · rcases delivery.endpoint_cases with rfl | rfl
    · exact partway
    · exact faithful.partway
  · intro _
    rcases delivery.endpoint_cases with rfl | rfl
    · exact stillOpened
    · exact opened
  · rintro _ ⟨⟩
  · intro reached
    rw [← faithful.size_eq] at reached
    obtain ⟨status, reply, success, confirmed⟩ := success_of_afterChunk below reached
    obtain ⟨rfl, same⟩ := delivery.served_of_success success
    rw [faithful.size_eq] at confirmed
    rcases confirms (same.symm.trans success) with short | completed
    · omega
    · exact completed

/-- A status call stores nothing, and confirms all of the file only once it is completed. -/
theorem status
    {answer : Answer StatusReply}
    (faithful : Faithful bytes engine endpoint)
    (unscripted : endpoint.Unscripted)
    (phase : engine.phase = .resyncing)
    (delivery : Delivery Lost endpoint (endpoint.status engine.path) after answer) :
    Faithful bytes (engine.afterStatus answer) after := by
  have below := faithful.ordered
  simp only [Engine.Ordered, phase] at below
  have opened : endpoint.Opened engine.path bytes := by
    apply faithful.opened
    simp only [Underway, phase]
  have agrees : Endpoint.AgreesOn engine.path endpoint after := by
    rcases delivery.endpoint_cases with rfl | rfl
    · exact Endpoint.status_agreesOn _ _ _
    · exact .refl _ _
  refine faithful.of_step (.status phase answer) ?_ ?_ ?_ ?_
  · exact agrees.partway faithful.partway
  · intro _
    exact agrees.opened opened
  · rintro _ ⟨⟩
  · intro reached
    rw [← faithful.size_eq] at reached
    obtain ⟨status, reply, success, confirmed⟩ := success_of_afterStatus below reached
    obtain ⟨_, same⟩ := delivery.served_of_success success
    rw [faithful.size_eq] at confirmed
    have given := Endpoint.status_opened unscripted faithful.partway opened
      (same.symm.trans success)
    rcases given with short | completed
    · omega
    · exact agrees.completed.trans completed

/-- A report, a wait or a resync that begins changes neither the offset nor the endpoint. -/
theorem quiet
    (faithful : Faithful bytes engine endpoint)
    (step : Engine.Step engine act next)
    (stands : next.offset = engine.offset)
    (continued : Underway next → Underway engine)
    (readless : ∀ {piece : Bytes}, act ≠ .read (.ok piece)) :
    Faithful bytes next endpoint := by
  refine faithful.of_step step faithful.partway ?_ ?_ ?_
  · intro underway
    exact faithful.opened (continued underway)
  · intro piece read
    exact absurd read readless
  · rw [stands]
    exact faithful.whole

theorem report
    {report : Report}
    (faithful : Faithful bytes engine endpoint)
    (made : engine.report? = some report) :
    Faithful bytes engine.afterReport endpoint := by
  refine faithful.quiet (.report made) ?_ ?_ nofun
  · unfold Engine.afterReport
    split <;> rfl
  · intro underway
    unfold Engine.afterReport at underway
    split at underway
    case h_1 phase => simp only [Underway, phase]
    case h_2 phase => simp only [Underway, phase]
    case h_3 => exact underway.elim
    case h_4 => exact underway

/-- Every step of an engine that is served by the endpoint keeps the two faithful. -/
theorem step
    (faithful : Faithful bytes engine endpoint)
    (unscripted : endpoint.Unscripted)
    (step : Engine.Step engine act next)
    (served : Served engine endpoint act after) :
    Faithful bytes next after := by
  cases step with
  | create phase answer =>
      cases served with
      | create delivery => exact faithful.create unscripted phase delivery
  | retryCreate phase =>
      cases served
      refine faithful.quiet (.retryCreate phase) rfl ?_ nofun
      intro underway
      exact underway.elim
  | check phase =>
      cases served
      exact faithful.check phase
  | read phase found =>
      cases served with
      | read => exact faithful.read phase (.inl rfl)
      | unread error => exact faithful.read phase (.inr ⟨error, rfl⟩)
  | chunk phase answer =>
      cases served with
      | chunk delivery => exact faithful.chunk unscripted phase delivery
  | report made =>
      cases served
      exact faithful.report made
  | backOff phase =>
      cases served
      refine faithful.quiet (.backOff phase) rfl ?_ nofun
      intro _
      simp only [Underway, phase]
  | status phase answer =>
      cases served with
      | status delivery => exact faithful.status unscripted phase delivery

/-- Once its upload is opened an engine does not undo that the file is completed. -/
theorem completed
    (faithful : Faithful bytes engine endpoint)
    (unscripted : endpoint.Unscripted)
    (step : Engine.Step engine act next)
    (served : Served engine endpoint act after)
    (further : ¬ engine.Opening)
    (completed : endpoint.completed? engine.path = some bytes) :
    after.completed? engine.path = some bytes := by
  cases step with
  | create phase answer =>
      refine absurd ?_ further
      simp only [Engine.Opening, phase]
  | chunk phase answer =>
      cases served with
      | chunk delivery =>
          obtain ⟨piece, rfl, sent⟩ := faithful.piece phase
          rcases delivery.endpoint_cases with rfl | rfl
          · exact Endpoint.chunk_completed unscripted faithful.partway completed sent
          · exact completed
  | status phase answer =>
      cases served with
      | status delivery =>
          rcases delivery.endpoint_cases with rfl | rfl
          · exact (Endpoint.status_agreesOn _ _ _).completed.trans completed
          · exact completed
  | retryCreate | check | read | report | backOff =>
      cases served <;> exact completed

end Faithful

/-! ## Whole runs -/

theorem faithful_of_trace
    {transfer final : Transfer}
    {moves : List Move}
    (run : Trace Step transfer moves final)
    (faithful : Faithful bytes transfer.engine transfer.endpoint)
    (unscripted : transfer.endpoint.Unscripted) :
    final.engine.path = transfer.engine.path ∧
      final.endpoint.Unscripted ∧
      Faithful bytes final.engine final.endpoint := by
  induction run with
  | refl => exact ⟨rfl, unscripted, faithful⟩
  | snoc _ last held =>
      obtain ⟨path, unscripted, faithful⟩ := held
      cases last with
      | act step served =>
          exact ⟨step.path_eq.trans path, served.unscripted unscripted,
            faithful.step unscripted step served⟩
      | stop => exact ⟨path, unscripted, faithful.requestStop⟩
      | elsewhere elsewhere =>
          exact ⟨path, elsewhere.unscripted unscripted,
            faithful.agreesOn elsewhere.agreesOn⟩

/--
An engine that sends a file to an endpoint which holds no more than a proper prefix of it under the
path never makes it hold anything else, whatever the network loses, whenever it is told to stop, and
whatever other clients do to other paths.  If it finishes, the completed upload is the file.
-/
theorem transfer_keeps_file
    {tuning : Tuning}
    {path : String}
    {file : FileHandle}
    {uploaded : Nat}
    {endpoint : Endpoint}
    {moves : List Move}
    {final : Transfer}
    (holds : file.Holds bytes)
    (below : uploaded < bytes.length)
    (unscripted : endpoint.Unscripted)
    (begun : endpoint.Partway path bytes)
    (run : Trace Step ⟨(Engine.new tuning path file uploaded).start, endpoint⟩ moves final) :
    (∀ upload ∈ final.endpoint.uploads path, upload.data <+: bytes) ∧
      (final.engine.outcome? = some .finished →
        final.endpoint.completed? path = some bytes) := by
  obtain ⟨same, _, faithful⟩ := faithful_of_trace run (.start holds below begun) unscripted
  have kept : final.engine.path = path := same
  constructor
  · intro upload member
    exact (faithful.partway upload (kept ▸ member)).2.1
  · intro finished
    have ordered := faithful.ordered
    unfold Engine.outcome? at finished
    split at finished
    case h_1 phase =>
        cases finished
        simp only [Engine.Ordered, phase, faithful.size_eq] at ordered
        exact kept ▸ faithful.whole (Nat.le_of_eq ordered.symm)
    case h_2 => cases finished

/-- A file of which the endpoint holds one byte arrives although the first chunk answer is lost. -/
theorem transfer_keeps_file_once_lost :
    let file : FileHandle := ⟨0, .ofBytes [7, 8, 9]⟩
    let endpoint : Endpoint := { pending := [⟨"a", 3, [7]⟩] }
    let engine := (Engine.new (Config.tuning { chunkLength := 2 }) "a" file 0).start
    ∃ moves final,
      file.Holds [7, 8, 9] ∧ endpoint.Partway "a" [7, 8, 9] ∧
        Trace Step ⟨engine, endpoint⟩ moves final ∧
        final.engine.outcome? = some .finished ∧
        final.endpoint.completed? "a" = some [7, 8, 9] := by
  intro file endpoint engine
  have holds : file.Holds [7, 8, 9] := FileHandle.holds_ofBytes 0 [7, 8, 9]
  have begun : endpoint.Partway "a" [7, 8, 9] := by
    unfold Endpoint.Partway
    decide
  have finished :
      ([false, false, false, true, false, false, false, false, false, false, false, false].foldlM
        advance? ⟨engine, endpoint⟩).map (·.engine.outcome?) = some (some .finished) := by
    decide
  obtain ⟨final, advanced, outcome⟩ := Option.map_eq_some_iff.mp finished
  obtain ⟨moves, run⟩ :=
    (Trace.of_foldlM (fun before _ after => ∃ move, Step before move after)
      step_of_advance? advanced).relabel id
  have kept := transfer_keeps_file holds (by decide) ⟨rfl, rfl, rfl⟩ begun run
  exact ⟨moves, final, holds, begun, run, outcome, kept.2 outcome⟩

end Transfer

end ResumableUpload
