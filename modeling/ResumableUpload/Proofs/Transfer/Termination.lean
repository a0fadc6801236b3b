import ResumableUpload.Proofs.Engine.Chunks
import ResumableUpload.Proofs.Transfer.Scripted

/-!
# A served engine comes to an end

Against an endpoint whose canned answers are failures an engine does not go on for ever: every chunk
call uses up a canned answer, or has the endpoint store a byte that it lacked, or closes the `gap`
between the offset of the engine and the end of what is stored.  `remaining` bounds the number of
things that an engine has yet to do.  `Driven` is what holds of the engine and of the endpoint until
then, and every step keeps it (`Driven.step`) and lowers the bound (`Driven.remaining_lt`).
-/

namespace ResumableUpload.Transfer

open ResumableUpload.Endpoint

variable {engine next : Engine} {endpoint after : Endpoint} {act : Engine.Act} {bytes : Bytes}

/-- How many canned answers are left, and how many bytes the endpoint lacks. -/
def missing (engine : Engine) (endpoint : Endpoint) : Nat :=
  endpoint.cannedLeft + (engine.size - (endpoint.pendingLength? engine.path).getD 0)

/-- One, unless the engine stands where the stored bytes end. -/
def gap (engine : Engine) (endpoint : Endpoint) : Nat :=
  if endpoint.pendingLength? engine.path = some engine.offset then 0 else 1

/--
A bound on what an engine has yet to do.  A round of fewer than eight steps goes with everything that
is missing, and one more with a gap; an engine that asks how far the endpoint is has none afterwards.
-/
def remaining (engine : Engine) (endpoint : Endpoint) : Nat :=
  let round := 8 * (missing engine endpoint + gap engine endpoint)
  let attempts (attempt : Nat) :=
    8 * (endpoint.cannedLeft + engine.size + 1) + 2 * (engine.tuning.createLimit - attempt)
  match engine.phase with
  | .idle | .ended _ => 0
  | .concluding _ => 1
  | .creating attempt => attempts attempt + 9
  | .pausingCreate attempt => attempts attempt + 8
  | .checking => if engine.offset < engine.size then round + 7 else 2
  | .reading => round + 6
  | .sending _ => round + 5
  | .accepted => round + 8
  | .refused _ => 8 * missing engine endpoint + 10
  | .backingOff => 8 * missing engine endpoint + 9
  | .resyncing => 8 * missing engine endpoint + 8

/-- An engine only waits for another create call below the limit. -/
def Patient (engine : Engine) : Prop :=
  ∀ {attempt : Nat}, engine.phase = .pausingCreate attempt → attempt < engine.tuning.createLimit

theorem Patient.step
    (step : Engine.Step engine act next) :
    Patient next := by
  intro attempt pausing
  have leads := step.leads
  rw [pausing] at leads
  cases leads with
  | notCreated below =>
      rw [step.tuning_eq]
      exact below

/-- What holds of an engine and of the endpoint that serves it from the start to the end. -/
structure Driven (bytes : Bytes) (engine : Engine) (endpoint : Endpoint) : Prop where
  faithful : Faithful bytes engine endpoint
  exactly : Engine.Exact bytes 1 engine
  patient : Patient engine
  fails : endpoint.OnlyFails

/-! ## What a call brings -/

/-- What comes of a chunk call of a path that expects `size` bytes. -/
inductive Received (endpoint : Endpoint) (path : String) (size offset : Nat) :
    Endpoint → Answer StatusReply → Prop where
  /-- The call met with a canned answer. -/
  | canned {after : Endpoint} {answer : Answer StatusReply}
      (lost : Lost answer)
      (stands : after.pendingLength? path = endpoint.pendingLength? path)
      (fewer : after.cannedLeft + 1 = endpoint.cannedLeft) :
      Received endpoint path size offset after answer
  /-- The chunk does not begin where it could be appended. -/
  | misplaced {after : Endpoint} {answer : Answer StatusReply}
      (lost : Lost answer)
      (stands : after.pendingLength? path = endpoint.pendingLength? path)
      (left : after.cannedLeft = endpoint.cannedLeft)
      (gap : endpoint.pendingLength? path ≠ some offset) :
      Received endpoint path size offset after answer
  /-- The chunk was appended; it adds to what is stored unless it begins before the end of that. -/
  | appended {after : Endpoint} {stored grown : Nat}
      (found : endpoint.pendingLength? path = some stored)
      (ordered : stored ≤ grown)
      (within : grown ≤ size)
      (adds : stored = offset → stored < grown)
      (stands : grown < size → after.pendingLength? path = some grown)
      (left : after.cannedLeft = endpoint.cannedLeft) :
      Received endpoint path size offset after
        (.ok (Response.success ⟨path, grown, size⟩))

/-- What comes of a chunk for which there is no canned answer. -/
theorem received_append
    {path : String}
    {piece : Bytes}
    (partway : endpoint.Partway path bytes)
    (nonempty : 0 < piece.length)
    (offset : Nat) :
    Received endpoint path bytes.length offset
      (endpoint.append path (Base64.encode piece) offset).1
      (endpoint.append path (Base64.encode piece) offset).2 := by
  unfold append
  cases found : endpoint.partial? path with
  | none =>
      have nothing : endpoint.pendingLength? path = none := by
        rw [pendingLength?, found, Option.map_none]
      refine .misplaced rfl rfl rfl ?_
      rw [nothing]
      exact (Option.some_ne_none offset).symm
  | some upload =>
      have stored := pendingLength?_of_partial? found
      have kept : upload.path = path := path_of_partial? found
      obtain ⟨size, _, below⟩ := partway upload (mem_uploads_of_partial? found)
      simp only [Base64.decode?_encode]
      split
      case isTrue after =>
          refine .misplaced rfl rfl rfl ?_
          rw [stored]
          intro reached
          cases reached
          exact Nat.lt_irrefl _ after
      case isFalse reached =>
          have length := length_extend upload piece offset
          have whole : (extend upload piece offset).size = bytes.length := size
          rw [whole]
          refine .appended stored ?_ ?_ ?_ ?_ ?_
          · omega
          · omega
          · intro stands
            omega
          · intro lacking
            exact pendingLength?_store found kept (whole ▸ lacking)
          · exact (sameScripts_store endpoint path _).cannedLeft_eq

theorem Received.of_note
    {call : EndpointCall}
    {path : String}
    {size offset : Nat}
    {answer : Answer StatusReply}
    (received : Received (endpoint.note call) path size offset after answer) :
    Received endpoint path size offset after answer := by
  cases received with
  | canned lost stands fewer => exact .canned lost stands fewer
  | misplaced lost stands left gap => exact .misplaced lost stands left gap
  | appended found ordered within adds stands left =>
      exact .appended found ordered within adds stands left

theorem received
    {path : String}
    {piece : Bytes}
    (fails : endpoint.OnlyFails)
    (partway : endpoint.Partway path bytes)
    (nonempty : 0 < piece.length)
    (offset : Nat) :
    Received endpoint path bytes.length offset
      (endpoint.chunk path (Base64.encode piece) offset).1
      (endpoint.chunk path (Base64.encode piece) offset).2 := by
  cases scripted : endpoint.chunkScript with
  | cons first rest =>
      have failed : first.fails = true := fails.chunk first (scripted ▸ List.mem_cons_self)
      rw [chunk_of_cons scripted]
      refine .canned (lost_of_fails failed _) rfl ?_
      simp only [cannedLeft, scripted, List.length_cons, note]
      omega
  | nil =>
      rw [chunk_of_nil scripted]
      have noted :
          (endpoint.note (.chunk path offset (Base64.encode piece).utf8ByteSize)).Partway path
            bytes :=
        partway
      exact (received_append noted nonempty offset).of_note

/-- What comes of a status call of a path of which `size` bytes are to be stored. -/
inductive Asked (endpoint : Endpoint) (path : String) (size : Nat) :
    Endpoint → Answer StatusReply → Prop where
  /-- The call met with a canned answer. -/
  | canned {after : Endpoint} {answer : Answer StatusReply}
      (lost : Lost answer)
      (stands : after.pendingLength? path = endpoint.pendingLength? path)
      (fewer : after.cannedLeft + 1 = endpoint.cannedLeft) :
      Asked endpoint path size after answer
  /-- The endpoint tells how much it stores, or that it stores all. -/
  | told {after : Endpoint} {stored total : Nat}
      (found : endpoint.pendingLength? path = some stored ∨ stored = size)
      (stands : after.pendingLength? path = endpoint.pendingLength? path)
      (left : after.cannedLeft = endpoint.cannedLeft) :
      Asked endpoint path size after (.ok (Response.success ⟨path, stored, total⟩))

theorem asked
    {path : String}
    (fails : endpoint.OnlyFails)
    (opened : endpoint.Opened path bytes) :
    Asked endpoint path bytes.length (endpoint.status path).1 (endpoint.status path).2 := by
  cases scripted : endpoint.statusScript with
  | cons first rest =>
      have failed : first.fails = true := fails.status first (scripted ▸ List.mem_cons_self)
      rw [status_of_cons scripted]
      refine .canned (lost_of_fails failed _) rfl ?_
      simp only [cannedLeft, scripted, List.length_cons, note]
      omega
  | nil =>
      rw [status_of_nil scripted]
      unfold statusOf?
      cases found : endpoint.partial? path with
      | some upload => exact .told (.inl (pendingLength?_of_partial? found)) rfl rfl
      | none =>
          rcases opened with ⟨upload, pending⟩ | completed
          · rw [found] at pending
            cases pending
          · rw [completed]
            exact .told (.inr rfl) rfl rfl

/-! ## Every step brings the end nearer -/

theorem gap_le_one
    (engine : Engine)
    (endpoint : Endpoint) :
    gap engine endpoint ≤ 1 := by
  unfold gap
  split <;> omega

theorem gap_of_eq
    (stands : endpoint.pendingLength? engine.path = some engine.offset) :
    gap engine endpoint = 0 :=
  if_pos stands

theorem gap_of_ne
    (stands : endpoint.pendingLength? engine.path ≠ some engine.offset) :
    gap engine endpoint = 1 :=
  if_neg stands

theorem remaining_of_concluding
    {outcome : Outcome}
    (phase : engine.phase = .concluding outcome) :
    remaining engine endpoint = 1 := by
  simp only [remaining, phase]

theorem remaining_of_sending
    {content : String}
    (phase : engine.phase = .sending content) :
    remaining engine endpoint = 8 * (missing engine endpoint + gap engine endpoint) + 5 := by
  simp only [remaining, phase]

theorem remaining_of_resyncing
    (phase : engine.phase = .resyncing) :
    remaining engine endpoint = 8 * missing engine endpoint + 8 := by
  simp only [remaining, phase]

theorem remaining_of_done
    (phase : engine.phase = .checking)
    (done : ¬ engine.offset < engine.size) :
    remaining engine endpoint = 2 := by
  simp only [remaining, phase, done, ↓reduceIte]

theorem remaining_of_checking_le
    (phase : engine.phase = .checking) :
    remaining engine endpoint ≤ 8 * (missing engine endpoint + gap engine endpoint) + 7 := by
  simp only [remaining, phase]
  split <;> omega

/-- An engine that is answered nothing takes up its next round with one thing less to do. -/
theorem remaining_of_lost
    {content : String}
    {answer : Answer StatusReply}
    (phase : engine.phase = .sending content)
    (lost : Lost answer)
    (fewer : missing engine after < missing engine endpoint + gap engine endpoint) :
    remaining (engine.afterChunk answer) after < remaining engine endpoint := by
  rw [remaining_of_sending phase]
  unfold Engine.afterChunk
  split
  case h_1 judged =>
      obtain ⟨status, given⟩ := Policy.classify_eq_success judged
      exact absurd given lost.ne_success
  case h_2 =>
      rw [remaining_of_concluding rfl]
      omega
  case h_3 =>
      unfold Engine.retreat
      split
      case isTrue =>
          rw [remaining_of_concluding rfl]
          omega
      case isFalse =>
          have refused : 8 * missing engine after + 10 <
              8 * (missing engine endpoint + gap engine endpoint) + 5 := by
            omega
          exact refused

theorem missing_of_stands
    (stands : after.pendingLength? engine.path = endpoint.pendingLength? engine.path) :
    missing engine after + endpoint.cannedLeft =
      missing engine endpoint + after.cannedLeft := by
  unfold missing
  rw [stands]
  omega

theorem classify_success
    (policy : Policy)
    (reply : StatusReply) :
    policy.classify (.ok (Response.success reply)) = .success reply := by
  simp only [Policy.classify, Response.success, ↓reduceIte]

theorem afterChunk_success
    (engine : Engine)
    (reply : StatusReply) :
    engine.afterChunk (.ok (Response.success reply)) = engine.accept reply.uploaded := by
  simp only [Engine.afterChunk, classify_success]

/-- An engine whose chunk was appended has less to send, or has closed the gap. -/
theorem remaining_of_appended
    {content : String}
    {stored grown total : Nat}
    (phase : engine.phase = .sending content)
    (found : endpoint.pendingLength? engine.path = some stored)
    (ordered : stored ≤ grown)
    (within : grown ≤ engine.size)
    (adds : stored = engine.offset → stored < grown)
    (stands : grown < engine.size → after.pendingLength? engine.path = some grown)
    (left : after.cannedLeft = endpoint.cannedLeft) :
    remaining (engine.afterChunk (.ok (Response.success ⟨engine.path, grown, total⟩))) after <
      remaining engine endpoint := by
  have adopted : (engine.adopt grown).offset = grown := Nat.min_eq_left within
  rw [remaining_of_sending phase, afterChunk_success]
  by_cases lacking : grown < engine.size
  · have here := stands lacking
    rw [Engine.accept_of_lt (by rw [adopted]; exact lacking)]
    have closed : gap { engine.adopt grown with phase := .accepted } after = 0 :=
      gap_of_eq (here.trans (congrArg some adopted.symm))
    have lacks : missing engine after = after.cannedLeft + (engine.size - grown) := by
      rw [missing, here, Option.getD_some]
    have lacked : missing engine endpoint = endpoint.cannedLeft + (engine.size - stored) := by
      rw [missing, found, Option.getD_some]
    -- A chunk that starts before the end of what is stored may add nothing, but then there was a gap.
    have fewer : missing engine after < missing engine endpoint + gap engine endpoint := by
      by_cases level : stored = engine.offset
      · have added := adds level
        omega
      · have apart : gap engine endpoint = 1 := by
          apply gap_of_ne
          rw [found]
          exact fun same => level (Option.some.inj same)
        omega
    have accepted :
        8 * (missing engine after + gap { engine.adopt grown with phase := .accepted } after) + 8 <
          8 * (missing engine endpoint + gap engine endpoint) + 5 := by
      omega
    exact accepted
  · rw [Engine.accept_of_not_lt (by rw [adopted]; exact lacking)]
    have done : ¬ (engine.adopt grown).offset < engine.size := by
      rw [adopted]
      exact lacking
    refine Nat.lt_of_le_of_lt (Nat.le_of_eq (remaining_of_done rfl done)) ?_
    omega

theorem remaining_chunk
    {content : String}
    (faithful : Faithful bytes engine endpoint)
    (exactly : Engine.Exact bytes 1 engine)
    (fails : endpoint.OnlyFails)
    (phase : engine.phase = .sending content) :
    remaining (engine.afterChunk (endpoint.chunk engine.path content engine.offset).2)
        (endpoint.chunk engine.path content engine.offset).1 <
      remaining engine endpoint := by
  obtain ⟨left, rfl⟩ := exactly.sending phase
  have nonempty := exactly.length_piece_pos (Nat.le_refl 1) left
  have received := received fails faithful.partway nonempty engine.offset
  generalize endpoint.chunk engine.path _ engine.offset = served at received
  obtain ⟨after, answer⟩ := served
  cases received with
  | canned lost stands fewer =>
      have same := missing_of_stands stands
      exact remaining_of_lost phase lost (by omega)
  | misplaced lost stands canned apart =>
      have same := missing_of_stands stands
      have open_ := gap_of_ne apart
      exact remaining_of_lost phase lost (by omega)
  | appended found ordered within adds stands canned =>
      rw [← exactly.size] at within stands ⊢
      exact remaining_of_appended phase found ordered within adds stands canned

theorem afterStatus_success
    (engine : Engine)
    (reply : StatusReply) :
    engine.afterStatus (.ok (Response.success reply)) =
      { engine.adopt reply.uploaded with phase := .checking } := by
  simp only [Engine.afterStatus, classify_success]

/-- An engine that is not told where the endpoint is goes on with one thing less to do. -/
theorem remaining_of_untold
    {answer : Answer StatusReply}
    (phase : engine.phase = .resyncing)
    (lost : Lost answer)
    (fewer : missing engine after < missing engine endpoint) :
    remaining (engine.afterStatus answer) after < remaining engine endpoint := by
  rw [remaining_of_resyncing phase]
  unfold Engine.afterStatus
  split
  case h_1 judged =>
      obtain ⟨status, given⟩ := Policy.classify_eq_success judged
      exact absurd given lost.ne_success
  case h_2 =>
      rw [remaining_of_concluding rfl]
      omega
  case h_3 =>
      have close := gap_le_one engine after
      have round : 8 * (missing engine after + gap engine after) + 7 <
          8 * missing engine endpoint + 8 := by
        omega
      exact Nat.lt_of_le_of_lt (remaining_of_checking_le rfl) round

/-- An engine that is told where the endpoint is has no gap to close, or nothing left to send. -/
theorem remaining_of_told
    {stored total : Nat}
    (phase : engine.phase = .resyncing)
    (found : stored < engine.size → after.pendingLength? engine.path = some stored)
    (left : missing engine after = missing engine endpoint) :
    remaining (engine.afterStatus (.ok (Response.success ⟨engine.path, stored, total⟩))) after <
      remaining engine endpoint := by
  rw [remaining_of_resyncing phase, afterStatus_success]
  by_cases lacking : stored < engine.size
  · have adopted : (engine.adopt stored).offset = stored :=
      Nat.min_eq_left (Nat.le_of_lt lacking)
    have closed : gap { engine.adopt stored with phase := .checking } after = 0 :=
      gap_of_eq ((found lacking).trans (congrArg some adopted.symm))
    have round :
        8 * (missing engine after +
            gap { engine.adopt stored with phase := .checking } after) + 7 <
          8 * missing engine endpoint + 8 := by
      omega
    exact Nat.lt_of_le_of_lt (remaining_of_checking_le rfl) round
  · have done : ¬ (engine.adopt stored).offset < engine.size := by
      intro below
      have adopted : min stored engine.size < engine.size := below
      omega
    refine Nat.lt_of_le_of_lt (Nat.le_of_eq (remaining_of_done rfl done)) ?_
    omega

theorem remaining_status
    (faithful : Faithful bytes engine endpoint)
    (fails : endpoint.OnlyFails)
    (phase : engine.phase = .resyncing) :
    remaining (engine.afterStatus (endpoint.status engine.path).2)
        (endpoint.status engine.path).1 <
      remaining engine endpoint := by
  have opened : endpoint.Opened engine.path bytes := by
    apply faithful.opened
    simp only [Underway, phase]
  have asked := asked fails opened
  generalize (endpoint.status engine.path).1 = after at asked ⊢
  generalize (endpoint.status engine.path).2 = answer at asked ⊢
  cases asked with
  | canned lost stands fewer =>
      have same := missing_of_stands stands
      exact remaining_of_untold phase lost (by omega)
  | told found stands left =>
      have same := missing_of_stands stands
      refine remaining_of_told phase ?_ (by omega)
      intro lacking
      rcases found with stored | whole
      · exact stands.trans stored
      · rw [faithful.size_eq] at lacking
        omega

theorem remaining_create
    {attempt : Nat}
    {answer : Answer CreateReply}
    (phase : engine.phase = .creating attempt)
    (left : after.cannedLeft = endpoint.cannedLeft) :
    remaining (engine.afterCreate attempt answer) after < remaining engine endpoint := by
  have before :
      remaining engine endpoint =
        8 * (endpoint.cannedLeft + engine.size + 1) +
          2 * (engine.tuning.createLimit - attempt) + 9 := by
    simp only [remaining, phase]
  rw [before]
  unfold Engine.afterCreate
  split
  case h_1 =>
      have close := gap_le_one engine after
      have few : missing engine after ≤ after.cannedLeft + engine.size := by
        unfold missing
        omega
      refine Nat.lt_of_le_of_lt (remaining_of_checking_le rfl) ?_
      have round :
          8 * (missing engine after + gap engine after) + 7 <
            8 * (endpoint.cannedLeft + engine.size + 1) +
              2 * (engine.tuning.createLimit - attempt) + 9 := by
        omega
      exact round
  case h_2 =>
      rw [remaining_of_concluding rfl]
      omega
  case h_3 =>
      split
      case isTrue =>
          have pausing :
              8 * (after.cannedLeft + engine.size + 1) +
                  2 * (engine.tuning.createLimit - attempt) + 8 <
                8 * (endpoint.cannedLeft + engine.size + 1) +
                  2 * (engine.tuning.createLimit - attempt) + 9 := by
            omega
          exact pausing
      case isFalse =>
          rw [remaining_of_concluding rfl]
          omega

theorem remaining_check
    (phase : engine.phase = .checking) :
    remaining engine.check endpoint < remaining engine endpoint := by
  unfold Engine.check
  by_cases left : engine.offset < engine.size
  · have going :
        remaining engine endpoint =
          8 * (missing engine endpoint + gap engine endpoint) + 7 := by
      simp only [remaining, phase, left, ↓reduceIte]
    rw [if_pos left, going]
    split
    · rw [remaining_of_concluding rfl]
      omega
    · exact Nat.lt_succ_self _
  · rw [if_neg left, remaining_of_done phase left, remaining_of_concluding rfl]
    omega

theorem remaining_read
    (phase : engine.phase = .reading)
    (found : Except ReadError Bytes) :
    remaining (engine.afterRead found) endpoint < remaining engine endpoint := by
  have reading :
      remaining engine endpoint =
        8 * (missing engine endpoint + gap engine endpoint) + 6 := by
    simp only [remaining, phase]
  rw [reading]
  cases found with
  | ok piece => exact Nat.lt_succ_self _
  | error error =>
      refine Nat.lt_of_le_of_lt (Nat.le_of_eq (remaining_of_concluding rfl)) ?_
      omega

theorem remaining_report
    {report : Report}
    (made : engine.report? = some report) :
    remaining engine.afterReport endpoint < remaining engine endpoint := by
  unfold Engine.report? at made
  unfold Engine.afterReport
  split at made
  case h_1 phase =>
      have accepted :
          remaining engine endpoint =
            8 * (missing engine endpoint + gap engine endpoint) + 8 := by
        simp only [remaining, phase]
      rw [accepted]
      exact Nat.lt_succ_of_le (remaining_of_checking_le rfl)
  case h_2 phase =>
      have refused : remaining engine endpoint = 8 * missing engine endpoint + 10 := by
        simp only [remaining, phase]
      rw [refused]
      exact Nat.lt_succ_self _
  case h_3 phase =>
      rw [remaining_of_concluding phase]
      exact Nat.zero_lt_one
  case h_4 => cases made

theorem endpoint_of_report
    {report : Report}
    (served : serve? engine endpoint = some (.report report, after)) :
    after = endpoint := by
  cases answered_of_serve? served with
  | report => rfl

/-- Every step of a served engine leaves less to do. -/
theorem Driven.remaining_lt
    (driven : Driven bytes engine endpoint)
    (step : Engine.Step engine act next)
    (served : serve? engine endpoint = some (act, after)) :
    remaining next after < remaining engine endpoint := by
  cases step with
  | create phase answer =>
      simp only [serve?, phase] at served
      cases served
      exact remaining_create phase (create_cannedLeft endpoint engine.path engine.size)
  | retryCreate phase =>
      simp only [serve?, phase] at served
      cases served
      have below := driven.patient phase
      simp only [remaining, phase, Engine.afterCreatePause, Engine.size]
      omega
  | check phase =>
      simp only [serve?, phase] at served
      cases served
      exact remaining_check phase
  | read phase found =>
      simp only [serve?, phase] at served
      cases served
      exact remaining_read phase _
  | chunk phase answer =>
      simp only [serve?, phase] at served
      cases served
      exact remaining_chunk driven.faithful driven.exactly driven.fails phase
  | report made =>
      obtain rfl := endpoint_of_report served
      exact remaining_report made
  | backOff phase =>
      simp only [serve?, phase] at served
      cases served
      simp only [remaining, phase, Engine.afterBackOff]
      exact Nat.lt_succ_self _
  | status phase answer =>
      simp only [serve?, phase] at served
      cases served
      exact remaining_status driven.faithful driven.fails phase

/-! ## An engine and the endpoint that serves it -/

/-- What is read within the file is the piece that is asked for. -/
theorem piece_of_serve?
    {piece : Bytes}
    (holds : engine.file.Holds bytes)
    (left : engine.offset < engine.size)
    (served : serve? engine endpoint = some (.read (.ok piece), after)) :
    piece = bytes.slice engine.offset engine.chunkLast := by
  have read := holds.read_chunk left
  generalize brought : Engine.Act.read (.ok piece) = act at served
  cases answered_of_serve? served with
  | read =>
      rw [read] at brought
      cases brought
      rfl
  | create | chunk | status | report | check | wait => cases brought

namespace Driven

theorem start
    {tuning : Tuning}
    {path : String}
    {file : FileHandle}
    {uploaded : Nat}
    (pace : tuning.pace.Keeps 1)
    (holds : file.Holds bytes)
    (below : uploaded < bytes.length)
    (partway : endpoint.Partway path bytes)
    (fails : endpoint.OnlyFails) :
    Driven bytes (Engine.new tuning path file uploaded).start endpoint where
  faithful := .start holds below partway
  exactly := .start pace holds.size path uploaded
  patient := nofun
  fails := fails

theorem step
    (driven : Driven bytes engine endpoint)
    (step : Engine.Step engine act next)
    (served : serve? engine endpoint = some (act, after)) :
    Driven bytes next after where
  faithful := driven.faithful.of_serve? driven.fails step served
  exactly := by
    refine driven.exactly.step step ?_
    rintro piece rfl
    cases step with
    | read phase =>
        exact piece_of_serve? driven.faithful.holds (driven.exactly.reading phase) served
  patient := Patient.step step
  fails := onlyFails_of_serve? driven.fails served

end Driven

end ResumableUpload.Transfer
