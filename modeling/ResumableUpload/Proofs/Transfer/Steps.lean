import ResumableUpload.Proofs.Endpoint.Store
import ResumableUpload.Proofs.Engine.Steps
import ResumableUpload.Proofs.Trace

/-!
# A transfer over a lossy network

A `Transfer` is an engine with the endpoint that serves it.  The network between the two may lose a
call before the endpoint has served it, or the answer after that; the engine is then given another
answer, which carries nothing.  Reads bring what the file holds, or fail.  At any time the engine can
be told to stop, and other clients can use the endpoint as long as they do not write the path.
-/

namespace ResumableUpload

/-- Reads within the file bring these bytes. -/
structure FileHandle.Holds (file : FileHandle) (bytes : Bytes) : Prop where
  size : file.size = bytes.length
  read :
    ∀ {first last : Nat}, first ≤ last → last ≤ bytes.length →
      file.source.read first last = .ok (bytes.slice first last)

theorem FileHandle.holds_ofBytes
    (identity : Nat)
    (bytes : Bytes) :
    FileHandle.Holds ⟨identity, .ofBytes bytes⟩ bytes where
  size := rfl
  read {first last} ordered within := by
    simp only [Source.ofBytes, Source.checkRange_of_within ordered within]
    rfl

/-- The next chunk of a file of which something is left can be read. -/
theorem FileHandle.Holds.read_chunk
    {engine : Engine}
    {bytes : Bytes}
    (holds : engine.file.Holds bytes)
    (left : engine.offset < engine.size) :
    engine.file.source.read engine.offset engine.chunkLast =
      .ok (bytes.slice engine.offset engine.chunkLast) := by
  have size : engine.size = bytes.length := holds.size
  apply holds.read
  · simp only [Engine.chunkLast, chunkEnd]
    omega
  · rw [← size]
    exact Nat.min_le_right _ _

namespace Transfer

/-- The answer to a chunk or status call that stands in for a lost one. -/
def Lost (answer : Answer StatusReply) : Prop :=
  match answer with
  | .error _ => True
  | .ok response => response.body = none

/-- The answer to a create call that stands in for a lost one; it does not let the upload go on. -/
def LostCreate (answer : Answer CreateReply) : Prop :=
  match answer with
  | .error _ => True
  | .ok response => response.body = none ∧ Status.isCreated response.status = false

/-- What comes of a call on a lossy network, with the endpoint after it and the answer given. -/
inductive Delivery {α : Type} (lost : Answer α → Prop) (endpoint : Endpoint)
    (served : Endpoint × Answer α) : Endpoint → Answer α → Prop where
  | answered : Delivery lost endpoint served served.1 served.2
  | unanswered {answer : Answer α} (replaced : lost answer) :
      Delivery lost endpoint served served.1 answer
  | unserved {answer : Answer α} (replaced : lost answer) :
      Delivery lost endpoint served endpoint answer

/-- How the world answers what an engine does, with the endpoint after it. -/
inductive Served (engine : Engine) (endpoint : Endpoint) : Engine.Act → Endpoint → Prop where
  | create {answer : Answer CreateReply} {next : Endpoint}
      (delivery :
        Delivery LostCreate endpoint (endpoint.create engine.path engine.size) next answer) :
      Served engine endpoint (.create answer) next
  | read :
      Served engine endpoint
        (.read (engine.file.source.read engine.offset engine.chunkLast)) endpoint
  | unread (error : ReadError) :
      Served engine endpoint (.read (.error error)) endpoint
  | chunk {offset : Nat} {content : String} {answer : Answer StatusReply} {next : Endpoint}
      (delivery :
        Delivery Lost endpoint (endpoint.chunk engine.path content offset) next answer) :
      Served engine endpoint (.chunk offset content answer) next
  | status {answer : Answer StatusReply} {next : Endpoint}
      (delivery : Delivery Lost endpoint (endpoint.status engine.path) next answer) :
      Served engine endpoint (.status answer) next
  | report (report : Report) :
      Served engine endpoint (.report report) endpoint
  | check :
      Served engine endpoint .check endpoint
  | wait :
      Served engine endpoint .wait endpoint

/-- What an engine does next if its call is answered, with the endpoint after it. -/
def serve? (engine : Engine) (endpoint : Endpoint) : Option (Engine.Act × Endpoint) :=
  match engine.phase with
  | .creating _ =>
    let (next, answer) := endpoint.create engine.path engine.size
    some (.create answer, next)
  | .reading => some (.read (engine.file.source.read engine.offset engine.chunkLast), endpoint)
  | .sending content =>
    let (next, answer) := endpoint.chunk engine.path content engine.offset
    some (.chunk engine.offset content answer, next)
  | .resyncing =>
    let (next, answer) := endpoint.status engine.path
    some (.status answer, next)
  | .checking => some (.check, endpoint)
  | .pausingCreate _ | .backingOff => some (.wait, endpoint)
  | .accepted | .refused _ | .concluding _ =>
    engine.report?.map fun report => (.report report, endpoint)
  | .idle | .ended _ => none

/-- An act whose call was served, with an answer that got lost. -/
def unanswered : Engine.Act → Engine.Act
  | .create _ => .create (.error (.io "lost"))
  | .chunk offset content _ => .chunk offset content (.error (.io "lost"))
  | .status _ => .status (.error (.io "lost"))
  | act => act

/-- What an engine does if its call is answered, with the endpoint after it. -/
inductive Answered (engine : Engine) (endpoint : Endpoint) : Engine.Act → Endpoint → Prop where
  | create :
      Answered engine endpoint (.create (endpoint.create engine.path engine.size).2)
        (endpoint.create engine.path engine.size).1
  | read :
      Answered engine endpoint
        (.read (engine.file.source.read engine.offset engine.chunkLast)) endpoint
  | chunk (content : String) :
      Answered engine endpoint
        (.chunk engine.offset content (endpoint.chunk engine.path content engine.offset).2)
        (endpoint.chunk engine.path content engine.offset).1
  | status :
      Answered engine endpoint (.status (endpoint.status engine.path).2)
        (endpoint.status engine.path).1
  | report (report : Report) :
      Answered engine endpoint (.report report) endpoint
  | check :
      Answered engine endpoint .check endpoint
  | wait :
      Answered engine endpoint .wait endpoint

theorem answered_of_serve?
    {engine : Engine}
    {endpoint next : Endpoint}
    {act : Engine.Act}
    (served : serve? engine endpoint = some (act, next)) :
    Answered engine endpoint act next := by
  unfold serve? at served
  split at served
  case h_1 => cases served; exact .create
  case h_2 => cases served; exact .read
  case h_3 content _ => cases served; exact .chunk content
  case h_4 => cases served; exact .status
  case h_5 => cases served; exact .check
  case h_6 | h_7 => cases served; exact .wait
  case h_8 | h_9 | h_10 =>
      obtain ⟨report, _, same⟩ := Option.map_eq_some_iff.mp served
      cases same
      exact .report report
  case h_11 | h_12 => cases served

theorem Served.unanswered
    {engine : Engine}
    {endpoint next : Endpoint}
    {act : Engine.Act}
    (served : serve? engine endpoint = some (act, next)) :
    Served engine endpoint (unanswered act) next := by
  cases answered_of_serve? served with
  | create => exact .create (.unanswered trivial)
  | read => exact .read
  | chunk => exact .chunk (.unanswered trivial)
  | status => exact .status (.unanswered trivial)
  | report report => exact .report report
  | check => exact .check
  | wait => exact .wait

theorem served_of_serve?
    {engine : Engine}
    {endpoint next : Endpoint}
    {act : Engine.Act}
    (served : serve? engine endpoint = some (act, next)) :
    Served engine endpoint act next := by
  cases answered_of_serve? served with
  | create => exact .create .answered
  | read => exact .read
  | chunk => exact .chunk .answered
  | status => exact .status .answered
  | report report => exact .report report
  | check => exact .check
  | wait => exact .wait

end Transfer

/-- An engine with the endpoint that serves it. -/
structure Transfer where
  engine : Engine
  endpoint : Endpoint

namespace Transfer

/-- What happens next in a transfer. -/
inductive Move where
  | act (act : Engine.Act)
  /-- The engine is told to stop. -/
  | stop
  /-- Another client uses the endpoint. -/
  | elsewhere

/-- What the engine does in a move. -/
def Move.act? : Move → Option Engine.Act
  | .act done => some done
  | .stop | .elsewhere => none

/-- The steps of a transfer. -/
inductive Step : Transfer → Move → Transfer → Prop where
  | act {transfer : Transfer} {act : Engine.Act} {engine : Engine} {endpoint : Endpoint}
      (step : Engine.Step transfer.engine act engine)
      (served : Served transfer.engine transfer.endpoint act endpoint) :
      Step transfer (.act act) ⟨engine, endpoint⟩
  | stop {transfer : Transfer} :
      Step transfer .stop ⟨transfer.engine.requestStop, transfer.endpoint⟩
  | elsewhere {transfer : Transfer} {endpoint : Endpoint}
      (elsewhere : transfer.endpoint.Elsewhere transfer.engine.path endpoint) :
      Step transfer .elsewhere ⟨transfer.engine, endpoint⟩

/-- The transfer after the engine has gone on, where the answer to a call may get lost. -/
def advance? (transfer : Transfer) (lost : Bool) : Option Transfer :=
  (serve? transfer.engine transfer.endpoint).bind fun (act, endpoint) =>
    (transfer.engine.act? (if lost then unanswered act else act)).map fun engine =>
      ⟨engine, endpoint⟩

theorem step_of_advance?
    {transfer next : Transfer}
    {lost : Bool}
    (advanced : transfer.advance? lost = some next) :
    ∃ move, Step transfer move next := by
  obtain ⟨⟨act, endpoint⟩, served, stepped⟩ := Option.bind_eq_some_iff.mp advanced
  obtain ⟨engine, done, rfl⟩ := Option.map_eq_some_iff.mp stepped
  cases lost with
  | false => exact ⟨.act act, .act (Engine.step_of_act? done) (served_of_serve? served)⟩
  | true => exact ⟨.act (unanswered act), .act (Engine.step_of_act? done) (.unanswered served)⟩

/-! ## What serving an engine leaves alone -/

theorem Delivery.endpoint_cases
    {α : Type}
    {lost : Answer α → Prop}
    {endpoint next : Endpoint}
    {served : Endpoint × Answer α}
    {answer : Answer α}
    (delivery : Delivery lost endpoint served next answer) :
    next = served.1 ∨ next = endpoint := by
  cases delivery with
  | answered => exact .inl rfl
  | unanswered => exact .inl rfl
  | unserved => exact .inr rfl

theorem Served.unscripted
    {engine : Engine}
    {endpoint next : Endpoint}
    {act : Engine.Act}
    (served : Served engine endpoint act next)
    (unscripted : endpoint.Unscripted) :
    next.Unscripted := by
  cases served with
  | create delivery =>
      rcases delivery.endpoint_cases with rfl | rfl
      · exact unscripted.afterCreate _ _
      · exact unscripted
  | chunk delivery =>
      rcases delivery.endpoint_cases with rfl | rfl
      · exact unscripted.afterChunk _ _ _
      · exact unscripted
  | status delivery =>
      rcases delivery.endpoint_cases with rfl | rfl
      · exact unscripted.afterStatus _
      · exact unscripted
  | read | unread | report | check | wait => exact unscripted

/-- An engine of another path leaves alone what the endpoint stores of this one. -/
theorem Served.agreesOn
    {engine : Engine}
    {endpoint next : Endpoint}
    {act : Engine.Act}
    {path : String}
    (served : Served engine endpoint act next)
    (differs : path ≠ engine.path) :
    Endpoint.AgreesOn path endpoint next := by
  cases served with
  | create delivery =>
      rcases delivery.endpoint_cases with rfl | rfl
      · exact Endpoint.create_agreesOn differs endpoint _
      · exact .refl path _
  | chunk delivery =>
      rcases delivery.endpoint_cases with rfl | rfl
      · exact Endpoint.chunk_agreesOn differs endpoint _ _
      · exact .refl path _
  | status delivery =>
      rcases delivery.endpoint_cases with rfl | rfl
      · exact Endpoint.status_agreesOn endpoint _ _
      · exact .refl path _
  | read | unread | report | check | wait => exact .refl path endpoint

end Transfer

end ResumableUpload
