import ResumableUpload.Proofs.Endpoint.Held

/-!
# Chunks that come again

Clients that repeat their calls may have the chunks of a file arrive twice, overlap, come out of order
or leave gaps.  In an `Exchange` any number of clients call the endpoint, and a chunk call is answered
some time after it has arrived.  As long as whatever is sent to a path is a slice of one file, sent at
the offset at which the slice begins, the endpoint only ever stores a prefix of that file there.
-/

namespace ResumableUpload

namespace Endpoint

variable {endpoint next : Endpoint} {path content : String} {bytes : Bytes} {offset : Nat}

/-- A chunk is the text of a slice of these bytes that begins at the offset. -/
def IsSlice (bytes : Bytes) (offset : Nat) (content : String) : Prop :=
  ∃ last, offset ≤ last ∧ last ≤ bytes.length ∧ content = Base64.encode (bytes.slice offset last)

/--
Of a path the endpoint stores at most one partial upload, which is a prefix of these bytes and expects
all of them, and has completed nothing else there.
-/
structure Mirrors (endpoint : Endpoint) (path : String) (bytes : Bytes) : Prop where
  single : endpoint.Single path
  begun :
    ∀ upload ∈ endpoint.uploads path, upload.size = bytes.length ∧ upload.data <+: bytes
  completed : ∀ data, endpoint.completed? path = some data → data = bytes

theorem AgreesOn.mirrors
    (agrees : AgreesOn path endpoint next)
    (mirrors : endpoint.Mirrors path bytes) :
    next.Mirrors path bytes where
  single := agrees.single mirrors.single
  begun := by
    rw [agrees.uploads]
    exact mirrors.begun
  completed := by
    rw [agrees.completed]
    exact mirrors.completed

namespace Mirrors

/-- Opening an upload of all bytes gives up one that was completed, or goes on with what is begun. -/
theorem openUpload (mirrors : endpoint.Mirrors path bytes) :
    (endpoint.openUpload path bytes.length).1.Mirrors path bytes := by
  unfold Endpoint.openUpload
  split
  case h_1 => split <;> exact mirrors
  case h_2 missing =>
      have only := uploads_seed missing bytes.length
      refine ⟨?_, ?_, ?_⟩
      · rw [Single, only]
        exact Nat.le_refl 1
      · intro upload member
        rw [only, List.mem_singleton] at member
        subst member
        exact ⟨rfl, List.nil_prefix⟩
      · intro data completed
        have forgotten := completed?_forgetCompleted endpoint path path
        rw [if_pos rfl] at forgotten
        cases forgotten.symm.trans completed

/-- An upload that has grown to a longer prefix is stored, or completed once it is all. -/
theorem store
    {upload grown : PartialUpload}
    (mirrors : endpoint.Mirrors path bytes)
    (found : endpoint.partial? path = some upload)
    (kept : grown.path = path)
    (size : grown.size = bytes.length)
    (begun : grown.data <+: bytes) :
    (endpoint.store path grown).Mirrors path bytes := by
  have left := uploads_store found kept
  rw [mirrors.single.tail_eq] at left
  refine ⟨mirrors.single.store found kept, ?_, ?_⟩
  · intro other member
    rw [left] at member
    split at member
    · cases member
    · rw [List.mem_singleton.mp member]
      exact ⟨size, begun⟩
  · intro data completed
    unfold Endpoint.store at completed
    split at completed
    case isTrue whole =>
        simp only [completed?, List.lookup_cons, beq_self_eq_true, Option.some.injEq] at completed
        rw [← completed]
        exact begun.eq_of_length (whole.trans size)
    case isFalse => exact mirrors.completed data completed

theorem append
    (mirrors : endpoint.Mirrors path bytes)
    (slice : IsSlice bytes offset content) :
    (endpoint.append path content offset).1.Mirrors path bytes := by
  obtain ⟨last, ordered, within, rfl⟩ := slice
  unfold Endpoint.append
  split
  case h_1 => exact mirrors
  case h_2 upload found =>
      simp only [Base64.decode?_encode]
      split
      case isTrue => exact mirrors
      case isFalse reached =>
          obtain ⟨size, begun⟩ := mirrors.begun upload (mem_uploads_of_partial? found)
          have sent : bytes.slice offset last <+: bytes.drop offset := List.take_prefix _ _
          have kept : upload.path = path := path_of_partial? found
          have longer := extend_prefix begun sent (Nat.le_of_not_lt reached)
          exact mirrors.store found kept size longer

theorem delete
    (mirrors : endpoint.Mirrors path bytes)
    (other : String) :
    (endpoint.delete other).1.Mirrors path bytes := by
  by_cases here : path = other
  · subst here
    refine ⟨?_, ?_, ?_⟩
    · rw [Single, uploads_delete]
      exact Nat.zero_le 1
    · rw [uploads_delete]
      exact fun _ member => absurd member List.not_mem_nil
    · rw [completed?_delete]
      exact mirrors.completed
  · exact (delete_agreesOn here endpoint).mirrors mirrors

end Mirrors

end Endpoint

/-! ## Any number of clients -/

/-- An endpoint with the chunk calls that have arrived and are not yet answered. -/
structure Exchange where
  endpoint : Endpoint := {}
  waiting : List ChunkCall := []

namespace Exchange

variable {exchange : Exchange} {path : String} {bytes : Bytes} {move : Move} {moves : List Move}

/-- What some client does, or what comes of a chunk call that has arrived. -/
inductive Move where
  | create (path : String) (size : Nat)
  /-- A chunk call arrives. -/
  | receive (path content : String) (offset : Nat)
  /-- The chunk call that waits at this position is answered. -/
  | answer (position : Nat)
  | status (path : String)
  | delete (path : String)
  | list

/-- The exchange after a move. -/
def after (exchange : Exchange) : Move → Exchange
  | .create path size => { exchange with endpoint := (exchange.endpoint.create path size).1 }
  | .receive path content offset =>
    let (endpoint, call) := exchange.endpoint.receiveChunk path content offset
    ⟨endpoint, exchange.waiting ++ [call]⟩
  | .answer position =>
    match exchange.waiting[position]? with
    | some call => ⟨(exchange.endpoint.answerChunk call).1, exchange.waiting.eraseIdx position⟩
    | none => exchange
  | .status path => { exchange with endpoint := (exchange.endpoint.status path).1 }
  | .delete path => { exchange with endpoint := (exchange.endpoint.delete path).1 }
  | .list => { exchange with endpoint := exchange.endpoint.list.1 }

/-- What is sent to a path is these bytes: uploads of their size, and slices at their offsets. -/
def Move.Sends (path : String) (bytes : Bytes) : Move → Prop
  | .create opened size => opened = path → size = bytes.length
  | .receive sent content offset => sent = path → Endpoint.IsSlice bytes offset content
  | .answer _ | .status _ | .delete _ | .list => True

/-- Whatever is stored of a path, and whatever is yet to be stored there, is of these bytes. -/
structure Repeats (path : String) (bytes : Bytes) (exchange : Exchange) : Prop where
  unscripted : exchange.endpoint.Unscripted
  mirrors : exchange.endpoint.Mirrors path bytes
  waiting :
    ∀ call ∈ exchange.waiting,
      call.canned = none ∧ (call.path = path → Endpoint.IsSlice bytes call.offset call.content)

theorem repeats_empty
    (path : String)
    (bytes : Bytes) :
    Repeats path bytes {} where
  unscripted := ⟨rfl, rfl, rfl⟩
  mirrors := ⟨Nat.zero_le 1, nofun, nofun⟩
  waiting := nofun

theorem Repeats.answer
    {call : ChunkCall}
    (repeats : Repeats path bytes exchange)
    (waits : call ∈ exchange.waiting) :
    (exchange.endpoint.answerChunk call).1.Unscripted ∧
      (exchange.endpoint.answerChunk call).1.Mirrors path bytes := by
  obtain ⟨plain, slice⟩ := repeats.waiting call waits
  by_cases here : call.path = path
  · subst here
    simp only [Endpoint.answerChunk, plain]
    exact ⟨repeats.unscripted.afterAppend _ _ _, repeats.mirrors.append (slice rfl)⟩
  · have agrees := Endpoint.answerChunk_agreesOn (Ne.symm here) exchange.endpoint
    refine ⟨?_, agrees.mirrors repeats.mirrors⟩
    simp only [Endpoint.answerChunk, plain]
    exact repeats.unscripted.afterAppend _ _ _

/-- Every move that sends the path nothing but these bytes keeps it so. -/
theorem Repeats.after
    (repeats : Repeats path bytes exchange)
    (sends : move.Sends path bytes) :
    Repeats path bytes (exchange.after move) := by
  obtain ⟨unscripted, mirrors, waiting⟩ := repeats
  cases move with
  | create opened size =>
      refine ⟨unscripted.afterCreate opened size, ?_, waiting⟩
      by_cases here : opened = path
      · subst here
        have noted := Endpoint.AgreesOn.note opened exchange.endpoint (.create opened size)
        obtain rfl := sends rfl
        simp only [Exchange.after, Endpoint.create_of_nil unscripted.create]
        exact (noted.mirrors mirrors).openUpload
      · exact (Endpoint.create_agreesOn (Ne.symm here) _ _).mirrors mirrors
  | receive sent content offset =>
      have agrees := Endpoint.receiveChunk_agreesOn exchange.endpoint path sent content offset
      have noted :
          exchange.endpoint.receiveChunk sent content offset =
            (exchange.endpoint.note (.chunk sent offset content.utf8ByteSize),
              ⟨sent, content, offset, none⟩) := by
        simp only [Endpoint.receiveChunk, Endpoint.note, unscripted.chunk]
      simp only [Exchange.after, noted] at agrees ⊢
      refine ⟨⟨unscripted.create, unscripted.chunk, unscripted.status⟩, agrees.mirrors mirrors, ?_⟩
      intro call member
      rcases List.mem_append.mp member with earlier | last
      · exact waiting call earlier
      · rw [List.mem_singleton.mp last]
        exact ⟨rfl, sends⟩
  | answer position =>
      simp only [Exchange.after]
      split
      case h_1 call found =>
          have answered := Repeats.answer ⟨unscripted, mirrors, waiting⟩ (List.mem_of_getElem? found)
          refine ⟨answered.1, answered.2, ?_⟩
          intro other member
          exact waiting other (List.mem_of_mem_eraseIdx member)
      case h_2 => exact ⟨unscripted, mirrors, waiting⟩
  | status asked =>
      exact ⟨unscripted.afterStatus asked, (Endpoint.status_agreesOn _ asked path).mirrors mirrors,
        waiting⟩
  | delete given => exact ⟨unscripted.afterDelete given, mirrors.delete given, waiting⟩
  | list =>
      exact ⟨⟨unscripted.create, unscripted.chunk, unscripted.status⟩,
        (Endpoint.AgreesOn.note path _ .list).mirrors mirrors, waiting⟩

theorem repeats_of_moves (sent : ∀ move ∈ moves, move.Sends path bytes) :
    Repeats path bytes (moves.foldl after {}) := by
  suffices kept : ∀ exchange, Repeats path bytes exchange →
      Repeats path bytes (moves.foldl after exchange) from
    kept {} (repeats_empty path bytes)
  induction moves with
  | nil => exact fun _ repeats => repeats
  | cons move rest later =>
      intro exchange repeats
      apply later
      · exact fun other member => sent other (List.mem_cons_of_mem _ member)
      · exact repeats.after (sent move List.mem_cons_self)

/--
Whatever clients do at an endpoint that was empty, as long as all that is sent to a path is slices of
one file: a partial upload there is a prefix of the file, and a completed one is the file.  A chunk call
never lowers what is held of the path, neither when it arrives nor when it is answered, and changes
nothing at all unless its answer has status 200; that answer is the one that a status call is given
right after it, and what it confirms is what is held.
-/
theorem retransmissions_keep_file (sent : ∀ move ∈ moves, move.Sends path bytes) :
    let exchange := moves.foldl after {}
    (∀ upload ∈ exchange.endpoint.uploads path,
        upload.size = bytes.length ∧ upload.data <+: bytes) ∧
      (∀ data, exchange.endpoint.completed? path = some data → data = bytes) ∧
      (∀ other content offset,
        (exchange.endpoint.receiveChunk other content offset).1.held path =
          exchange.endpoint.held path) ∧
      ∀ call ∈ exchange.waiting,
        let answered := exchange.endpoint.answerChunk call
        exchange.endpoint.held path ≤ answered.1.held path ∧
          (call.path = path →
            ∃ response, answered.2 = .ok response ∧
              (response.status ≠ Status.ok → answered.1 = exchange.endpoint) ∧
              (response.status = Status.ok →
                (answered.1.status path).2 = .ok response ∧
                  ∃ reply,
                    response.body = some reply ∧ reply.uploaded = answered.1.held path)) := by
  intro exchange
  have repeats : Repeats path bytes exchange := repeats_of_moves sent
  refine ⟨repeats.mirrors.begun, repeats.mirrors.completed, ?_, ?_⟩
  · intro other content offset
    exact (Endpoint.receiveChunk_agreesOn _ path other content offset).held_eq
  · intro call waits answered
    have unscripted := (repeats.answer waits).1
    by_cases here : call.path = path
    · have appended : answered = exchange.endpoint.append path call.content call.offset := by
        simp only [answered, Endpoint.answerChunk, (repeats.waiting call waits).1, here]
      obtain ⟨_, longer, response, answer, refused, accepted⟩ :=
        Endpoint.append_held repeats.mirrors.single call.content call.offset
      rw [← appended] at longer answer refused accepted
      refine ⟨longer, fun _ => ⟨response, answer, fun failed => (refused failed).1, ?_⟩⟩
      intro confirmed
      obtain ⟨reply, body, known⟩ := accepted confirmed
      refine ⟨?_, reply, body, (Endpoint.held_of_statusOf? known).symm⟩
      obtain ⟨status, given⟩ := response
      cases confirmed
      cases body
      rw [Endpoint.status_of_nil unscripted.status]
      simp only [answered] at known
      simp only [known]
      rfl
    · have agrees := Endpoint.answerChunk_agreesOn (Ne.symm here) exchange.endpoint
      exact ⟨Nat.le_of_eq agrees.held_eq.symm, fun same => absurd same here⟩

/--
The first chunk of a file arrives twice, and the one that follows it is answered before and after; then
a chunk arrives that goes on from the middle of the first.
-/
def repeatedChunks : List Move :=
  let file : Bytes := [7, 8, 9]
  [ .create "a" 3, .receive "a" (Base64.encode (file.slice 0 2)) 0, .create "b" 1,
    .receive "a" (Base64.encode (file.slice 2 3)) 2,
    .receive "a" (Base64.encode (file.slice 0 2)) 0, .answer 1, .answer 0, .answer 0, .status "a",
    .receive "a" (Base64.encode (file.slice 1 3)) 1 ]

theorem repeated_chunks_keep_file :
    let exchange := repeatedChunks.foldl after {}
    (∀ move ∈ repeatedChunks, move.Sends "a" [7, 8, 9]) ∧
      exchange.endpoint.pendingLength? "a" = some 2 ∧
      ∃ call ∈ exchange.waiting, call.path = "a" ∧
        (∀ data, exchange.endpoint.completed? "a" = some data → data = [7, 8, 9]) ∧
        2 ≤ (exchange.endpoint.answerChunk call).1.held "a" ∧
        (exchange.endpoint.answerChunk call).1.completed? "a" = some [7, 8, 9] := by
  intro exchange
  have sent : ∀ move ∈ repeatedChunks, move.Sends "a" [7, 8, 9] := by
    simp only [repeatedChunks, List.forall_mem_cons]
    refine ⟨fun _ => rfl, fun _ => ⟨2, ?_⟩, nofun, fun _ => ⟨3, ?_⟩, fun _ => ⟨2, ?_⟩, trivial,
      trivial, trivial, trivial, fun _ => ⟨3, ?_⟩, nofun⟩ <;> decide
  obtain ⟨_, completed, _, answers⟩ := retransmissions_keep_file sent
  have waits : (⟨"a", "CAk=", 1, none⟩ : ChunkCall) ∈ exchange.waiting := by
    rw [show exchange.waiting = [⟨"a", "CAk=", 1, none⟩] by rfl]
    exact List.mem_singleton_self _
  have stored : exchange.endpoint.held "a" = 2 := by decide
  exact ⟨sent, by decide, _, waits, rfl, completed, stored ▸ (answers _ waits).1, by decide⟩

end Exchange

end ResumableUpload
