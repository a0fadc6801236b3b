import ResumableUpload.Proofs.Endpoint.Store

/-!
# How much the endpoint holds of a path

Of a path the endpoint holds what is stored of the upload that is begun there, or else what was
completed.  As long as there is no second upload behind the first, a chunk call never lowers that, and
an answer confirms neither more nor less than what is held once it is given.  Only opening an upload
can lower it, where one that was completed is given up; what was stored of one that is begun it keeps.
-/

namespace ResumableUpload.Endpoint

variable {endpoint next : Endpoint} {path : String} {bytes : Bytes}

/-- How many bytes of a path the endpoint holds, of an upload that is begun or completed. -/
def held (endpoint : Endpoint) (path : String) : Nat :=
  match endpoint.statusOf? path with
  | some reply => reply.uploaded
  | none => 0

/-- How many bytes are stored of the upload that is begun at a path. -/
def stored (endpoint : Endpoint) (path : String) : Nat :=
  (endpoint.pendingLength? path).getD 0

theorem stored_of_pending
    {length : Nat}
    (found : endpoint.pendingLength? path = some length) :
    endpoint.stored path = length := by
  rw [stored, found, Option.getD_some]

theorem stored_of_missing (missing : endpoint.partial? path = none) :
    endpoint.stored path = 0 := by
  rw [stored, pendingLength?, missing, Option.map_none, Option.getD_none]

/-- No second upload of a path waits behind the first. -/
def Single (endpoint : Endpoint) (path : String) : Prop :=
  (endpoint.uploads path).length ≤ 1

theorem held_of_partial?
    {upload : PartialUpload}
    (found : endpoint.partial? path = some upload) :
    endpoint.held path = upload.data.length := by
  simp only [held, statusOf?, found]

theorem stored_le_held
    (endpoint : Endpoint)
    (path : String) :
    endpoint.stored path ≤ endpoint.held path := by
  cases found : endpoint.partial? path with
  | none =>
      rw [stored_of_missing found]
      exact Nat.zero_le _
  | some upload =>
      rw [stored_of_pending (pendingLength?_of_partial? found), held_of_partial? found]

namespace AgreesOn

theorem held_eq (agrees : AgreesOn path endpoint next) :
    next.held path = endpoint.held path := by
  simp only [held, statusOf?, agrees.partial?_eq, agrees.completed]

theorem stored_eq (agrees : AgreesOn path endpoint next) :
    next.stored path = endpoint.stored path := by
  simp only [stored, pendingLength?, agrees.partial?_eq]

theorem single
    (agrees : AgreesOn path endpoint next)
    (single : endpoint.Single path) :
    next.Single path := by
  unfold Single
  rw [agrees.uploads]
  exact single

end AgreesOn

/-! ## Storing an upload that has grown -/

theorem filter_eraseP_self
    {α : Type}
    (wanted : α → Bool)
    (items : List α) :
    (items.eraseP wanted).filter wanted = (items.filter wanted).tail := by
  induction items with
  | nil => rfl
  | cons item rest later =>
      by_cases here : wanted item = true
      · rw [List.eraseP_cons_of_pos here, List.filter_cons_of_pos here, List.tail_cons]
      · rw [List.eraseP_cons_of_neg here, List.filter_cons_of_neg here,
          List.filter_cons_of_neg here, later]

theorem filter_replaceFirst_self
    {changed upload : PartialUpload}
    {pending : List PartialUpload}
    (kept : changed.path = path)
    (found : pending.find? (·.path == path) = some upload) :
    (replaceFirst path changed pending).filter (·.path == path) =
      changed :: (pending.filter (·.path == path)).tail := by
  have changed_wanted : (changed.path == path) = true := beq_iff_eq.mpr kept
  induction pending with
  | nil => cases found
  | cons head rest later =>
      unfold replaceFirst
      split
      case isTrue here =>
          simp only [List.filter_cons, changed_wanted, here, ↓reduceIte, List.tail_cons]
      case isFalse differs =>
          have skipped : (head.path == path) = false := Bool.eq_false_iff.mpr differs
          simp only [List.find?_cons, skipped] at found
          simp only [List.filter_cons, skipped, Bool.false_eq_true, ↓reduceIte]
          exact later found

/-- The upload that has grown takes the place of the first, or leaves it once it is whole. -/
theorem uploads_store
    {upload grown : PartialUpload}
    (found : endpoint.partial? path = some upload)
    (kept : grown.path = path) :
    (endpoint.store path grown).uploads path =
      if grown.data.length = grown.size then (endpoint.uploads path).tail
      else grown :: (endpoint.uploads path).tail := by
  unfold store
  split
  case isTrue => exact filter_eraseP_self _ endpoint.pending
  case isFalse => exact filter_replaceFirst_self kept found

theorem Single.tail_eq
    (single : endpoint.Single path) :
    (endpoint.uploads path).tail = [] := by
  rw [← List.length_eq_zero_iff, List.length_tail]
  unfold Single at single
  omega

theorem Single.store
    {upload grown : PartialUpload}
    (single : endpoint.Single path)
    (found : endpoint.partial? path = some upload)
    (kept : grown.path = path) :
    (endpoint.store path grown).Single path := by
  unfold Single
  rw [uploads_store found kept, single.tail_eq]
  split
  · exact Nat.zero_le 1
  · exact Nat.le_refl 1

/-- What has grown is what a status call then finds, whether or not it is whole. -/
theorem Single.statusOf?_store
    {upload grown : PartialUpload}
    (single : endpoint.Single path)
    (found : endpoint.partial? path = some upload)
    (kept : grown.path = path) :
    (endpoint.store path grown).statusOf? path = some ⟨path, grown.data.length, grown.size⟩ := by
  have first := partial?_eq_head? (endpoint.store path grown) path
  rw [uploads_store found kept, single.tail_eq] at first
  by_cases whole : grown.data.length = grown.size
  · have completed : (endpoint.store path grown).completed? path = some grown.data := by
      simp only [Endpoint.store, whole, ↓reduceIte, completed?, List.lookup_cons,
        beq_self_eq_true]
    rw [if_pos whole, List.head?_nil] at first
    simp only [statusOf?, first, completed, Option.map_some, whole]
  · rw [if_neg whole, List.head?_cons] at first
    simp only [statusOf?, first]

theorem held_of_statusOf?
    {reply : StatusReply}
    (known : endpoint.statusOf? path = some reply) :
    endpoint.held path = reply.uploaded := by
  simp only [held, known]

/-! ## What a call does to what is held -/

theorem pendingLength?_seed
    (missing : endpoint.partial? path = none)
    (size : Nat) :
    ((endpoint.forgetCompleted path).seed path size []).pendingLength? path = some 0 := by
  have first :
      ((endpoint.forgetCompleted path).seed path size []).partial? path =
        some ⟨path, size, []⟩ := by
    rw [partial?_eq_head?, uploads_seed missing size, List.head?_cons]
  exact pendingLength?_of_partial? first

/-- Opening an upload keeps what is stored of the one that is begun. -/
theorem create_stored
    (unscripted : endpoint.Unscripted)
    (single : endpoint.Single path)
    (size : Nat) :
    (endpoint.create path size).1.Single path ∧
      (endpoint.create path size).1.stored path = endpoint.stored path := by
  rw [create_of_nil unscripted.create]
  unfold openUpload
  split
  case h_1 => split <;> exact ⟨single, rfl⟩
  case h_2 missing =>
      have nothing : endpoint.stored path = 0 := stored_of_missing missing
      have only := uploads_seed missing size
      constructor
      · rw [Single, only]
        exact Nat.le_refl 1
      · rw [nothing]
        exact stored_of_pending (pendingLength?_seed missing size)

/-- Opening the upload of a file that is partway goes well. -/
theorem create_begins
    (unscripted : endpoint.Unscripted)
    (partway : endpoint.Partway path bytes) :
    (∃ status body,
      (endpoint.create path bytes.length).2 = .ok ⟨status, body⟩ ∧
        Status.isCreated status = true) ∧
      (endpoint.create path bytes.length).1.pendingLength? path =
        some (endpoint.stored path) := by
  rw [create_of_nil unscripted.create]
  unfold openUpload
  split
  case h_1 upload found =>
      have size : upload.size = bytes.length :=
        (partway upload (mem_uploads_of_partial? found)).1
      have pending := pendingLength?_of_partial? found
      rw [if_pos size]
      constructor
      · exact ⟨_, _, rfl, rfl⟩
      · have same : endpoint.stored path = upload.data.length := stored_of_pending pending
        rw [same]
        exact pending
  case h_2 missing =>
      constructor
      · exact ⟨_, _, rfl, rfl⟩
      · have nothing : endpoint.stored path = 0 := stored_of_missing missing
        rw [nothing]
        exact pendingLength?_seed missing bytes.length

/--
Appending a chunk takes nothing away.  An answer with status 200 tells what a status call then finds,
and any other one means that nothing has changed.
-/
theorem append_held
    (single : endpoint.Single path)
    (content : String)
    (offset : Nat) :
    (endpoint.append path content offset).1.Single path ∧
      endpoint.held path ≤ (endpoint.append path content offset).1.held path ∧
      ∃ response, (endpoint.append path content offset).2 = .ok response ∧
        (response.status ≠ Status.ok →
          (endpoint.append path content offset).1 = endpoint ∧ response.body = none) ∧
        (response.status = Status.ok →
          ∃ reply, response.body = some reply ∧
            (endpoint.append path content offset).1.statusOf? path = some reply) := by
  unfold append
  split
  case h_1 =>
      refine ⟨single, Nat.le_refl _, _, rfl, fun _ => ⟨rfl, rfl⟩, ?_⟩
      rintro ⟨⟩
  case h_2 upload found =>
      split
      case h_1 =>
          refine ⟨single, Nat.le_refl _, _, rfl, fun _ => ⟨rfl, rfl⟩, ?_⟩
          rintro ⟨⟩
      case h_2 piece _ =>
          split
          case isTrue =>
              refine ⟨single, Nat.le_refl _, _, rfl, fun _ => ⟨rfl, rfl⟩, ?_⟩
              rintro ⟨⟩
          case isFalse =>
              have same : upload.path = path := path_of_partial? found
              have kept : (extend upload piece offset).path = path := same
              have known := single.statusOf?_store found kept
              have longer : upload.data.length ≤ (extend upload piece offset).data.length := by
                rw [extend, List.length_append]
                exact Nat.le_add_right _ _
              refine ⟨single.store found kept, ?_, _, rfl, ?_, ?_⟩
              · dsimp only
                rw [held_of_statusOf? known, held_of_partial? found]
                exact longer
              · intro refused
                exact absurd rfl refused
              · exact fun _ => ⟨_, rfl, known⟩

/-- A chunk call takes nothing away, and an answer with an offset confirms what is held then. -/
theorem chunk_held
    (unscripted : endpoint.Unscripted)
    (single : endpoint.Single path)
    (content : String)
    (offset : Nat) :
    (endpoint.chunk path content offset).1.Single path ∧
      endpoint.held path ≤ (endpoint.chunk path content offset).1.held path ∧
      ∀ {status : Nat} {reply : StatusReply},
        (endpoint.chunk path content offset).2 = .ok ⟨status, some reply⟩ →
          reply.uploaded = (endpoint.chunk path content offset).1.held path := by
  have noted := AgreesOn.note path endpoint (.chunk path offset content.utf8ByteSize)
  rw [chunk_of_nil unscripted.chunk]
  obtain ⟨still, longer, response, answer, refused, accepted⟩ :=
    append_held (noted.single single) content offset
  refine ⟨still, noted.held_eq ▸ longer, ?_⟩
  intro status reply given
  cases answer.symm.trans given
  by_cases taken : status = Status.ok
  · obtain ⟨told, same, known⟩ := accepted taken
    cases same
    exact (held_of_statusOf? known).symm
  · cases (refused taken).2

/-- An answer to a status call confirms what is held. -/
theorem status_held
    (unscripted : endpoint.Unscripted)
    {status : Nat}
    {reply : StatusReply}
    (answer : (endpoint.status path).2 = .ok ⟨status, some reply⟩) :
    reply.uploaded = endpoint.held path := by
  rw [status_of_nil unscripted.status] at answer
  cases known : endpoint.statusOf? path with
  | none =>
      rw [known] at answer
      cases answer
  | some told =>
      rw [known] at answer
      cases answer
      simp only [held, known]

/-- A piece of the file that leaves no gap is appended as far as it is not stored yet. -/
theorem chunk_overlaps
    {length offset : Nat}
    {piece : Bytes}
    (unscripted : endpoint.Unscripted)
    (partway : endpoint.Partway path bytes)
    (found : endpoint.pendingLength? path = some length)
    (reached : offset ≤ length)
    (within : offset + piece.length ≤ bytes.length) :
    (endpoint.chunk path (Base64.encode piece) offset).2 =
        .ok (Response.success ⟨path, max length (offset + piece.length), bytes.length⟩) ∧
      (max length (offset + piece.length) < bytes.length →
        (endpoint.chunk path (Base64.encode piece) offset).1.pendingLength? path =
          some (max length (offset + piece.length))) := by
  have below := partway.pendingLength?_lt found
  obtain ⟨upload, pending, rfl⟩ := Option.map_eq_some_iff.mp found
  have size : upload.size = bytes.length := (partway upload (mem_uploads_of_partial? pending)).1
  have kept : upload.path = path := path_of_partial? pending
  have length :
      (extend upload piece offset).data.length =
        max upload.data.length (offset + piece.length) := by
    rw [length_extend]
    omega
  let noted := endpoint.note (.chunk path offset (Base64.encode piece).utf8ByteSize)
  have here : noted.partial? path = some upload := pending
  have appended :
      endpoint.chunk path (Base64.encode piece) offset =
        (noted.store path (extend upload piece offset),
          .ok (Response.success
            ⟨path, max upload.data.length (offset + piece.length), bytes.length⟩)) := by
    rw [chunk_of_nil unscripted.chunk]
    simp only [append, here, Base64.decode?_encode, Nat.not_lt.mpr reached, ↓reduceIte, length,
      noted]
    rw [← size]
    rfl
  rw [appended]
  refine ⟨rfl, ?_⟩
  intro lacking
  rw [← length, ← size] at lacking
  rw [← length]
  exact pendingLength?_store here kept lacking

/-- A chunk that begins beyond what is stored is refused, and nothing is stored. -/
theorem chunk_beyond
    {length offset : Nat}
    (unscripted : endpoint.Unscripted)
    (found : endpoint.pendingLength? path = some length)
    (beyond : length < offset)
    (piece : Bytes) :
    (endpoint.chunk path (Base64.encode piece) offset).2 = .ok ⟨416, none⟩ ∧
      (endpoint.chunk path (Base64.encode piece) offset).1.pendingLength? path = some length := by
  obtain ⟨upload, pending, rfl⟩ := Option.map_eq_some_iff.mp found
  have refused :
      endpoint.chunk path (Base64.encode piece) offset =
        (endpoint.note (.chunk path offset (Base64.encode piece).utf8ByteSize),
          .ok ⟨416, none⟩) := by
    rw [chunk_of_nil unscripted.chunk]
    have noted :
        (endpoint.note (.chunk path offset (Base64.encode piece).utf8ByteSize)).partial? path =
          some upload :=
      pending
    simp only [append, noted, Base64.decode?_encode, if_pos beyond]
  rw [refused]
  exact ⟨rfl, found⟩

/-- An endpoint that is asked tells how much is stored of an upload that is begun. -/
theorem status_tells
    {length : Nat}
    (unscripted : endpoint.Unscripted)
    (found : endpoint.pendingLength? path = some length) :
    ∃ size,
      (endpoint.status path).2 = .ok (Response.success ⟨path, length, size⟩) ∧
        (endpoint.status path).1.pendingLength? path = some length := by
  obtain ⟨upload, pending, rfl⟩ := Option.map_eq_some_iff.mp found
  rw [status_of_nil unscripted.status]
  refine ⟨upload.size, ?_, found⟩
  simp only [statusOf?, pending]

end ResumableUpload.Endpoint
