import Mathlib.Data.List.Infix
import ResumableUpload.Endpoint
import ResumableUpload.Proofs.Base64

/-!
# What the endpoint stores of a path

Of one path the endpoint stores the partial uploads opened for it and the bytes of a completed one.
An operation touches those of its own path only (`AgreesOn`).  While one client sends a file there,
every partial upload is a proper prefix of the file (`Partway`), and from the create call on there is
always one, or the file is completed (`Opened`).
-/

namespace ResumableUpload

/-- What the endpoint lists of a partial upload. -/
def PartialUpload.info (upload : PartialUpload) : PartialInfo :=
  ⟨upload.path, upload.size, upload.data.length⟩

namespace Endpoint

variable {endpoint next : Endpoint} {path other : String} {bytes : Bytes}

/-- No canned answers are left. -/
structure Unscripted (endpoint : Endpoint) : Prop where
  create : endpoint.createScript = []
  chunk : endpoint.chunkScript = []
  status : endpoint.statusScript = []

/-- The partial uploads of a path. -/
def uploads (endpoint : Endpoint) (path : String) : List PartialUpload :=
  endpoint.pending.filter (·.path == path)

theorem partial?_eq_head?
    (endpoint : Endpoint)
    (path : String) :
    endpoint.partial? path = (endpoint.uploads path).head? := by
  simp only [partial?, uploads, List.head?_filter]

/-- A chunk call that arrives and is answered without delay. -/
def chunk (endpoint : Endpoint) (path content : String) (offset : Nat) :
    Endpoint × Answer StatusReply :=
  let (received, call) := endpoint.receiveChunk path content offset
  received.answerChunk call

/-! ## One path at a time -/

/-- Two states of an endpoint store the same of a path. -/
structure AgreesOn (path : String) (endpoint next : Endpoint) : Prop where
  uploads : next.uploads path = endpoint.uploads path
  completed : next.completed? path = endpoint.completed? path

namespace AgreesOn

theorem refl
    (path : String)
    (endpoint : Endpoint) :
    AgreesOn path endpoint endpoint :=
  ⟨rfl, rfl⟩

theorem trans
    {last : Endpoint}
    (first : AgreesOn path endpoint next)
    (second : AgreesOn path next last) :
    AgreesOn path endpoint last :=
  ⟨second.uploads.trans first.uploads, second.completed.trans first.completed⟩

theorem note
    (path : String)
    (endpoint : Endpoint)
    (call : EndpointCall) :
    AgreesOn path endpoint (endpoint.note call) :=
  ⟨rfl, rfl⟩

theorem partial?_eq (agrees : AgreesOn path endpoint next) :
    next.partial? path = endpoint.partial? path := by
  rw [partial?_eq_head?, partial?_eq_head?, agrees.uploads]

end AgreesOn

theorem completed?_forgetCompleted
    (endpoint : Endpoint)
    (path other : String) :
    (endpoint.forgetCompleted path).completed? other =
      if other = path then none else endpoint.completed? other := by
  simp only [completed?, forgetCompleted]
  generalize endpoint.completed = completed
  induction completed with
  | nil => simp
  | cons head rest unchanged =>
      obtain ⟨stored, data⟩ := head
      by_cases here : stored = path
      · have dropped : (stored != path) = false := by simp [here]
        rw [List.filter_cons_of_neg (by simp [here]), unchanged]
        by_cases same : other = path
        · rw [if_pos same, if_pos same]
        · have differs : (other == stored) = false := by simp [here, same]
          rw [if_neg same, if_neg same, List.lookup_cons, differs]
      · rw [List.filter_cons_of_pos (by simp [here]), List.lookup_cons, List.lookup_cons, unchanged]
        split
        case h_1 found =>
            have same : other = stored := by simpa using found
            rw [same, if_neg here]
        case h_2 => rfl

theorem filter_replaceFirst
    {changed : PartialUpload}
    (kept : changed.path = path)
    (differs : other ≠ path)
    (pending : List PartialUpload) :
    (replaceFirst path changed pending).filter (·.path == other) =
      pending.filter (·.path == other) := by
  induction pending with
  | nil => rfl
  | cons upload rest unchanged =>
      unfold replaceFirst
      split
      case isTrue here =>
          have same : upload.path = path := by simpa using here
          rw [List.filter_cons_of_neg, List.filter_cons_of_neg]
          · simpa [same] using differs.symm
          · simpa [kept] using differs.symm
      case isFalse => rw [List.filter_cons, List.filter_cons, unchanged]

theorem filter_eraseP
    (differs : other ≠ path)
    (pending : List PartialUpload) :
    (pending.eraseP (·.path == path)).filter (·.path == other) =
      pending.filter (·.path == other) := by
  induction pending with
  | nil => rfl
  | cons upload rest unchanged =>
      by_cases here : upload.path = path
      · rw [List.eraseP_cons_of_pos (by simp [here]), List.filter_cons_of_neg]
        simpa [here] using differs.symm
      · rw [List.eraseP_cons_of_neg (by simp [here]), List.filter_cons, List.filter_cons, unchanged]

theorem openUpload_agreesOn
    (differs : other ≠ path)
    (endpoint : Endpoint)
    (size : Nat) :
    AgreesOn other endpoint (endpoint.openUpload path size).1 := by
  unfold openUpload
  split
  case h_1 =>
      split <;> exact .refl other endpoint
  case h_2 =>
      constructor
      · simp only [seed, forgetCompleted, uploads, List.filter_append]
        rw [List.filter_cons_of_neg, List.filter_nil, List.append_nil]
        simpa using differs.symm
      · have forgotten := completed?_forgetCompleted endpoint path other
        rw [if_neg differs] at forgotten
        exact forgotten

theorem store_agreesOn
    (upload : PartialUpload)
    (kept : upload.path = path)
    (differs : other ≠ path)
    (endpoint : Endpoint) :
    AgreesOn other endpoint (endpoint.store path upload) := by
  unfold store
  split
  case isTrue =>
      constructor
      · exact filter_eraseP differs endpoint.pending
      · have forgotten := completed?_forgetCompleted endpoint path other
        rw [if_neg differs] at forgotten
        have differs' : (other == path) = false := by simpa using differs
        simp only [completed?, List.lookup_cons, differs']
        exact forgotten
  case isFalse =>
      exact ⟨filter_replaceFirst kept differs endpoint.pending, rfl⟩

theorem path_of_partial?
    {upload : PartialUpload}
    (found : endpoint.partial? path = some upload) :
    upload.path = path := by
  simpa using List.find?_some found

theorem append_agreesOn
    (differs : other ≠ path)
    (endpoint : Endpoint)
    (content : String)
    (offset : Nat) :
    AgreesOn other endpoint (endpoint.append path content offset).1 := by
  unfold append
  split
  case h_1 => exact .refl other endpoint
  case h_2 upload found =>
      split
      case h_1 => exact .refl other endpoint
      case h_2 chunk _ =>
          split
          · exact .refl other endpoint
          · have kept : upload.path = path := path_of_partial? found
            exact store_agreesOn (extend upload chunk offset) kept differs endpoint

theorem create_of_nil
    (unscripted : endpoint.createScript = [])
    (path : String)
    (size : Nat) :
    endpoint.create path size = (endpoint.note (.create path size)).openUpload path size := by
  have noted : (endpoint.note (.create path size)).createScript = [] := unscripted
  simp only [create, noted]

theorem chunk_of_nil
    (unscripted : endpoint.chunkScript = [])
    (path content : String)
    (offset : Nat) :
    endpoint.chunk path content offset =
      (endpoint.note (.chunk path offset content.utf8ByteSize)).append path content offset := by
  have noted :
      (endpoint.note (.chunk path offset content.utf8ByteSize)).chunkScript = [] := unscripted
  simp only [chunk, receiveChunk, noted, answerChunk]

theorem status_of_nil
    (unscripted : endpoint.statusScript = [])
    (path : String) :
    endpoint.status path =
      (endpoint.note (.status path),
        match endpoint.statusOf? path with
        | some reply => .ok (Response.success reply)
        | none => .ok ⟨404, none⟩) := by
  have noted : (endpoint.note (.status path)).statusScript = [] := unscripted
  have same : (endpoint.note (.status path)).statusOf? path = endpoint.statusOf? path := rfl
  simp only [status, noted, same]
  cases endpoint.statusOf? path <;> rfl

namespace Unscripted

theorem afterStore
    (unscripted : endpoint.Unscripted)
    (path : String)
    (upload : PartialUpload) :
    (endpoint.store path upload).Unscripted := by
  unfold store
  split <;> exact ⟨unscripted.create, unscripted.chunk, unscripted.status⟩

theorem afterCreate
    (unscripted : endpoint.Unscripted)
    (path : String)
    (size : Nat) :
    (endpoint.create path size).1.Unscripted := by
  rw [create_of_nil unscripted.create]
  unfold openUpload
  split
  · split <;> exact ⟨unscripted.create, unscripted.chunk, unscripted.status⟩
  · exact ⟨unscripted.create, unscripted.chunk, unscripted.status⟩

theorem afterAppend
    (unscripted : endpoint.Unscripted)
    (path content : String)
    (offset : Nat) :
    (endpoint.append path content offset).1.Unscripted := by
  unfold append
  split
  · exact unscripted
  · split
    · exact unscripted
    · split
      · exact unscripted
      · exact unscripted.afterStore path _

theorem afterChunk
    (unscripted : endpoint.Unscripted)
    (path content : String)
    (offset : Nat) :
    (endpoint.chunk path content offset).1.Unscripted := by
  have noted :
      (endpoint.note (.chunk path offset content.utf8ByteSize)).Unscripted :=
    ⟨unscripted.create, unscripted.chunk, unscripted.status⟩
  rw [chunk_of_nil unscripted.chunk]
  exact noted.afterAppend path content offset

theorem afterDelete
    (unscripted : endpoint.Unscripted)
    (path : String) :
    (endpoint.delete path).1.Unscripted := by
  unfold delete
  dsimp only
  split <;> exact ⟨unscripted.create, unscripted.chunk, unscripted.status⟩

theorem afterStatus
    (unscripted : endpoint.Unscripted)
    (path : String) :
    (endpoint.status path).1.Unscripted := by
  rw [status_of_nil unscripted.status]
  exact ⟨unscripted.create, unscripted.chunk, unscripted.status⟩

end Unscripted

/-- A create call touches its own path only. -/
theorem create_agreesOn
    (differs : other ≠ path)
    (endpoint : Endpoint)
    (size : Nat) :
    AgreesOn other endpoint (endpoint.create path size).1 := by
  unfold create
  dsimp only
  split
  case h_1 => exact ⟨rfl, rfl⟩
  case h_2 => exact (AgreesOn.note other endpoint _).trans (openUpload_agreesOn differs _ size)

/-- A chunk that has only arrived changes nothing that is stored. -/
theorem receiveChunk_agreesOn
    (endpoint : Endpoint)
    (other path content : String)
    (offset : Nat) :
    AgreesOn other endpoint (endpoint.receiveChunk path content offset).1 := by
  unfold receiveChunk
  dsimp only
  split <;> exact ⟨rfl, rfl⟩

theorem answerChunk_agreesOn
    {call : ChunkCall}
    (differs : other ≠ call.path)
    (endpoint : Endpoint) :
    AgreesOn other endpoint (endpoint.answerChunk call).1 := by
  unfold answerChunk
  split
  case h_1 => exact .refl other endpoint
  case h_2 => exact append_agreesOn differs endpoint call.content call.offset

theorem path_receiveChunk
    (endpoint : Endpoint)
    (path content : String)
    (offset : Nat) :
    (endpoint.receiveChunk path content offset).2.path = path := by
  unfold receiveChunk
  dsimp only
  split <;> rfl

theorem chunk_agreesOn
    (differs : other ≠ path)
    (endpoint : Endpoint)
    (content : String)
    (offset : Nat) :
    AgreesOn other endpoint (endpoint.chunk path content offset).1 := by
  have arrived := receiveChunk_agreesOn endpoint other path content offset
  rw [← path_receiveChunk endpoint path content offset] at differs
  exact arrived.trans (answerChunk_agreesOn differs _)

theorem status_agreesOn
    (endpoint : Endpoint)
    (path other : String) :
    AgreesOn other endpoint (endpoint.status path).1 := by
  unfold status
  dsimp only
  split
  case h_1 => exact ⟨rfl, rfl⟩
  case h_2 => split <;> exact ⟨rfl, rfl⟩

/-- Once it is asked to discard what it holds of a path the endpoint holds no upload of it. -/
theorem uploads_delete
    (endpoint : Endpoint)
    (path : String) :
    (endpoint.delete path).1.uploads path = [] := by
  unfold delete uploads
  dsimp only
  split
  case isTrue all =>
      have kept := List.length_filter_eq_length_iff.mp all
      refine List.filter_eq_nil_iff.mpr ?_
      intro upload member
      simpa using kept upload member
  case isFalse => simp

theorem completed?_delete
    (endpoint : Endpoint)
    (path other : String) :
    (endpoint.delete path).1.completed? other = endpoint.completed? other := by
  unfold delete
  dsimp only
  split <;> rfl

theorem filter_filter_path
    (differs : other ≠ path)
    (pending : List PartialUpload) :
    (pending.filter (·.path != path)).filter (·.path == other) =
      pending.filter (·.path == other) := by
  rw [List.filter_filter]
  refine List.filter_congr ?_
  intro upload _
  by_cases here : upload.path = other
  · simp [here, differs]
  · simp [here]

theorem delete_agreesOn
    (differs : other ≠ path)
    (endpoint : Endpoint) :
    AgreesOn other endpoint (endpoint.delete path).1 := by
  refine ⟨?_, completed?_delete endpoint path other⟩
  unfold delete
  dsimp only
  split
  case isTrue => rfl
  case isFalse =>
      exact filter_filter_path differs endpoint.pending

/-- Without an upload of its path a chunk is refused. -/
theorem chunk_agreesOn_of_nil
    (missing : endpoint.uploads path = [])
    (content : String)
    (offset : Nat) :
    AgreesOn path endpoint (endpoint.chunk path content offset).1 := by
  have arrived := receiveChunk_agreesOn endpoint path path content offset
  have same := path_receiveChunk endpoint path content offset
  have nothing : (endpoint.receiveChunk path content offset).1.partial? path = none := by
    rw [arrived.partial?_eq, partial?_eq_head?, missing]
    rfl
  refine arrived.trans ?_
  unfold chunk answerChunk
  dsimp only
  split
  case h_1 => exact .refl path _
  case h_2 =>
      unfold append
      rw [same, nothing]
      exact .refl path _

theorem delete_agreesOn_of_nil
    (missing : endpoint.uploads path = [])
    (other : String) :
    AgreesOn path endpoint (endpoint.delete other).1 := by
  by_cases here : path = other
  · subst here
    exact ⟨(uploads_delete endpoint path).trans missing.symm, completed?_delete endpoint path path⟩
  · exact delete_agreesOn here endpoint

/-- A call of a client that leaves a path alone: it may write other paths and look at any. -/
inductive Elsewhere (path : String) (endpoint : Endpoint) : Endpoint → Prop where
  | create {other : String} (differs : path ≠ other) (size : Nat) :
      Elsewhere path endpoint (endpoint.create other size).1
  | chunk {other : String} (differs : path ≠ other) (content : String) (offset : Nat) :
      Elsewhere path endpoint (endpoint.chunk other content offset).1
  | delete {other : String} (differs : path ≠ other) :
      Elsewhere path endpoint (endpoint.delete other).1
  | status (other : String) :
      Elsewhere path endpoint (endpoint.status other).1
  | list :
      Elsewhere path endpoint endpoint.list.1

theorem Elsewhere.agreesOn (elsewhere : Elsewhere path endpoint next) :
    AgreesOn path endpoint next := by
  cases elsewhere with
  | create differs size => exact create_agreesOn differs endpoint size
  | chunk differs content offset => exact chunk_agreesOn differs endpoint content offset
  | delete differs => exact delete_agreesOn differs endpoint
  | status other => exact status_agreesOn endpoint other path
  | list => exact .note path endpoint .list

theorem Elsewhere.unscripted
    (unscripted : endpoint.Unscripted)
    (elsewhere : Elsewhere path endpoint next) :
    next.Unscripted := by
  cases elsewhere with
  | create _ size => exact unscripted.afterCreate _ size
  | chunk _ content offset => exact unscripted.afterChunk _ content offset
  | delete => exact unscripted.afterDelete _
  | status other => exact unscripted.afterStatus other
  | list => exact ⟨unscripted.create, unscripted.chunk, unscripted.status⟩

/-! ## The path of one file -/

/-- Every partial upload of a path has begun with these bytes and lacks some of them. -/
def Partway (endpoint : Endpoint) (path : String) (bytes : Bytes) : Prop :=
  ∀ upload ∈ endpoint.uploads path,
    upload.size = bytes.length ∧ upload.data <+: bytes ∧ upload.data.length < bytes.length

/-- A path is being uploaded, or these bytes are completed there. -/
def Opened (endpoint : Endpoint) (path : String) (bytes : Bytes) : Prop :=
  (∃ upload, endpoint.partial? path = some upload) ∨ endpoint.completed? path = some bytes

theorem AgreesOn.partway
    (agrees : AgreesOn path endpoint next)
    (partway : endpoint.Partway path bytes) :
    next.Partway path bytes := by
  unfold Partway
  rw [agrees.uploads]
  exact partway

theorem AgreesOn.opened
    (agrees : AgreesOn path endpoint next)
    (opened : endpoint.Opened path bytes) :
    next.Opened path bytes := by
  unfold Opened
  rw [agrees.partial?_eq, agrees.completed]
  exact opened

theorem mem_uploads_of_partial?
    {upload : PartialUpload}
    (found : endpoint.partial? path = some upload) :
    upload ∈ endpoint.uploads path := by
  rw [partial?_eq_head?] at found
  exact List.mem_of_head? found

theorem pendingLength?_of_partial?
    {upload : PartialUpload}
    (found : endpoint.partial? path = some upload) :
    endpoint.pendingLength? path = some upload.data.length := by
  rw [pendingLength?, found, Option.map_some]

theorem Partway.pendingLength?_lt
    {length : Nat}
    (partway : endpoint.Partway path bytes)
    (found : endpoint.pendingLength? path = some length) :
    length < bytes.length := by
  obtain ⟨upload, pending, rfl⟩ := Option.map_eq_some_iff.mp found
  exact (partway upload (mem_uploads_of_partial? pending)).2.2

/-- What an upload takes from a chunk of a file goes on where it ends. -/
theorem extend_prefix
    {upload : PartialUpload}
    {chunk : Bytes}
    {offset : Nat}
    (begun : upload.data <+: bytes)
    (sent : chunk <+: bytes.drop offset)
    (reached : offset ≤ upload.data.length) :
    (extend upload chunk offset).data <+: bytes := by
  obtain ⟨missing, rfl⟩ := begun
  have fresh : chunk.drop (upload.data.length - offset) <+: missing := by
    have dropped := sent.drop (upload.data.length - offset)
    rw [List.drop_drop, Nat.add_sub_cancel' reached, List.drop_left] at dropped
    exact dropped
  exact (List.prefix_append_right_inj _).mpr ((List.take_prefix _ _).trans fresh)

/-- An upload that is opened where none is begun is the only one of its path. -/
theorem uploads_seed
    (missing : endpoint.partial? path = none)
    (size : Nat) :
    ((endpoint.forgetCompleted path).seed path size []).uploads path = [⟨path, size, []⟩] := by
  rw [partial?_eq_head?, List.head?_eq_none_iff] at missing
  have added : path == path := beq_self_eq_true path
  simp only [uploads, seed, List.filter_append, List.filter_singleton, added]
  exact congrArg (· ++ _) missing

theorem create_opened
    (unscripted : endpoint.Unscripted)
    (partway : endpoint.Partway path bytes)
    (nonempty : 0 < bytes.length) :
    (endpoint.create path bytes.length).1.Partway path bytes ∧
      (endpoint.create path bytes.length).1.Opened path bytes := by
  rw [create_of_nil unscripted.create]
  unfold openUpload
  split
  case h_1 upload found =>
      have member := mem_uploads_of_partial? found
      have size : upload.size = bytes.length := (partway upload member).1
      rw [if_pos size]
      exact ⟨partway, .inl ⟨upload, found⟩⟩
  case h_2 missing =>
      have only := uploads_seed missing bytes.length
      constructor
      · intro upload member
        rw [only, List.mem_singleton] at member
        subst member
        exact ⟨rfl, List.nil_prefix, nonempty⟩
      · refine .inl ⟨⟨path, bytes.length, []⟩, ?_⟩
        rw [partial?_eq_head?, only, List.head?_cons]

theorem mem_replaceFirst
    {changed upload : PartialUpload}
    {pending : List PartialUpload}
    (member : upload ∈ replaceFirst path changed pending) :
    upload = changed ∨ upload ∈ pending := by
  induction pending with
  | nil => cases member
  | cons head rest earlier =>
      unfold replaceFirst at member
      split at member
      · rcases List.mem_cons.mp member with same | later
        · exact .inl same
        · exact .inr (List.mem_cons_of_mem _ later)
      · rcases List.mem_cons.mp member with same | later
        · exact .inr (same ▸ List.mem_cons_self)
        · rcases earlier later with same | found
          · exact .inl same
          · exact .inr (List.mem_cons_of_mem _ found)

theorem find?_replaceFirst
    {changed upload : PartialUpload}
    {pending : List PartialUpload}
    (kept : changed.path = path)
    (found : pending.find? (·.path == path) = some upload) :
    (replaceFirst path changed pending).find? (·.path == path) = some changed := by
  induction pending with
  | nil => cases found
  | cons head rest later =>
      unfold replaceFirst
      split
      case isTrue =>
          rw [List.find?_cons_of_pos]
          exact beq_iff_eq.mpr kept
      case isFalse differs =>
          have skipped : (head.path == path) = false := Bool.eq_false_iff.mpr differs
          simp only [List.find?_cons, skipped] at found ⊢
          exact later found

theorem length_extend
    (upload : PartialUpload)
    (chunk : Bytes)
    (offset : Nat) :
    (extend upload chunk offset).data.length =
      upload.data.length +
        min (chunk.length - (upload.data.length - offset))
          (upload.size - upload.data.length) := by
  simp only [extend, List.length_append, List.length_take, List.length_drop]
  omega

/-- What is stored of a path after an upload of it was replaced and is not yet whole. -/
theorem pendingLength?_store
    {upload grown : PartialUpload}
    (found : endpoint.partial? path = some upload)
    (kept : grown.path = path)
    (lacking : grown.data.length < grown.size) :
    (endpoint.store path grown).pendingLength? path = some grown.data.length := by
  apply pendingLength?_of_partial?
  unfold store
  rw [if_neg (Nat.ne_of_lt lacking)]
  exact find?_replaceFirst kept found

/-- Storing what an upload of the file has grown to keeps the path on its way to the file. -/
theorem store_opened
    {upload : PartialUpload}
    (grown : PartialUpload)
    (partway : endpoint.Partway path bytes)
    (found : endpoint.partial? path = some upload)
    (kept : grown.path = path)
    (size : grown.size = bytes.length)
    (begun : grown.data <+: bytes) :
    (endpoint.store path grown).Partway path bytes ∧
      (endpoint.store path grown).Opened path bytes ∧
      (grown.data.length < bytes.length ∨
        (endpoint.store path grown).completed? path = some bytes) := by
  unfold store
  split
  case isTrue whole =>
      have all : grown.data = bytes := begun.eq_of_length (whole.trans size)
      have completed :
          Endpoint.completed?
            { endpoint.forgetCompleted path with
              pending := endpoint.pending.eraseP (·.path == path)
              completed := (path, grown.data) :: (endpoint.forgetCompleted path).completed }
            path = some bytes := by
        simp only [completed?, List.lookup_cons, beq_self_eq_true, all]
      refine ⟨?_, .inr completed, .inr completed⟩
      intro other member
      rw [uploads, List.mem_filter] at member
      exact partway other (List.mem_filter.mpr ⟨List.mem_of_mem_eraseP member.1, member.2⟩)
  case isFalse lacking =>
      have short : grown.data.length < bytes.length := by
        have bound := begun.length_le
        omega
      refine ⟨?_, .inl ⟨grown, find?_replaceFirst kept found⟩, .inl short⟩
      intro other member
      rw [uploads, List.mem_filter] at member
      rcases mem_replaceFirst member.1 with same | earlier
      · rw [same]
        exact ⟨size, begun, short⟩
      · exact partway other (List.mem_filter.mpr ⟨earlier, member.2⟩)

/--
After a chunk call with a piece of the file the path still is on its way to the file, and an answer
that confirms all of it is only given once the file is completed.
-/
theorem chunk_opened
    {piece : Bytes}
    {offset : Nat}
    (unscripted : endpoint.Unscripted)
    (partway : endpoint.Partway path bytes)
    (opened : endpoint.Opened path bytes)
    (sent : piece <+: bytes.drop offset) :
    (endpoint.chunk path (Base64.encode piece) offset).1.Partway path bytes ∧
      (endpoint.chunk path (Base64.encode piece) offset).1.Opened path bytes ∧
      ∀ {status : Nat} {reply : StatusReply},
        (endpoint.chunk path (Base64.encode piece) offset).2 = .ok ⟨status, some reply⟩ →
          reply.uploaded < bytes.length ∨
            (endpoint.chunk path (Base64.encode piece) offset).1.completed? path = some bytes := by
  have noted :=
    AgreesOn.note path endpoint (.chunk path offset (Base64.encode piece).utf8ByteSize)
  rw [chunk_of_nil unscripted.chunk]
  unfold append
  split
  case h_1 =>
      refine ⟨noted.partway partway, noted.opened opened, ?_⟩
      rintro _ _ ⟨⟩
  case h_2 upload found =>
      have member : upload ∈ endpoint.uploads path := mem_uploads_of_partial? found
      obtain ⟨size, begun, _⟩ := partway upload member
      simp only [Base64.decode?_encode]
      split
      case isTrue =>
          refine ⟨noted.partway partway, noted.opened opened, ?_⟩
          rintro _ _ ⟨⟩
      case isFalse reached =>
          have grown := extend_prefix begun sent (Nat.le_of_not_lt reached)
          have kept : upload.path = path := path_of_partial? found
          obtain ⟨partway, opened, whole⟩ :=
            store_opened (extend upload piece offset) (noted.partway partway) found kept size grown
          refine ⟨partway, opened, ?_⟩
          rintro _ _ ⟨⟩
          exact whole

/-- A chunk call with a piece of the file does not undo that the file is completed. -/
theorem chunk_completed
    {piece : Bytes}
    {offset : Nat}
    (unscripted : endpoint.Unscripted)
    (partway : endpoint.Partway path bytes)
    (completed : endpoint.completed? path = some bytes)
    (sent : piece <+: bytes.drop offset) :
    (endpoint.chunk path (Base64.encode piece) offset).1.completed? path = some bytes := by
  rw [chunk_of_nil unscripted.chunk]
  unfold append
  split
  case h_1 => exact completed
  case h_2 upload found =>
      have member : upload ∈ endpoint.uploads path := mem_uploads_of_partial? found
      obtain ⟨size, begun, _⟩ := partway upload member
      simp only [Base64.decode?_encode]
      split
      case isTrue => exact completed
      case isFalse reached =>
          have grown := extend_prefix begun sent (Nat.le_of_not_lt reached)
          unfold store
          split
          case isTrue whole =>
              have all := grown.eq_of_length (whole.trans size)
              simp only [completed?, List.lookup_cons, beq_self_eq_true, all]
          case isFalse => exact completed

/-- An answer to a status call that confirms all of the file is only given once it is completed. -/
theorem status_opened
    (unscripted : endpoint.Unscripted)
    (partway : endpoint.Partway path bytes)
    (opened : endpoint.Opened path bytes)
    {status : Nat}
    {reply : StatusReply}
    (answer : (endpoint.status path).2 = .ok ⟨status, some reply⟩) :
    reply.uploaded < bytes.length ∨ endpoint.completed? path = some bytes := by
  rw [status_of_nil unscripted.status] at answer
  unfold statusOf? at answer
  rcases opened with ⟨upload, found⟩ | completed
  · simp only [found] at answer
    cases answer
    exact .inl (partway upload (mem_uploads_of_partial? found)).2.2
  · exact .inr completed

/-! ## The calls that it saw -/

theorem calls_openUpload
    (endpoint : Endpoint)
    (path : String)
    (size : Nat) :
    (endpoint.openUpload path size).1.calls = endpoint.calls := by
  unfold openUpload
  split
  case h_1 => split <;> rfl
  case h_2 => rfl

theorem calls_store
    (endpoint : Endpoint)
    (path : String)
    (upload : PartialUpload) :
    (endpoint.store path upload).calls = endpoint.calls := by
  unfold store
  split <;> rfl

theorem calls_append
    (endpoint : Endpoint)
    (path content : String)
    (offset : Nat) :
    (endpoint.append path content offset).1.calls = endpoint.calls := by
  unfold append
  split
  case h_1 => rfl
  case h_2 =>
      split
      case h_1 => rfl
      case h_2 =>
          split
          case isTrue => rfl
          case isFalse => exact calls_store endpoint path _

theorem calls_create
    (endpoint : Endpoint)
    (path : String)
    (size : Nat) :
    (endpoint.create path size).1.calls = endpoint.calls ++ [.create path size] := by
  unfold create
  dsimp only
  split
  case h_1 => rfl
  case h_2 => exact calls_openUpload _ path size

theorem calls_chunk
    (endpoint : Endpoint)
    (path content : String)
    (offset : Nat) :
    (endpoint.chunk path content offset).1.calls =
      endpoint.calls ++ [.chunk path offset content.utf8ByteSize] := by
  unfold chunk receiveChunk
  dsimp only
  split
  case h_1 => rfl
  case h_2 => exact calls_append _ path content offset

theorem calls_status
    (endpoint : Endpoint)
    (path : String) :
    (endpoint.status path).1.calls = endpoint.calls ++ [.status path] := by
  unfold status
  dsimp only
  split
  case h_1 => rfl
  case h_2 => split <;> rfl

end Endpoint

end ResumableUpload
