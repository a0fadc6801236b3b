import ResumableUpload.Proofs.Endpoint.Store

/-!
# Canned answers

An endpoint gives its canned answers first, and stores nothing for them.  If they are all failures,
`OnlyFails`, then a call either meets with one of them, or is answered as the endpoint without any
canned answers, `plain`, answers it.
-/

namespace ResumableUpload

/-- Whether a canned answer confirms no offset. -/
def CannedAnswer.fails : CannedAnswer → Bool
  | .status _ | .fail _ => true
  | .uploaded _ => false

/-- Whether a canned answer to a create call does not let the upload go on. -/
def CannedAnswer.refuses : CannedAnswer → Bool
  | .status code => !Status.isCreated code
  | .fail _ => true
  | .uploaded _ => false

namespace Endpoint

variable {endpoint : Endpoint} {path other content : String} {offset size : Nat}
variable {first : CannedAnswer} {rest : List CannedAnswer}

/-- The canned answers are failures. -/
structure OnlyFails (endpoint : Endpoint) : Prop where
  create : ∀ canned ∈ endpoint.createScript, canned.refuses = true
  chunk : ∀ canned ∈ endpoint.chunkScript, canned.fails = true
  status : ∀ canned ∈ endpoint.statusScript, canned.fails = true

theorem Unscripted.onlyFails (unscripted : endpoint.Unscripted) : endpoint.OnlyFails where
  create := by
    rw [unscripted.create]
    exact fun _ member => absurd member List.not_mem_nil
  chunk := by
    rw [unscripted.chunk]
    exact fun _ member => absurd member List.not_mem_nil
  status := by
    rw [unscripted.status]
    exact fun _ member => absurd member List.not_mem_nil

/-- The endpoint without its canned answers. -/
def plain (endpoint : Endpoint) : Endpoint :=
  { endpoint with createScript := [], chunkScript := [], statusScript := [] }

theorem unscripted_plain (endpoint : Endpoint) : endpoint.plain.Unscripted :=
  ⟨rfl, rfl, rfl⟩

theorem agreesOn_plain
    (path : String)
    (endpoint : Endpoint) :
    AgreesOn path endpoint.plain endpoint :=
  ⟨rfl, rfl⟩

/-- How many canned answers are left for chunk and status calls. -/
def cannedLeft (endpoint : Endpoint) : Nat :=
  endpoint.chunkScript.length + endpoint.statusScript.length

/-! ## Calls that meet with a canned answer -/

theorem create_of_cons
    (scripted : endpoint.createScript = first :: rest)
    (path : String)
    (size : Nat) :
    endpoint.create path size =
      ({ endpoint.note (.create path size) with createScript := rest },
        first.answer fun _ => ⟨path, size⟩) := by
  have noted : (endpoint.note (.create path size)).createScript = first :: rest := scripted
  simp only [create, noted]

theorem chunk_of_cons
    (scripted : endpoint.chunkScript = first :: rest)
    (path content : String)
    (offset : Nat) :
    endpoint.chunk path content offset =
      ({ endpoint.note (.chunk path offset content.utf8ByteSize) with chunkScript := rest },
        first.answer fun uploaded => ⟨path, uploaded, endpoint.knownSize path⟩) := by
  have noted :
      (endpoint.note (.chunk path offset content.utf8ByteSize)).chunkScript = first :: rest :=
    scripted
  simp only [chunk, receiveChunk, noted, answerChunk]
  rfl

theorem status_of_cons
    (scripted : endpoint.statusScript = first :: rest)
    (path : String) :
    endpoint.status path =
      ({ endpoint.note (.status path) with statusScript := rest },
        first.answer fun uploaded => ⟨path, uploaded, endpoint.knownSize path⟩) := by
  have noted : (endpoint.note (.status path)).statusScript = first :: rest := scripted
  simp only [status, noted]
  rfl

/-! ## What does not depend on the canned answers -/

theorem plain_openUpload
    (endpoint : Endpoint)
    (path : String)
    (size : Nat) :
    endpoint.plain.openUpload path size =
      ((endpoint.openUpload path size).1.plain, (endpoint.openUpload path size).2) := by
  have same : endpoint.plain.partial? path = endpoint.partial? path := rfl
  unfold openUpload
  rw [same]
  cases endpoint.partial? path with
  | none => rfl
  | some upload =>
      dsimp only
      split <;> rfl

theorem plain_store
    (endpoint : Endpoint)
    (path : String)
    (upload : PartialUpload) :
    endpoint.plain.store path upload = (endpoint.store path upload).plain := by
  unfold store
  split <;> rfl

theorem plain_append
    (endpoint : Endpoint)
    (path content : String)
    (offset : Nat) :
    endpoint.plain.append path content offset =
      ((endpoint.append path content offset).1.plain,
        (endpoint.append path content offset).2) := by
  have same : endpoint.plain.partial? path = endpoint.partial? path := rfl
  unfold append
  rw [same]
  cases endpoint.partial? path with
  | none => rfl
  | some upload =>
      dsimp only
      cases Base64.decode? content with
      | none => rfl
      | some chunk =>
          dsimp only
          split
          · rfl
          · rw [plain_store]

/-- The canned answers are the same. -/
structure SameScripts (endpoint next : Endpoint) : Prop where
  create : next.createScript = endpoint.createScript
  chunk : next.chunkScript = endpoint.chunkScript
  status : next.statusScript = endpoint.statusScript

theorem SameScripts.onlyFails
    {next : Endpoint}
    (same : SameScripts endpoint next)
    (fails : endpoint.OnlyFails) :
    next.OnlyFails where
  create := same.create ▸ fails.create
  chunk := same.chunk ▸ fails.chunk
  status := same.status ▸ fails.status

theorem SameScripts.cannedLeft_eq
    {next : Endpoint}
    (same : SameScripts endpoint next) :
    next.cannedLeft = endpoint.cannedLeft := by
  rw [cannedLeft, same.chunk, same.status, cannedLeft]

theorem sameScripts_openUpload
    (endpoint : Endpoint)
    (path : String)
    (size : Nat) :
    SameScripts endpoint (endpoint.openUpload path size).1 := by
  unfold openUpload
  split
  · split <;> exact ⟨rfl, rfl, rfl⟩
  · exact ⟨rfl, rfl, rfl⟩

theorem sameScripts_store
    (endpoint : Endpoint)
    (path : String)
    (upload : PartialUpload) :
    SameScripts endpoint (endpoint.store path upload) := by
  unfold store
  split <;> exact ⟨rfl, rfl, rfl⟩

theorem sameScripts_append
    (endpoint : Endpoint)
    (path content : String)
    (offset : Nat) :
    SameScripts endpoint (endpoint.append path content offset).1 := by
  unfold append
  split
  · exact ⟨rfl, rfl, rfl⟩
  · split
    · exact ⟨rfl, rfl, rfl⟩
    · split
      · exact ⟨rfl, rfl, rfl⟩
      · exact sameScripts_store endpoint path _

/-! ## No canned answer is added -/

namespace OnlyFails

theorem note
    (fails : endpoint.OnlyFails)
    (call : EndpointCall) :
    (endpoint.note call).OnlyFails :=
  ⟨fails.create, fails.chunk, fails.status⟩

theorem afterCreate
    (fails : endpoint.OnlyFails)
    (path : String)
    (size : Nat) :
    (endpoint.create path size).1.OnlyFails := by
  cases scripted : endpoint.createScript with
  | nil =>
      rw [create_of_nil scripted]
      exact (sameScripts_openUpload _ path size).onlyFails (fails.note _)
  | cons first rest =>
      rw [create_of_cons scripted]
      refine ⟨?_, fails.chunk, fails.status⟩
      intro canned member
      exact fails.create canned (scripted ▸ List.mem_cons_of_mem _ member)

theorem afterChunk
    (fails : endpoint.OnlyFails)
    (path content : String)
    (offset : Nat) :
    (endpoint.chunk path content offset).1.OnlyFails := by
  cases scripted : endpoint.chunkScript with
  | nil =>
      rw [chunk_of_nil scripted]
      exact (sameScripts_append _ path content offset).onlyFails (fails.note _)
  | cons first rest =>
      rw [chunk_of_cons scripted]
      refine ⟨fails.create, ?_, fails.status⟩
      intro canned member
      exact fails.chunk canned (scripted ▸ List.mem_cons_of_mem _ member)

theorem afterStatus
    (fails : endpoint.OnlyFails)
    (path : String) :
    (endpoint.status path).1.OnlyFails := by
  cases scripted : endpoint.statusScript with
  | nil =>
      rw [status_of_nil scripted]
      exact fails.note _
  | cons first rest =>
      rw [status_of_cons scripted]
      refine ⟨fails.create, fails.chunk, ?_⟩
      intro canned member
      exact fails.status canned (scripted ▸ List.mem_cons_of_mem _ member)

end OnlyFails

/-! ## How calls get an upload on -/

theorem create_cannedLeft
    (endpoint : Endpoint)
    (path : String)
    (size : Nat) :
    (endpoint.create path size).1.cannedLeft = endpoint.cannedLeft := by
  cases scripted : endpoint.createScript with
  | nil =>
      rw [create_of_nil scripted]
      exact (sameScripts_openUpload _ path size).cannedLeft_eq
  | cons first rest =>
      rw [create_of_cons scripted]
      rfl

end Endpoint

end ResumableUpload
