import ResumableUpload.Base64
import ResumableUpload.Payload
import ResumableUpload.Response

/-!
# The endpoint

An endpoint in memory with the offset rules of a remote one.  It holds partial uploads in the order
in which they were opened, and the bytes of completed ones.  A chunk is appended where the stored
bytes end: what it repeats of them is skipped, what it has past the size is dropped, and a chunk
that would leave a gap is refused.  Canned answers can be put in front of an operation; they store
nothing.
-/

namespace ResumableUpload

/-- An upload of which the endpoint holds the first bytes. -/
structure PartialUpload where
  path : String
  size : Nat
  data : Bytes
deriving DecidableEq, Repr

/-- An answer given in place of the endpoint's own. -/
inductive CannedAnswer where
  | status (status : Nat)
  | fail (error : TransportError)
  | uploaded (offset : Nat)
deriving DecidableEq, Repr

/-- A call as the endpoint saw it; of a chunk it notes the length of the text. -/
inductive EndpointCall where
  | create (path : String) (size : Nat)
  | chunk (path : String) (offset length : Nat)
  | status (path : String)
  | delete (path : String)
  | list
deriving DecidableEq, Repr

/-- What the endpoint holds, the canned answers that it will give, and the calls that it saw. -/
structure Endpoint where
  pending : List PartialUpload := []
  completed : List (String × Bytes) := []
  createScript : List CannedAnswer := []
  chunkScript : List CannedAnswer := []
  statusScript : List CannedAnswer := []
  calls : List EndpointCall := []

/-- A chunk call that has arrived and is not yet answered. -/
structure ChunkCall where
  path : String
  content : String
  offset : Nat
  canned : Option CannedAnswer

/-- Gives a canned answer; `body` is the payload of an accepting one. -/
def CannedAnswer.answer {α : Type} (canned : CannedAnswer) (body : Nat → α) : Answer α :=
  match canned with
  | .status code => .ok ⟨code, none⟩
  | .fail cause => .error cause
  | .uploaded offset => .ok (Response.success (body offset))

namespace Endpoint

/-- The partial upload of a path. -/
def partial? (endpoint : Endpoint) (path : String) : Option PartialUpload :=
  endpoint.pending.find? (·.path == path)

/-- The bytes of a completed upload. -/
def completed? (endpoint : Endpoint) (path : String) : Option Bytes :=
  endpoint.completed.lookup path

/-- How many bytes of a partial upload are stored. -/
def pendingLength? (endpoint : Endpoint) (path : String) : Option Nat :=
  (endpoint.partial? path).map (·.data.length)

/-- The path and offset of every chunk call so far. -/
def chunkOffsets (endpoint : Endpoint) : List (String × Nat) :=
  endpoint.calls.filterMap fun
    | .chunk path offset _ => some (path, offset)
    | _ => none

/-- Puts in a partial upload that an earlier client left. -/
def seed (endpoint : Endpoint) (path : String) (size : Nat) (data : Bytes) : Endpoint :=
  { endpoint with pending := endpoint.pending ++ [⟨path, size, data⟩] }

/-- Notes a call. -/
def note (endpoint : Endpoint) (call : EndpointCall) : Endpoint :=
  { endpoint with calls := endpoint.calls ++ [call] }

/-- What the endpoint knows of a path: the partial upload, or else the completed one. -/
def statusOf? (endpoint : Endpoint) (path : String) : Option StatusReply :=
  match endpoint.partial? path with
  | some upload => some ⟨path, upload.data.length, upload.size⟩
  | none => (endpoint.completed? path).map fun data => ⟨path, data.length, data.length⟩

/-- The size that the endpoint knows of a path, or zero. -/
def knownSize (endpoint : Endpoint) (path : String) : Nat :=
  match endpoint.statusOf? path with
  | some reply => reply.fileSize
  | none => 0

/-- Forgets the completed upload of a path. -/
def forgetCompleted (endpoint : Endpoint) (path : String) : Endpoint :=
  { endpoint with completed := endpoint.completed.filter (·.1 != path) }

/-- Opens an upload without asking the script. -/
def openUpload (endpoint : Endpoint) (path : String) (size : Nat) :
    Endpoint × Answer CreateReply :=
  match endpoint.partial? path with
  | some upload =>
    if upload.size = size then (endpoint, .ok ⟨Status.notModified, some ⟨path, size⟩⟩)
    else (endpoint, .ok ⟨409, none⟩)
  | none =>
    ((endpoint.forgetCompleted path).seed path size [], .ok (Response.success ⟨path, size⟩))

/-- Answers a create call. -/
def create (endpoint : Endpoint) (path : String) (size : Nat) : Endpoint × Answer CreateReply :=
  let endpoint := endpoint.note (.create path size)
  match endpoint.createScript with
  | canned :: rest =>
    ({ endpoint with createScript := rest }, canned.answer fun _ => ⟨path, size⟩)
  | [] => endpoint.openUpload path size

/-- The stored bytes after a chunk that starts at `offset`, which is not past their end. -/
def extend (upload : PartialUpload) (chunk : Bytes) (offset : Nat) : PartialUpload :=
  let stored := upload.data.length
  let fresh := chunk.drop (stored - offset)
  { upload with data := upload.data ++ fresh.take (upload.size - stored) }

/-- Puts the changed upload of a path in the place of the first one. -/
def replaceFirst (path : String) (changed : PartialUpload) : List PartialUpload → List PartialUpload
  | [] => []
  | upload :: rest =>
    if upload.path == path then changed :: rest else upload :: replaceFirst path changed rest

/-- Stores a changed upload, among the completed ones if it is whole. -/
def store (endpoint : Endpoint) (path : String) (upload : PartialUpload) : Endpoint :=
  if upload.data.length = upload.size then
    { endpoint.forgetCompleted path with
      pending := endpoint.pending.eraseP (·.path == path)
      completed := (path, upload.data) :: (endpoint.forgetCompleted path).completed }
  else { endpoint with pending := replaceFirst path upload endpoint.pending }

/-- Appends a chunk without asking the script. -/
def append (endpoint : Endpoint) (path content : String) (offset : Nat) :
    Endpoint × Answer StatusReply :=
  match endpoint.partial? path with
  | none => (endpoint, .ok ⟨404, none⟩)
  | some upload =>
    match Base64.decode? content with
    | none => (endpoint, .ok ⟨400, none⟩)
    | some chunk =>
      if upload.data.length < offset then (endpoint, .ok ⟨416, none⟩)
      else
        let extended := extend upload chunk offset
        (endpoint.store path extended,
          .ok (Response.success ⟨path, extended.data.length, extended.size⟩))

/-- Takes in a chunk call; a canned answer is set aside for it at once. -/
def receiveChunk (endpoint : Endpoint) (path content : String) (offset : Nat) :
    Endpoint × ChunkCall :=
  let endpoint := endpoint.note (.chunk path offset content.utf8ByteSize)
  match endpoint.chunkScript with
  | canned :: rest =>
    ({ endpoint with chunkScript := rest }, ⟨path, content, offset, some canned⟩)
  | [] => (endpoint, ⟨path, content, offset, none⟩)

/-- Answers a chunk call that has arrived. -/
def answerChunk (endpoint : Endpoint) (call : ChunkCall) : Endpoint × Answer StatusReply :=
  match call.canned with
  | some canned =>
    (endpoint, canned.answer fun offset =>
      ⟨call.path, offset, endpoint.knownSize call.path⟩)
  | none => endpoint.append call.path call.content call.offset

/-- Answers a status call. -/
def status (endpoint : Endpoint) (path : String) : Endpoint × Answer StatusReply :=
  let endpoint := endpoint.note (.status path)
  match endpoint.statusScript with
  | canned :: rest =>
    ({ endpoint with statusScript := rest }, canned.answer fun offset =>
      ⟨path, offset, endpoint.knownSize path⟩)
  | [] =>
    match endpoint.statusOf? path with
    | some reply => (endpoint, .ok (Response.success reply))
    | none => (endpoint, .ok ⟨404, none⟩)

/-- Discards the partial uploads of a path. -/
def delete (endpoint : Endpoint) (path : String) : Endpoint × Answer Unit :=
  let endpoint := endpoint.note (.delete path)
  let kept := endpoint.pending.filter (·.path != path)
  if kept.length = endpoint.pending.length then (endpoint, .ok ⟨404, none⟩)
  else ({ endpoint with pending := kept }, .ok (Response.success ()))

/-- Lists the partial uploads. -/
def list (endpoint : Endpoint) : Endpoint × Answer ListReply :=
  let endpoint := endpoint.note .list
  let infos := endpoint.pending.map fun upload =>
    (⟨upload.path, upload.size, upload.data.length⟩ : PartialInfo)
  (endpoint, .ok (Response.success ⟨infos⟩))

end Endpoint

end ResumableUpload
