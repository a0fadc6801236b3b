import ResumableUpload.Json.Reader
import ResumableUpload.Json.Writer
import ResumableUpload.Response
import ResumableUpload.Wire

/-!
# Replies

What comes back for a request is a status with some bytes, or nothing (`Delivery`).  A reply with
status 200 or 304 carries a payload if it carries bytes at all, and they have to be the payload's
JSON; of any other reply only the status counts.
-/

namespace ResumableUpload.Http

/-- What comes back for a request. -/
inductive Delivery where
  | reply (status : Nat) (body : Bytes)
  /-- The connection was closed before a reply. -/
  | closed
  /-- Nothing listens. -/
  | refused
  /-- No reply came in the time allowed. -/
  | silent
deriving DecidableEq, Repr

/-- Whether a reply with this status can carry a payload. -/
def carriesPayload (status : Nat) : Bool :=
  status = Status.ok || status = Status.notModified

/--
What a status and the bytes that came with it mean to the caller; `complaint` is what the reader says
about bytes that are no payload.
-/
def answerGiven {α : Type} (complaint : Bytes → String) (read : Json.Value → Option α)
    (status : Nat) (body : Bytes) : Answer α :=
  if carriesPayload status && !body.isEmpty then
    match (Json.parseBytes? body).bind read with
    | some payload => .ok ⟨status, some payload⟩
    | none => .error (.decode (complaint body))
  else .ok ⟨status, none⟩

/-- What they mean to a caller who is not told what is wrong with the bytes. -/
def answerOf {α : Type} (read : Json.Value → Option α) : (status : Nat) → (body : Bytes) → Answer α :=
  answerGiven (fun _ => "unexpected payload") read

/-- What a status means to a caller who expects no payload. -/
def bareAnswerOf (status : Nat) : Answer Unit :=
  .ok ⟨status, if status = Status.ok then some () else none⟩

/--
Whether a status ends an exchange.  A number that has not three digits is no status, and a
provisional one announces another.
-/
def isFinal (status : Nat) : Bool :=
  status = 101 || (200 ≤ status && status ≤ 999)

/-- Whether replies with this status have no body, whatever follows them on the wire. -/
def isBodiless (status : Nat) : Bool :=
  status = 101 || status = 204 || status = Status.notModified

/-- What the caller is told of a request that brought no reply; `address` is what was requested. -/
def unanswered (address : String) : String :=
  "error sending request for url (" ++ address ++ ")"

/-- The answer that a delivery brings; `judge` tells what a final reply means. -/
def Delivery.answer {α : Type} (address : String) (judge : Nat → Bytes → Answer α) :
    Delivery → Answer α
  | .reply status body =>
    if isFinal status then judge status (if isBodiless status then [] else body)
    else .error (.http (unanswered address))
  | .closed => .error (.http (unanswered address))
  | .refused | .silent => .error (.io (unanswered address))

/--
How an endpoint's answer comes back: a payload only with 200, and a failure closes the connection.
-/
def Delivery.ofAnswer {α : Type} (write : α → Json.Value) : Answer α → Delivery
  | .error _ => .closed
  | .ok ⟨status, some payload⟩ =>
    .reply status (if status = Status.ok then Bytes.ofText (write payload).render else [])
  | .ok ⟨status, none⟩ => .reply status []

end ResumableUpload.Http
