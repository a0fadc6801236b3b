/-!
# Answers of the endpoint

An endpoint call ends with a `Response`, a status with an optional payload, or fails before there is
one (`TransportError`).  A `Policy` turns the answer into a `Verdict`, exactly once per call:
success with what the caller needs, fatal, or retryable with a reason.
-/

namespace ResumableUpload

/-- A call that brought no answer. -/
inductive TransportError where
  | io (reason : String)
  | http (reason : String)
  | decode (reason : String)
deriving DecidableEq, Repr

/-- The wording of a failed call. -/
def TransportError.message : TransportError → String
  | .io reason => "I/O error: " ++ reason
  | .http reason => "HTTP error: " ++ reason
  | .decode reason => "undecodable response: " ++ reason

/-- The status of an accepted call. -/
def Status.ok : Nat := 200

/-- The status of a call that found an upload to go on with. -/
def Status.notModified : Nat := 304

/-- Whether an upload may go on after a create call with this status. -/
def Status.isCreated (status : Nat) : Bool :=
  status = Status.ok || status = Status.notModified

/-- A status with an optional payload. -/
structure Response (α : Type) where
  status : Nat
  body : Option α := none
deriving DecidableEq, Repr

/-- A response with status 200 and a payload. -/
def Response.success {α : Type} (body : α) : Response α :=
  ⟨Status.ok, some body⟩

/-- How a call ended. -/
abbrev Answer (α : Type) := Except TransportError (Response α)

/-- What an answer means to the caller. -/
inductive Verdict (α : Type) where
  | success (body : α)
  | fatal (status : Nat)
  | retryable (reason : String)
deriving DecidableEq, Repr

/-- The statuses that end an upload for good. -/
structure Policy where
  fatal : List Nat
deriving DecidableEq, Repr

namespace Policy

/-- Whether a status ends an upload for good. -/
def isFatal (policy : Policy) (status : Nat) : Bool :=
  policy.fatal.contains status

/-- The reason given for a status that is neither accepted nor fatal. -/
def unexpected (status : Nat) : String :=
  "unexpected status " ++ toString status

/-- Judges a chunk or status answer, where the payload carries the offset and is required. -/
def classify {α : Type} (policy : Policy) : Answer α → Verdict α
  | .error error => .retryable error.message
  | .ok ⟨status, body⟩ =>
    match body with
    | some body =>
      if status = Status.ok then .success body
      else if policy.isFatal status then .fatal status
      else .retryable (unexpected status)
    | none =>
      if policy.isFatal status then .fatal status
      else if status = Status.ok then .retryable "response without payload"
      else .retryable (unexpected status)

/-- Judges a create answer, where 304 is accepted too and the payload is not needed. -/
def classifyCreate {α : Type} (policy : Policy) : Answer α → Verdict (Option α)
  | .error error => .retryable error.message
  | .ok ⟨status, body⟩ =>
    if Status.isCreated status then .success body
    else if policy.isFatal status then .fatal status
    else .retryable (unexpected status)

end Policy

end ResumableUpload
