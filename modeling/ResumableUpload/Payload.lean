/-!
# Payloads

What requests and answers carry.  A partial upload is *complete* once every byte is confirmed.
-/

namespace ResumableUpload

/-- Asks the endpoint to open an upload, or to go on with one. -/
structure CreateRequest where
  path : String
  fileSize : Nat
deriving DecidableEq, Repr

/-- Asks the endpoint to append a chunk, given as base64 text, at an offset. -/
structure ChunkRequest where
  path : String
  content : String
  offset : Nat
deriving DecidableEq, Repr

/-- The answer to a create request. -/
structure CreateReply where
  path : String
  fileSize : Nat
deriving DecidableEq, Repr

/-- The answer to a chunk request and to a status request; `uploaded` is where to go on. -/
structure StatusReply where
  path : String
  uploaded : Nat
  fileSize : Nat
deriving DecidableEq, Repr

/-- A partial upload that the endpoint holds. -/
structure PartialInfo where
  path : String
  size : Nat
  uploaded : Nat
deriving DecidableEq, Repr

/-- Whether every byte has been confirmed. -/
def PartialInfo.isComplete (info : PartialInfo) : Bool :=
  info.size ≤ info.uploaded

/-- The answer to a list request. -/
structure ListReply where
  infos : List PartialInfo := []
deriving DecidableEq, Repr

end ResumableUpload
