import ResumableUpload.Response
import ResumableUpload.Source

/-!
# Upload errors

Everything that can go wrong with an upload, by cause.  The wording is what entries carry and what a
user reads.
-/

namespace ResumableUpload

/-- Why an upload could not be queued, or did not finish. -/
inductive UploadError where
  | invalid (reason : String)
  | notFound (path : String)
  | transport (error : TransportError)
  | unreadable (error : ReadError)
  | createFailed (attempts : Nat) (reason : String)
  | rejected (status : Nat) (subject : String)
  | stalled
  | stopped
  | executor (reason : String)
deriving DecidableEq, Repr

/-- The wording of an upload error. -/
def UploadError.message : UploadError → String
  | .invalid reason => "invalid upload: " ++ reason
  | .notFound path => "upload not found: " ++ path
  | .transport error => "transport error: " ++ error.message
  | .unreadable error => "failed to read local file: " ++ error.message
  | .createFailed attempts reason =>
    "failed to create upload after " ++ toString attempts ++ " attempts: " ++ reason
  | .rejected status subject =>
    "rejected by endpoint with status " ++ toString status ++ ": " ++ subject
  | .stalled => "poor network condition, retry later"
  | .stopped => "uploading is stopped"
  | .executor reason => "executor error: " ++ reason

end ResumableUpload
