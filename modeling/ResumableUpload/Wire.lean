import ResumableUpload.Json.Reader
import ResumableUpload.Json.Writer
import ResumableUpload.Payload

/-!
# The wire format

Payloads travel as JSON records whose keys are in camel case.  Each payload has a value (`toJson`)
and a reader (`ofJson?`) that takes a record or the array of its fields.
-/

namespace ResumableUpload

open Json (Value)

/-- The paths, the query key and the statuses that both sides agree on. -/
structure Wire.Routes where
  uploadings : String
  data : String
  status : String
  pathKey : String

/--
The agreed routes: the collection of uploads, their data, their status, and the key of a path.
-/
def Wire.routes : Wire.Routes where
  uploadings := "/v1/fs/uploadings"
  data := "/v1/fs/uploadings/data"
  status := "/v1/fs/uploadings/status"
  pathKey := "fp"

namespace CreateRequest

def toJson (request : CreateRequest) : Value :=
  .record [("path", .ofText request.path), ("fileSize", .ofNat request.fileSize)]

def ofJson? (value : Value) : Option CreateRequest := do
  match ← value.fields? ["path", "fileSize"] with
  | [some path, some fileSize] => some ⟨← path.text?, ← fileSize.word?⟩
  | _ => none

end CreateRequest

namespace ChunkRequest

def toJson (request : ChunkRequest) : Value :=
  .record [("path", .ofText request.path), ("content", .ofText request.content),
    ("offset", .ofNat request.offset)]

def ofJson? (value : Value) : Option ChunkRequest := do
  match ← value.fields? ["path", "content", "offset"] with
  | [some path, some content, some offset] =>
    some ⟨← path.text?, ← content.text?, ← offset.word?⟩
  | _ => none

end ChunkRequest

namespace CreateReply

def toJson (reply : CreateReply) : Value :=
  .record [("path", .ofText reply.path), ("fileSize", .ofNat reply.fileSize)]

def ofJson? (value : Value) : Option CreateReply := do
  match ← value.fields? ["path", "fileSize"] with
  | [some path, some fileSize] => some ⟨← path.text?, ← fileSize.word?⟩
  | _ => none

end CreateReply

namespace StatusReply

def toJson (reply : StatusReply) : Value :=
  .record [("path", .ofText reply.path), ("uploaded", .ofNat reply.uploaded),
    ("fileSize", .ofNat reply.fileSize)]

def ofJson? (value : Value) : Option StatusReply := do
  match ← value.fields? ["path", "uploaded", "fileSize"] with
  | [some path, some uploaded, some fileSize] =>
    some ⟨← path.text?, ← uploaded.word?, ← fileSize.word?⟩
  | _ => none

end StatusReply

namespace PartialInfo

def toJson (info : PartialInfo) : Value :=
  .record [("realFilePath", .ofText info.path), ("size", .ofNat info.size),
    ("uploaded", .ofNat info.uploaded)]

def ofJson? (value : Value) : Option PartialInfo := do
  match ← value.fields? ["realFilePath", "size", "uploaded"] with
  | [some path, some size, some uploaded] =>
    some ⟨← path.text?, ← size.word?, ← uploaded.word?⟩
  | _ => none

end PartialInfo

namespace ListReply

def toJson (reply : ListReply) : Value :=
  .record [("uploadInfos", .array (reply.infos.map PartialInfo.toJson))]

/-- A list that is left out is empty. -/
def ofJson? (value : Value) : Option ListReply := do
  match ← value.fields? ["uploadInfos"] with
  | [some infos] => some ⟨← (← infos.elements?).mapM PartialInfo.ofJson?⟩
  | _ => some ⟨[]⟩

end ListReply

end ResumableUpload
