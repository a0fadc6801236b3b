import ResumableUpload.Http.Url
import ResumableUpload.Json.Writer
import ResumableUpload.Response
import ResumableUpload.Text.Segments
import ResumableUpload.Wire

/-!
# Requests

Every call of the endpoint is one HTTP request.  Its URL is the base URL with one of the agreed
routes behind it; a payload travels as JSON, and a path without payload in the query.
-/

namespace ResumableUpload.Http

/--
Where the routes of an endpoint begin: `http://` or `https://` and more, without a slash at the end.
-/
structure Base where
  text : String
deriving DecidableEq, Repr

/-- A text that is no base URL. -/
structure Base.Fault where
  text : String
deriving DecidableEq, Repr

/-- The wording of a refused base URL. -/
def Base.Fault.message (fault : Base.Fault) : String :=
  "invalid base URL: " ++ fault.text

/-- The failure of a call over such a base URL. -/
def Base.Fault.transportError (fault : Base.Fault) : TransportError :=
  .http fault.message

/-- The base URL that a text gives; slashes at its end do not count. -/
def Base.ofText? (text : String) : Except Base.Fault Base :=
  let characters := Text.trimSlashesRight text.toList
  let trimmed := String.ofList characters
  if "http://".toList.isPrefixOf characters || "https://".toList.isPrefixOf characters then
    .ok ⟨trimmed⟩
  else .error ⟨trimmed⟩

/-- A call of the endpoint. -/
inductive Call where
  | create (payload : CreateRequest)
  | chunk (payload : ChunkRequest)
  | status (path : String)
  | delete (path : String)
  | list
deriving DecidableEq, Repr

/-- What a request does to its target. -/
inductive Method where
  | get
  | post
  | patch
  | delete
deriving DecidableEq, Repr

/-- The name of a method on the wire. -/
def Method.name : Method → String
  | .get => "GET"
  | .post => "POST"
  | .patch => "PATCH"
  | .delete => "DELETE"

/-- A request as it is sent. -/
structure Request where
  method : Method
  url : Url
  contentType : Option String := none
  body : String := ""
deriving DecidableEq, Repr

namespace Call

/-- The method of a call. -/
def method : Call → Method
  | .create _ => .post
  | .chunk _ => .patch
  | .status _ | .list => .get
  | .delete _ => .delete

/-- The route of a call. -/
def route : Call → String
  | .create _ | .delete _ | .list => Wire.routes.uploadings
  | .chunk _ => Wire.routes.data
  | .status _ => Wire.routes.status

/-- The path that a call names in its query. -/
def queried? : Call → Option String
  | .status path | .delete path => some path
  | _ => none

/-- The payload of a call. -/
def payload? : Call → Option Json.Value
  | .create payload => some payload.toJson
  | .chunk payload => some payload.toJson
  | _ => none

/-- The URL of a call, if there is one over this base. -/
def url? (call : Call) (base : Base) : Option Url :=
  (Url.ofText? (base.text ++ call.route)).map fun url =>
    match call.queried? with
    | some path => url.withField Wire.routes.pathKey path
    | none => url

/-- How a call's URL is named in messages. -/
def address (call : Call) (base : Base) : String :=
  base.text ++ call.route ++
    match call.queried? with
    | some path => "?" ++ Wire.routes.pathKey ++ "=" ++ Percent.formValue path
    | none => ""

/-- The failure of a call whose URL cannot be requested. -/
def unrequestable : TransportError :=
  .http "builder error"

/-- The request of a call, if its URL can be requested. -/
def request? (call : Call) (base : Base) : Option Request :=
  (call.url? base).map fun url =>
    match call.payload? with
    | some payload =>
      { method := call.method, url := url, contentType := some "application/json"
        body := payload.render }
    | none => { method := call.method, url := url }

end Call

end ResumableUpload.Http
