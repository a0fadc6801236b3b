import ResumableUpload.Http.Reply
import ResumableUpload.Http.Request
import ResumableUpload.Session

/-!
# Sessions over HTTP

A server has an address and answers the agreed routes from an endpoint.  A session over HTTP works
with that endpoint if its base URL leads to the routes; else no call gets through.  Answers that the
server gives in place of its endpoint arrive as they come back over the wire.
-/

namespace ResumableUpload.Http

/-- An endpoint that is served at an address, which is given as host and port number. -/
structure Server where
  address : String
  endpoint : Endpoint := {}
  /-- Answers to delete requests that are given before the endpoint is reached. -/
  deleteScript : List (Answer Unit) := []
  /-- Answers to list requests that are given before the endpoint is reached. -/
  listScript : List (Answer ListReply) := []

/-- The answer to every call over a base URL that does not lead to the routes of a server. -/
def obstacle? (base : Base) (server : Option Server) : Option CannedAnswer :=
  match Call.list.request? base with
  | none => some (.fail Call.unrequestable)
  | some request =>
    match server with
    | none => some (.fail (.io (unanswered (Call.list.address base))))
    | some server =>
      if !request.url.leadsTo server.address then
        some (.fail (.io (unanswered (Call.list.address base))))
      else if request.url.target = Wire.routes.uploadings then none
      else some (.status 404)

/-- An answer to a list call as it comes back over the wire. -/
def listCarried (base : Base) (answer : Answer ListReply) : Answer ListReply :=
  (Delivery.ofAnswer ListReply.toJson answer).answer (Call.list.address base)
    (answerOf ListReply.ofJson?)

/-- An answer to a delete call as it comes back over the wire. -/
def deleteCarried (base : Base) (path : String) (answer : Answer Unit) : Answer Unit :=
  (Delivery.ofAnswer (fun _ => .object []) answer).answer ((Call.delete path).address base)
    fun status _ => bareAnswerOf status

/-- A session over HTTP; `path` is the one upload that it may delete. -/
def connect (config : Config) (hosting : Hosting) (base : Base) (server : Option Server)
    (path : String) : Session :=
  match obstacle? base server, server with
  | none, some server =>
    { Session.new config hosting server.endpoint with
      deleteScript := server.deleteScript.map (deleteCarried base path)
      listScript := server.listScript.map (listCarried base) }
  | obstacle, _ => { Session.new config hosting {} with cutOff := obstacle }

end ResumableUpload.Http
