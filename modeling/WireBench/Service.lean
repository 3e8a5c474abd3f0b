import WireBench.Http.Request
import WireBench.Http.Response
import WireBench.Json.Parse
import WireBench.Json.Render
import WireBench.Multipart.FormData

/-!
# Services

What is served over HTTP: parts as form data under a fresh boundary for every answer, or an echo of
requests in JSON.
-/

namespace WireBench

open WireBench.Http WireBench.Multipart

/-- What a server answers with: some parts as form data, or an echo. -/
inductive Service where
  | form (parts : List Part)
  | echo

namespace Service

def formResponse (form : FormData) : Response :=
  .ok ((Headers.empty.set "Content-Type" form.mediaType).set "Content-Length"
    (toString form.bytes.length)) form.bytes

def jsonResponse (status : Nat) (reason : String) (value : Json.Value) : Response :=
  .withBody status reason "application/json" value.toBytes

/-- The host that the client may be assumed to have asked: the address it reached, or else the one
it named. -/
def hostOf (request : Request) : String :=
  match request.server? with
  | some address => address.toText
  | none => (request.headers.get? "Host").getD "localhost"

def originOf (request : Request) : String :=
  match request.client? with
  | some address => address.ip.toText
  | none => ""

/-- A request described: its query, its header fields as they were sent, the client and the URL. -/
def describe (request : Request) : Json.Value :=
  .ofMembers [
    ("args", .ofMembers [("query", .text ((request.param? "query").getD ""))]),
    ("headers", .ofMembers (request.headers.asSent.map fun field => (field.1, .text field.2))),
    ("origin", .text (originOf request)),
    ("url", .text ("http://" ++ hostOf request ++ request.target))]

def echoBody (body : Bytes) : Response :=
  match Json.Value.parse? body with
  | some value =>
    jsonResponse 200 "OK" (.ofMembers [("status", .text "success"), ("received", value)])
  | none => jsonResponse 400 "Bad Request" (.ofMembers [("error", .text "Invalid JSON")])

def echoResponse (request : Request) : Response :=
  match request.method, request.path with
  | .get, "/get" => jsonResponse 200 "OK" (describe request)
  | .post, "/post" => echoBody request.body
  | _, _ => .notFound

def asksForForm (request : Request) : Bool :=
  (request.method == .get || request.method == .head) && request.path == "/"

/-- The answer to a request. Form data takes a fresh boundary from the random source. -/
def respond (service : Service) (draws : Draws) (request : Request) : Response × Draws :=
  match service with
  | .echo => (echoResponse request, draws)
  | .form parts =>
    if asksForForm request then
      (formResponse ⟨.ofDraw draws.next.1, parts⟩, draws.next.2)
    else (.notFound, draws)

def respondAll (service : Service) (draws : Draws) : List Request → List Response × Draws
  | [] => ([], draws)
  | request :: requests =>
    match service.respond draws request with
    | (response, draws) =>
      match service.respondAll draws requests with
      | (responses, draws) => (response :: responses, draws)

end Service

end WireBench
