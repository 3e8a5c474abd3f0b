import WireBench.Http.Headers
import WireBench.Http.Method
import WireBench.Http.Query
import WireBench.Net.Address

/-!
# Requests

A request as it was received, and what its target and its fields say: the path, the query
parameters, and whether the client expects the connection to stay open.
-/

namespace WireBench.Http

/-- A request, with the addresses of the two ends if it came over a connection. -/
structure Request where
  method : Method
  target : String
  version : String
  headers : Headers
  body : Bytes
  client? : Option Net.SocketAddress := none
  server? : Option Net.SocketAddress := none

namespace Request

def cutTarget (request : Request) : Option (List Char × List Char) :=
  Text.cutWhere (· == '?') request.target.toList

def path (request : Request) : String :=
  match request.cutTarget with
  | some (path, _) => String.ofList path
  | none => request.target

def query? (request : Request) : Option String :=
  request.cutTarget.map fun cut => String.ofList cut.2

def param? (request : Request) (name : String) : Option String :=
  request.query?.bind fun query => Query.param? query name

/-- Whether the client expects the connection to stay open: what it says, or else what its version
of the protocol implies. -/
def keepAlive (request : Request) : Bool :=
  match (request.headers.get? "Connection").map Text.asciiLowercase with
  | some "close" => false
  | some "keep-alive" => true
  | _ => request.version != "HTTP/1.0"

def between (request : Request) (client server : Net.SocketAddress) : Request :=
  { request with client? := some client, server? := some server }

@[simp] theorem keepAlive_between (request : Request) (client server : Net.SocketAddress) :
    (request.between client server).keepAlive = request.keepAlive := rfl

end Request

end WireBench.Http
