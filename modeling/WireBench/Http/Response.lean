import WireBench.Http.Headers
import WireBench.Text.Utf8

/-!
# Responses

A response and its written form: the status line, one line for every header field in the order of
their names, a blank line, the body.
-/

namespace WireBench.Http

structure Response where
  version : String
  status : Nat
  reason : String
  headers : Headers
  body : Bytes

namespace Response

def of (status : Nat) (reason : String) (headers : Headers) (body : Bytes) : Response :=
  ⟨"HTTP/1.1", status, reason, headers, body⟩

def ok (headers : Headers) (body : Bytes) : Response :=
  of 200 "OK" headers body

def lengthOnly (length : Nat) : Headers :=
  Headers.empty.set "Content-Length" (toString length)

def notFound : Response :=
  of 404 "Not Found" (lengthOnly 0) []

def badRequest : Response :=
  of 400 "Bad Request" (lengthOnly 0) []

/-- A response with a body, announced by its type and length. -/
def withBody (status : Nat) (reason mediaType : String) (body : Bytes) : Response :=
  of status reason ((lengthOnly body.length).set "Content-Type" mediaType) body

def setHeader (response : Response) (name value : String) : Response :=
  { response with headers := response.headers.set name value }

def headerLine (pair : String × String) : String :=
  pair.1 ++ ": " ++ pair.2 ++ "\r\n"

def statusLine (response : Response) : String :=
  response.version ++ " " ++ toString response.status ++ " " ++ response.reason ++ "\r\n"

/-- Everything before the body: the status line, the header lines and the blank line. -/
def head (response : Response) : Bytes :=
  Utf8.encode response.statusLine ++
    response.headers.sorted.flatMap (fun pair => Utf8.encode (headerLine pair)) ++ Bytes.crlf

def toBytes (response : Response) : Bytes :=
  response.head ++ response.body

end Response

end WireBench.Http
