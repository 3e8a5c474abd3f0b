import WireBench.Http.Headers
import WireBench.Http.Request
import WireBench.Text.Blank
import WireBench.Text.Utf8

/-!
# Writing requests

The client's side of a request: a request line, header lines in any order and perhaps several of one
name, a blank line and the body.
-/

namespace WireBench.Http

def Field.line (field : Field) : String :=
  field.name ++ ": " ++ field.value ++ "\r\n"

structure WrittenRequest where
  word : String
  target : String
  version : String
  fields : List Field
  body : Bytes

namespace WrittenRequest

def firstLine (written : WrittenRequest) : String :=
  written.word ++ " " ++ written.target ++ " " ++ written.version ++ "\r\n"

def headerSection (written : WrittenRequest) : Bytes :=
  written.fields.flatMap (fun field => Utf8.encode field.line) ++ Bytes.crlf

def bytes (written : WrittenRequest) : Bytes :=
  Utf8.encode written.firstLine ++ written.headerSection ++ written.body

/-- The header fields that are understood: blanks around names and values do not count, and of
several fields of one name the last does. -/
def headers (written : WrittenRequest) : Headers :=
  .ofFields (written.fields.map fun field => ⟨Text.trim field.name, Text.trim field.value⟩)

end WrittenRequest

def Request.written (request : Request) (fields : List Field) : WrittenRequest :=
  ⟨request.method.token, request.target, request.version, fields, request.body⟩

end WireBench.Http
