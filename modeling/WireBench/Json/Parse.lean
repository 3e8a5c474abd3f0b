import WireBench.Json.Token
import WireBench.Text.Utf8

/-!
# Parsing JSON

Tokens are taken one by one, with a stack of the containers that are still open. A complete value
goes into the container on top, or is the result if none is open; at most 127 containers may be open
at a time.
-/

namespace WireBench.Json

/-- An open container, its contents in reverse: an array, an object between members, or an object
that waits for the value of a member. -/
inductive Frame where
  | array (done : List Value)
  | object (done : List (String × Value))
  | member (done : List (String × Value)) (name : String)

/-- What may come next: a value; a value or the end of an empty array; a name or the end of an empty
object; a name; a colon; a comma or an end; or nothing, because the value is complete. -/
inductive Expecting where
  | value (frames : List Frame)
  | firstElement (frames : List Frame)
  | firstName (frames : List Frame)
  | name (done : List (String × Value)) (frames : List Frame)
  | colon (frames : List Frame)
  | next (frame : Frame) (frames : List Frame)
  | nothing (value : Value)

namespace Expecting

def depthLimit : Nat := 127

def place (value : Value) : List Frame → Option Expecting
  | [] => some (.nothing value)
  | .array done :: frames => some (.next (.array (value :: done)) frames)
  | .member done key :: frames => some (.next (.object ((key, value) :: done)) frames)
  | .object _ :: _ => none

def begin (frames : List Frame) : Token → Option Expecting
  | .null => place .null frames
  | .bool b => place (.bool b) frames
  | .number n => place (.number n) frames
  | .text s => place (.text s) frames
  | .openArray => if frames.length < depthLimit then some (.firstElement frames) else none
  | .openObject => if frames.length < depthLimit then some (.firstName frames) else none
  | _ => none

def step : Expecting → Token → Option Expecting
  | .value frames, t => begin frames t
  | .firstElement frames, .closeArray => place (.array []) frames
  | .firstElement frames, t => begin (.array [] :: frames) t
  | .firstName frames, .closeObject => place (.object []) frames
  | .firstName frames, .text s => some (.colon (.member [] s :: frames))
  | .firstName _, _ => none
  | .name done frames, .text s => some (.colon (.member done s :: frames))
  | .name _ _, _ => none
  | .colon frames, .colon => some (.value frames)
  | .colon _, _ => none
  | .next (.array done) frames, .comma => some (.value (.array done :: frames))
  | .next (.array done) frames, .closeArray => place (.array done.reverse) frames
  | .next (.object done) frames, .comma => some (.name done frames)
  | .next (.object done) frames, .closeObject => place (.ofMembers done.reverse) frames
  | .next _ _, _ => none
  | .nothing _, _ => none

def run : Expecting → List Token → Option Expecting
  | state, [] => some state
  | state, t :: ts =>
    match step state t with
    | none => none
    | some state => run state ts

end Expecting

def Value.ofTokens? (ts : List Token) : Option Value :=
  match Expecting.run (.value []) ts with
  | some (.nothing value) => some value
  | _ => none

def Value.parse? (bs : Bytes) : Option Value :=
  match Utf8.decode? bs with
  | none => none
  | some s => (Token.readAll s.toList).bind Value.ofTokens?

end WireBench.Json
