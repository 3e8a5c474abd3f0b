import WireBench.Http.Reading
import WireBench.Http.Response

/-!
# Receiving responses

The client's side of a response: it reads a status line and header lines up to the blank line, and
then as many bytes as they announce, unless it has asked for the head only. Responses that follow
one another are told apart in this way.
-/

namespace WireBench.Http

open WireBench.Transport

/-- The length that the fields of a response announce; none announced means no body. -/
def Headers.announced? (headers : Headers) : Option Nat :=
  match headers.get? "Content-Length" with
  | none => some 0
  | some value => Numeral.readDecimal? value

structure ReceivedResponse where
  statusLine : String
  headers : Headers
  body : Bytes

namespace ReceivedResponse

def read? (bodyIsDue : Bool) (bs : Bytes) : Option (ReceivedResponse × Bytes) :=
  match Reading.line .finished bs with
  | (.error _, _) => none
  | (.ok statusLine, rest) =>
    match Headers.read .finished rest with
    | (.error _, _) => none
    | (.ok headers, rest) =>
      match headers.announced? with
      | none => none
      | some length =>
        let due := if bodyIsDue then length else 0
        if due ≤ rest.length then some (⟨statusLine, headers, rest.take due⟩, rest.drop due)
        else none

/-- Reads as many responses as there are answers to be expected, and nothing may be left over; for
each it is known whether a body is due. -/
def readAll? : List Bool → Bytes → Option (List ReceivedResponse)
  | [], [] => some []
  | [], _ :: _ => none
  | bodyIsDue :: due, bs =>
    match read? bodyIsDue bs with
    | none => none
    | some (response, rest) => (readAll? due rest).map fun responses => response :: responses

def status? (received : ReceivedResponse) : Option String :=
  (Text.words received.statusLine)[1]?

end ReceivedResponse

def Response.received (response : Response) (bodyIsDue : Bool) : ReceivedResponse where
  statusLine := response.statusLine
  headers := .ofFields (response.headers.sorted.map fun pair => ⟨pair.1, pair.2⟩)
  body := if bodyIsDue then response.body else []

end WireBench.Http
