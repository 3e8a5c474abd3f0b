import WireBench.Http.Headers
import WireBench.Multipart.FormData
import WireBench.Text.Blank
import WireBench.Text.Search

/-!
# Reading form data

The receiving side: a message is cut at the markers of a known boundary, and each piece is read as
header lines and content. A message that is not framed as it should be is not read at all.
-/

namespace WireBench.Multipart

open WireBench.Http WireBench.Text

structure ReceivedPart where
  fieldName : String
  fileName : Option String
  mediaType : Option String
  content : Bytes
  deriving DecidableEq

namespace ReceivedPart

def unquote (s : String) : String :=
  String.ofList
    (((s.toList.dropWhile (· == '"')).reverse.dropWhile (· == '"')).reverse)

/-- The value of the first parameter of a name among those that semicolons separate. -/
def param? (disposition name : String) : Option String :=
  ((splitWhere (· == ';') disposition.toList).map fun item => trim (String.ofList item)).findSome?
    fun item =>
      match cutWhere (· == '=') item.toList with
      | none => none
      | some (key, value) =>
        if trim (String.ofList key) = name then
          some (unquote (trim (String.ofList value)))
        else none

def readHeaders? : Headers → List (List Char) → Option Headers
  | headers, [] => some headers
  | headers, line :: lines =>
    match cutWhere (· == ':') line with
    | none => none
    | some (name, value) =>
      readHeaders? (headers.set (trim (String.ofList name)) (trim (String.ofList value))) lines

def ofBlock? (block content : Bytes) : Option ReceivedPart :=
  match Utf8.decode? block with
  | none => none
  | some text =>
    match readHeaders? .empty (piecesAt ['\r', '\n'] text.toList) with
    | none => none
    | some headers =>
      match headers.get? "Content-Disposition" with
      | none => none
      | some disposition =>
        if "form-data".toList.isPrefixOf disposition.toList then
          match param? disposition "name" with
          | none => none
          | some fieldName =>
            some ⟨fieldName, param? disposition "filename", headers.get? "Content-Type", content⟩
        else none

end ReceivedPart

def blockEnd : Bytes := Bytes.crlf ++ Bytes.crlf

def receiveFrom (marker : Bytes) (bs : Bytes) : Option (List ReceivedPart) :=
  if dashes.isPrefixOf bs then
    if bs.drop 2 = Bytes.crlf then some [] else none
  else if Bytes.crlf.isPrefixOf bs then
    match _h : cutAt blockEnd (bs.drop 2) with
    | none => none
    | some (block, rest) =>
      match _h' : cutAt (Bytes.crlf ++ marker) rest with
      | none => none
      | some (content, rest') =>
        match ReceivedPart.ofBlock? block content, receiveFrom marker rest' with
        | some part, some parts => some (part :: parts)
        | _, _ => none
  else none
termination_by bs.length
decreasing_by
  have h1 := cutAt_length _h
  have h2 := cutAt_length _h'
  simp only [blockEnd, Bytes.crlf, List.length_append, List.length_drop, List.length_cons,
    List.length_nil] at h1 h2
  omega

/-- Reads a message whose parts are separated by a token; what stands before the first marker is
passed over. -/
def receive? (token : String) (message : Bytes) : Option (List ReceivedPart) :=
  match cutAt (Boundary.marker ⟨token⟩) message with
  | none => none
  | some (_, rest) => receiveFrom (Boundary.marker ⟨token⟩) rest

end WireBench.Multipart
