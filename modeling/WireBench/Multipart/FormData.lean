import WireBench.Multipart.Boundary
import WireBench.Part

/-!
# Form data

Parts are framed one after the other: a marker line, two header lines, a blank line, the content
and a line end; a closing marker line follows the last. The length of the whole can be told without
framing anything.
-/

namespace WireBench.Multipart

def fieldName : String := "file"

def partHeader (part : Part) : String :=
  "Content-Disposition: form-data; name=\"" ++ fieldName ++ "\"; filename=\"" ++ part.name ++
    "\"\r\nContent-Type: " ++ part.mediaType ++ "\r\n"

def dashes : Bytes := [45, 45]

def frame (boundary : Boundary) (part : Part) : Bytes :=
  boundary.marker ++ Bytes.crlf ++ Utf8.encode (partHeader part) ++ Bytes.crlf ++ part.content ++
    Bytes.crlf

def closing (boundary : Boundary) : Bytes :=
  boundary.marker ++ dashes ++ Bytes.crlf

def frameLength (boundary : Boundary) (part : Part) : Nat :=
  boundary.markerLength + 2 + (Utf8.encode (partHeader part)).length + 2 + part.content.length + 2

def framesLength (boundary : Boundary) : List Part → Nat
  | [] => 0
  | part :: parts => frameLength boundary part + framesLength boundary parts

structure FormData where
  boundary : Boundary
  parts : List Part

namespace FormData

/-- The message: all parts in their frames, and the closing line. -/
def bytes (form : FormData) : Bytes :=
  form.parts.flatMap (frame form.boundary) ++ closing form.boundary

def length (form : FormData) : Nat :=
  framesLength form.boundary form.parts + form.boundary.markerLength + 2 + 2

def mediaType (form : FormData) : String :=
  "multipart/form-data; boundary=" ++ form.boundary.token

theorem length_frame (boundary : Boundary) (part : Part) :
    (frame boundary part).length = frameLength boundary part := by
  simp only [frame, frameLength, Bytes.crlf, List.length_append, List.length_cons,
    List.length_nil, boundary.length_marker_eq]

theorem length_frames (boundary : Boundary) (parts : List Part) :
    (parts.flatMap (frame boundary)).length = framesLength boundary parts := by
  induction parts with
  | nil => rfl
  | cons part parts ih => rw [List.flatMap_cons, List.length_append, length_frame, ih, framesLength]

theorem length_bytes (form : FormData) : form.bytes.length = form.length := by
  rw [bytes, length, List.length_append, length_frames]
  simp [closing, dashes, Bytes.crlf, form.boundary.length_marker_eq, Nat.add_assoc]

end FormData

end WireBench.Multipart
