import WireBench.Http.Reading

/-!
# The lines of a request

A request seen as lines: the first one, the header lines up to the first blank line, and what
follows. Seen so, it is clear without reading on whether the header section is complete and which of
its lines is at fault.
-/

namespace WireBench.Http

def isBlankLine (line : Bytes) : Bool :=
  line == Bytes.crlf || line == [Bytes.lf]

def Field.ofLine? (line : Bytes) : Option Field :=
  (Utf8.decode? line).bind fun text =>
    (Text.cutWhere (· == ':') text.toList).map fun cut =>
      ⟨Text.trim (String.ofList cut.1), Text.trim (String.ofList cut.2)⟩

def RequestLine.ofLine? (line : Bytes) : Option RequestLine :=
  (Utf8.decode? line).bind fun text =>
    match Text.words text with
    | word :: target :: version :: _ =>
      (Method.ofToken? word).map fun method => ⟨method, target, version⟩
    | _ => none

/-- A request cut into lines: there is a blank line if it ends the header section, and none if the
input does. -/
structure Layout where
  first : Bytes
  fieldLines : List Bytes
  blank? : Option Bytes
  rest : Bytes

namespace Layout

def of (bs : Bytes) : Layout :=
  let others := (Bytes.lines bs).drop 1
  let remaining := others.dropWhile fun line => !isBlankLine line
  { first := (Bytes.lines bs).headD []
    fieldLines := others.takeWhile fun line => !isBlankLine line
    blank? := remaining.head?
    rest := (remaining.drop 1).flatten }

def head (layout : Layout) : Bytes :=
  layout.first ++ layout.fieldLines.flatten ++ layout.blank?.getD []

def isComplete (layout : Layout) : Bool :=
  layout.blank?.isSome

def headers? (layout : Layout) : Option Headers :=
  (layout.fieldLines.mapM Field.ofLine?).map Headers.ofFields

/-- Nothing is lost in the layout. -/
theorem head_append_rest (bs : Bytes) : (of bs).head ++ (of bs).rest = bs := by
  have hlines := Bytes.flatten_lines bs
  rw [head, of]
  generalize Bytes.lines bs = lines at hlines
  cases lines with
  | nil => simpa using hlines
  | cons first others =>
    have hsplit := List.takeWhile_append_dropWhile (p := fun line => !isBlankLine line) (l := others)
    simp only [List.headD_cons, List.drop_one, List.tail_cons]
    rw [← hlines, List.flatten_cons]
    conv => rhs; rw [← hsplit, List.flatten_append]
    cases others.dropWhile fun line => !isBlankLine line <;> simp

end Layout

end WireBench.Http
