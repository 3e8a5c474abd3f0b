import WireBench.Http.Request
import WireBench.Text.Blank
import WireBench.Transport.Fault

/-!
# Reading requests

One request is read from the front of a byte string: a request line, header lines up to a blank
line, and as many bytes of body as the fields announce. What is read and what remains make up the
byte string again, so that requests can be read one after the other; a line that is refused has been
read, and what follows it has not.
-/

namespace WireBench.Http

open WireBench.Transport

/-- Why no request could be read. The first six are the fault of what was received. -/
inductive ReadError where
  | malformedLine (line : String)
  | unknownMethod (word : String)
  | malformedField (line : String)
  | badLength (value : String)
  | lengthOverLimit (length : Nat)
  | notText
  | bodyCutShort
  | transport (fault : Fault)
  deriving DecidableEq, Repr

def bodyLimit : Nat := 16777216

namespace ReadError

def kind : ReadError → FaultKind
  | .bodyCutShort => .unexpectedEnd
  | .transport fault => fault.kind
  | _ => .invalidData

def message : ReadError → String
  | .malformedLine line => "Malformed HTTP request line: '" ++ line ++ "'"
  | .unknownMethod word => Method.unknownMessage word
  | .malformedField line => "Malformed HTTP header: '" ++ line ++ "'"
  | .badLength value => "Invalid Content-Length value: '" ++ value ++ "'"
  | .lengthOverLimit length =>
    "Content-Length " ++ toString length ++ " exceeds limit of " ++ toString bodyLimit
  | .notText => "stream did not contain valid UTF-8"
  | .bodyCutShort => "failed to fill whole buffer"
  | .transport fault => fault.message

end ReadError

/-- The result of reading something from the front of a byte string, and what remains. -/
abbrev Reading (α : Type) := Except ReadError α × Bytes

namespace Reading

/-- Reads a line with its line end; at the end of the input a line need not be ended. -/
def line (ending : Ending) (bs : Bytes) : Reading String :=
  match Bytes.cutLine bs with
  | (l, rest) =>
    match Bytes.isTerminated l, ending with
    | false, .fault fault => (.error (.transport fault), rest)
    | _, _ =>
      match Utf8.decode? l with
      | some text => (.ok text, rest)
      | none => (.error .notText, rest)

theorem line_snd (ending : Ending) (bs : Bytes) : (line ending bs).2 = (Bytes.cutLine bs).2 := by
  unfold line
  split
  next h =>
    rw [h]
    split
    · rfl
    · split <;> rfl

theorem length_lt_of_line {ending : Ending} {bs rest : Bytes} {text : String}
    (h : line ending bs = (.ok text, rest)) (ht : text ≠ "") : rest.length < bs.length := by
  have hr : rest = (Bytes.cutLine bs).2 := by rw [← line_snd ending bs, h]
  cases bs with
  | nil =>
    exfalso
    cases ending <;> simp [line, Bytes.cutLine, Bytes.isTerminated, Utf8.decode?,
      Utf8.decodeFrom] at h
    exact ht h.1
  | cons b bs => exact hr ▸ Bytes.cutLine_snd_length_lt (by simp)

end Reading

structure RequestLine where
  method : Method
  target : String
  version : String
  deriving DecidableEq, Repr

/-- Reads a request line: a method, a target and a version, and possibly more words that mean
nothing. -/
def RequestLine.ofText (line : String) : Except ReadError RequestLine :=
  match Text.words line with
  | word :: target :: version :: _ =>
    match Method.ofToken? word with
    | some method => .ok ⟨method, target, version⟩
    | none => .error (.unknownMethod word)
  | _ => .error (.malformedLine (Text.trimEnd line))

def Field.ofText (line : String) : Except ReadError Field :=
  match Text.cutWhere (· == ':') line.toList with
  | some (name, value) =>
    .ok ⟨Text.trim (String.ofList name), Text.trim (String.ofList value)⟩
  | none => .error (.malformedField (Text.trimEnd line))

/-- Whether a line ends the header section: a blank line does, and so does the end of the input. -/
def endsSection (line : String) : Bool :=
  line == "\r\n" || line == "\n" || line == ""

def Headers.readFrom (ending : Ending) (headers : Headers) (bs : Bytes) : Reading Headers :=
  match _h : Reading.line ending bs with
  | (.error e, rest) => (.error e, rest)
  | (.ok line, rest) =>
    if _hl : endsSection line then (.ok headers, rest)
    else match Field.ofText line with
      | .error e => (.error e, rest)
      | .ok field => Headers.readFrom ending (headers.insert field) rest
termination_by bs.length
decreasing_by
  refine Reading.length_lt_of_line _h ?_
  rintro rfl
  exact _hl rfl

def Headers.read (ending : Ending) (bs : Bytes) : Reading Headers :=
  Headers.readFrom ending .empty bs

/-- The length of the body that the fields announce; none means no body. -/
def Headers.bodyLength (headers : Headers) : Except ReadError Nat :=
  match headers.get? "Content-Length" with
  | none => .ok 0
  | some value =>
    match Numeral.read Numeral.sizeLimit value with
    | .error _ => .error (.badLength value)
    | .ok length => if bodyLimit < length then .error (.lengthOverLimit length) else .ok length

/-- Reads exactly as many bytes; too few are lost. -/
def Reading.exactly (ending : Ending) (n : Nat) (bs : Bytes) : Reading Bytes :=
  if n ≤ bs.length then (.ok (bs.take n), bs.drop n)
  else match ending with
    | .finished => (.error .bodyCutShort, [])
    | .fault fault => (.error (.transport fault), [])

def RequestLine.readRest (first : RequestLine) (ending : Ending) (bs : Bytes) : Reading Request :=
  match Headers.read ending bs with
  | (.error e, rest) => (.error e, rest)
  | (.ok headers, rest) =>
    match headers.bodyLength with
    | .error e => (.error e, rest)
    | .ok n =>
      match Reading.exactly ending n rest with
      | (.error e, rest') => (.error e, rest')
      | (.ok body, rest') =>
        (.ok { method := first.method, target := first.target, version := first.version,
               headers := headers, body := body }, rest')

def Request.read (ending : Ending) (bs : Bytes) : Reading (Option Request) :=
  if bs = [] ∧ ending = .finished then (.ok none, [])
  else match Reading.line ending bs with
    | (.error e, rest) => (.error e, rest)
    | (.ok line, rest) =>
      match RequestLine.ofText line with
      | .error e => (.error e, rest)
      | .ok first =>
        match first.readRest ending rest with
        | (.error e, rest') => (.error e, rest')
        | (.ok request, rest') => (.ok (some request), rest')

theorem Reading.line_length_le (ending : Ending) (bs : Bytes) :
    (Reading.line ending bs).2.length ≤ bs.length := by
  rw [Reading.line_snd]
  exact Bytes.cutLine_snd_length_le bs

theorem Headers.readFrom_length_le (ending : Ending) (headers : Headers) (bs : Bytes) :
    (Headers.readFrom ending headers bs).2.length ≤ bs.length := by
  fun_induction Headers.readFrom ending headers bs with
  | case1 headers bs e rest h =>
    simpa [h] using Reading.line_length_le ending bs
  | case2 headers bs line rest h =>
    simpa [h] using Reading.line_length_le ending bs
  | case3 headers bs line rest h _ e he =>
    simpa [h] using Reading.line_length_le ending bs
  | case4 headers bs line rest h _ field he ih =>
    have hle := Reading.line_length_le ending bs
    rw [h] at hle
    exact Nat.le_trans ih hle

theorem Reading.exactly_length_le (ending : Ending) (n : Nat) (bs : Bytes) :
    (Reading.exactly ending n bs).2.length ≤ bs.length := by
  unfold Reading.exactly
  split
  · simp
  · split <;> simp

theorem RequestLine.readRest_length_le (first : RequestLine) (ending : Ending)
    (bs : Bytes) : (first.readRest ending bs).2.length ≤ bs.length := by
  have hh := Headers.readFrom_length_le ending .empty bs
  rw [RequestLine.readRest, Headers.read]
  split
  · next h => simpa [h] using hh
  · next headers rest h =>
    rw [h] at hh
    split
    · simpa using hh
    · next n _ =>
      have he := Reading.exactly_length_le ending n rest
      split
      · next h' =>
        rw [h'] at he
        exact Nat.le_trans he hh
      · next h' =>
        rw [h'] at he
        exact Nat.le_trans he hh

theorem Request.length_lt_of_read {ending : Ending} {bs rest : Bytes}
    {request : Request} (h : Request.read ending bs = (.ok (some request), rest)) :
    rest.length < bs.length := by
  rw [Request.read] at h
  split at h
  · simp at h
  · split at h
    · simp at h
    · next line rest1 hl =>
      split at h
      · simp at h
      · next first hf =>
        have hne : line ≠ "" := by
          rintro rfl
          simp [RequestLine.ofText, Text.words, Text.splitWhere] at hf
        have h1 := Reading.length_lt_of_line hl hne
        have h2 := RequestLine.readRest_length_le first ending rest1
        split at h
        · simp at h
        · next request' rest' hr =>
          simp only [Prod.mk.injEq] at h
          rw [hr, h.2] at h2
          exact Nat.lt_of_le_of_lt h2 h1

end WireBench.Http
