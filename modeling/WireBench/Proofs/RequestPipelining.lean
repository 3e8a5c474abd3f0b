import Mathlib.Tactic.MkIffOfInductiveProp
import WireBench.Proofs.DecimalText
import WireBench.Proofs.HeaderSection
import WireBench.Proofs.RequestGrammar
import WireBench.Proofs.RequestStream

/-!
# Pipelined requests

Requests that a client writes one after the other are read back one after the other: each reading
takes exactly one request from the input, whatever the bodies hold and whatever follows.
-/

namespace WireBench

namespace Text

private theorem asciiUpper_eq_self {c : Char} (h : ¬ (0x61 ≤ c.toNat ∧ c.toNat ≤ 0x7A)) :
    asciiUpper c = c := by
  simp only [asciiUpper, h, if_false]

theorem capitals_ascii {c : Char} (hc : c.toNat < 128) : capitals c = [asciiUpper c] := by
  have hjoined : joined? c = none := by
    simp only [joined?]
    repeat' split
    all_goals first | omega | rfl
  have hi : ¬ c.toNat = 0x131 := by omega
  have hs : ¬ c.toNat = 0x17F := by omega
  simp only [capitals, hi, hs, if_false, hjoined]

theorem toNat_lt_of_asciiUpper {c : Char} (h : (asciiUpper c).toNat < 128) : c.toNat < 128 := by
  by_cases hc : 0x61 ≤ c.toNat ∧ c.toNat ≤ 0x7A
  · omega
  · rwa [asciiUpper_eq_self hc] at h

theorem inCapitals_of_map_asciiUpper {word token : String}
    (h : word.toList.map asciiUpper = token.toList) (htoken : ∀ c ∈ token.toList, c.toNat < 128) :
    inCapitals word = token := by
  have hcapitals : ∀ c ∈ word.toList, capitals c = [asciiUpper c] := by
    intro c hc
    have hmem : asciiUpper c ∈ token.toList := h ▸ List.mem_map_of_mem hc
    exact capitals_ascii (toNat_lt_of_asciiUpper (htoken _ hmem))
  have hflat : word.toList.flatMap capitals = word.toList.map asciiUpper := by
    rw [List.flatMap_def, List.map_congr_left hcapitals, ← List.flatMap_def, List.map_eq_flatMap]
  rw [inCapitals, hflat, h, String.ofList_toList]

theorem isBlank_of_asciiUpper {c : Char} (h : isBlank c = true) :
    isBlank (asciiUpper c) = true := by
  have hc : ¬ (0x61 ≤ c.toNat ∧ c.toNat ≤ 0x7A) := by
    intro hrange
    simp only [isBlank, Bool.or_eq_true, Bool.and_eq_true, decide_eq_true_eq, beq_iff_eq] at h
    omega
  rwa [asciiUpper_eq_self hc]

end Text

namespace Http

open WireBench.Text WireBench.Transport

namespace Method

theorem toNat_lt_of_mem_token (method : Method) : ∀ c ∈ method.token.toList, c.toNat < 128 := by
  cases method <;> exact forall_mem_ofList rfl

theorem isBlank_of_mem_token (method : Method) :
    ∀ c ∈ method.token.toList, isBlank c = false := by
  cases method <;> exact forall_mem_ofList rfl

theorem isWord_token (method : Method) : IsWord method.token where
  ne := by cases method <;> decide
  not_blank := method.isBlank_of_mem_token

theorem ofToken?_of_map_asciiUpper {method : Method} {word : String}
    (h : word.toList.map asciiUpper = method.token.toList) : ofToken? word = some method :=
  ofToken?_eq_some_iff.2 (inCapitals_of_map_asciiUpper h method.toNat_lt_of_mem_token)

end Method

namespace WrittenRequest

/-- The value of the last field that tells the length of the body, if there is one. -/
def length? (written : WrittenRequest) : Option String :=
  (written.fields.reverse.find? fun field =>
    lowercase (trim field.name) == "content-length").map fun field => trim field.value

/-- Whether a client words a request as it should be worded for a method: the method in any case of
its letters, a target and a version without blanks, header fields each on a line of its own, and a
body within the limit, the length of which is told in decimal if there is any. -/
@[mk_iff]
structure IsSound (written : WrittenRequest) (method : Method) : Prop where
  word_method : written.word.toList.map asciiUpper = method.token.toList
  target_word : IsWord written.target
  version_word : IsWord written.version
  fields_plain : ∀ field ∈ written.fields, field.IsPlain
  body_limit : written.body.length ≤ bodyLimit
  length_told : written.length? = some (toString written.body.length) ∨
    (written.length? = none ∧ written.body = [])

instance (written : WrittenRequest) (method : Method) : Decidable (written.IsSound method) :=
  decidable_of_iff _ (isSound_iff written method).symm

def request (written : WrittenRequest) (method : Method) : Request where
  method := method
  target := written.target
  version := written.version
  headers := written.headers
  body := written.body

/-- Whether a request is read as it is worded: its first line makes one of a method, each field
keeps to its line, and the fields announce the length of the body. -/
structure IsReadable (written : WrittenRequest) (method : Method) : Prop where
  word_word : IsWord written.word
  word_method : Method.ofToken? written.word = some method
  target_word : IsWord written.target
  version_word : IsWord written.version
  fields_plain : ∀ field ∈ written.fields, field.IsPlain
  length_announced : written.headers.bodyLength = .ok written.body.length

variable {written : WrittenRequest} {method : Method}

theorem IsReadable.ofText_firstLine (h : written.IsReadable method) :
    RequestLine.ofText written.firstLine = .ok ⟨method, written.target, written.version⟩ := by
  have hwords : words written.firstLine = [written.word, written.target, written.version] :=
    words_of_three h.word_word h.target_word h.version_word
  simp only [RequestLine.ofText, hwords, h.word_method]

theorem IsReadable.line_firstLine (h : written.IsReadable method) (ending : Ending)
    (rest : Bytes) :
    Reading.line ending (Utf8.encode written.firstLine ++ rest) =
      (.ok written.firstLine, rest) := by
  apply Reading.line_encode
  simp [h.word_word.not_mem_lf, h.target_word.not_mem_lf, h.version_word.not_mem_lf]

theorem IsReadable.readRest (h : written.IsReadable method) (ending : Ending) (rest : Bytes) :
    RequestLine.readRest ⟨method, written.target, written.version⟩ ending
      (written.headerSection ++ (written.body ++ rest)) =
      (.ok (written.request method), rest) := by
  have hheaders : Headers.read ending (written.headerSection ++ (written.body ++ rest)) =
      (.ok written.headers, written.body ++ rest) :=
    Headers.readFrom_section h.fields_plain .empty ending _
  have hbody : Reading.exactly ending written.body.length (written.body ++ rest) =
      (.ok written.body, rest) := by
    simp [Reading.exactly]
  simp only [RequestLine.readRest, hheaders, h.length_announced, hbody]
  rfl

/-- A written request is read, and nothing of what follows it. -/
theorem IsReadable.read (h : written.IsReadable method) (ending : Ending) (rest : Bytes) :
    Request.read ending (written.bytes ++ rest) = (.ok (some (written.request method)), rest) := by
  have hshape : written.bytes ++ rest =
      Utf8.encode written.firstLine ++ (written.headerSection ++ (written.body ++ rest)) := by
    simp only [bytes, List.append_assoc]
  have hne : written.bytes ++ rest ≠ [] := by
    simp [bytes, headerSection, Bytes.crlf]
  rw [Request.read, if_neg (fun he => hne he.1), hshape]
  simp only [h.line_firstLine, h.ofText_firstLine, h.readRest]

theorem IsSound.isWord_word (h : written.IsSound method) : IsWord written.word := by
  constructor
  · intro he
    have hnil := h.word_method
    rw [he] at hnil
    cases method <;> exact absurd hnil (by decide)
  · intro c hc
    have hmem : asciiUpper c ∈ method.token.toList :=
      h.word_method ▸ List.mem_map_of_mem hc
    have hupper := method.isBlank_of_mem_token _ hmem
    rw [← Bool.not_eq_true] at hupper ⊢
    exact fun hblank => hupper (isBlank_of_asciiUpper hblank)

theorem get?_headers (written : WrittenRequest) :
    written.headers.get? "Content-Length" = written.length? := by
  rw [headers, Headers.get?_ofFields, ← List.map_reverse, List.find?_map, lowercase_contentLength,
    length?, Option.map_map]
  rfl

theorem IsSound.bodyLength_headers (h : written.IsSound method) :
    written.headers.bodyLength = .ok written.body.length := by
  have hsize : written.body.length ≤ Numeral.sizeLimit :=
    Nat.le_trans h.body_limit (by decide)
  have hlimit : ¬ bodyLimit < written.body.length := Nat.not_lt.2 h.body_limit
  rcases h.length_told with hlength | ⟨hlength, hbody⟩
  · simp only [Headers.bodyLength, get?_headers, hlength, Numeral.read_toString hsize, hlimit,
      if_false]
  · simp only [Headers.bodyLength, get?_headers, hlength, hbody, List.length_nil]

theorem IsSound.isReadable (h : written.IsSound method) : written.IsReadable method where
  word_word := h.isWord_word
  word_method := Method.ofToken?_of_map_asciiUpper h.word_method
  target_word := h.target_word
  version_word := h.version_word
  fields_plain := h.fields_plain
  length_announced := h.bodyLength_headers

end WrittenRequest

namespace Request

/-- Reading on after written requests starts with what follows them. -/
theorem readTimes_add (ending : Ending) {asked : List (Method × WrittenRequest)}
    (h : ∀ ask ∈ asked, ask.2.IsSound ask.1) {n : Nat} {rest rest' : Bytes}
    {results : List (Except ReadError (Option Request))}
    (hrest : readTimes ending n rest = (results, rest')) :
    readTimes ending (asked.length + n) (asked.flatMap (fun ask => ask.2.bytes) ++ rest) =
      (asked.map (fun ask => .ok (some (ask.2.request ask.1))) ++ results, rest') := by
  induction asked with
  | nil => simpa using hrest
  | cons ask asked ih =>
    obtain ⟨hask, hasked⟩ := List.forall_mem_cons.1 h
    have hmore := ih hasked
    have hread := hask.isReadable.read ending (asked.flatMap (fun ask => ask.2.bytes) ++ rest)
    rw [List.length_cons, Nat.add_right_comm, List.flatMap_cons, List.append_assoc]
    exact readTimes_succ hread hmore

/-- Written requests are read back in order, each exactly once, up to where they end; behind the
last one there is no request if the input ends there. -/
theorem readTimes_written (asked : List (Method × WrittenRequest))
    (h : ∀ ask ∈ asked, ask.2.IsSound ask.1) :
    (∀ ending rest,
      readTimes ending asked.length (asked.flatMap (fun ask => ask.2.bytes) ++ rest) =
        (asked.map fun ask => .ok (some (ask.2.request ask.1)), rest)) ∧
      readTimes .finished (asked.length + 1) (asked.flatMap fun ask => ask.2.bytes) =
        (asked.map (fun ask => .ok (some (ask.2.request ask.1))) ++ [.ok none], []) := by
  constructor
  · intro ending rest
    have hall := readTimes_add ending h (rfl : readTimes ending 0 rest = ([], rest))
    rwa [List.append_nil] at hall
  · have hlast : readTimes .finished 1 [] = ([.ok none], []) := rfl
    have hall := readTimes_add .finished h hlast
    rwa [List.append_nil] at hall

/-- A body that looks like a request, told by the second of two lengths, and a request behind it. -/
theorem readTimes_of_request_in_body :
    readTimes .finished 3 (Utf8.encode
      ("pOSt /a POST\r\ncontent-length: 0\r\n Content-Length : 18 \r\n: \r\n\r\n" ++
        "GET /b HTTP/1.1\r\n\nHead * HTTP/1.0\r\n\r\n")) =
      ([.ok (some ⟨.post, "/a", "POST",
          .ofFields [⟨"content-length", "0"⟩, ⟨"Content-Length", "18"⟩, ⟨"", ""⟩],
          Utf8.encode "GET /b HTTP/1.1\r\n\n", none, none⟩),
        .ok (some ⟨.head, "*", "HTTP/1.0", .empty, [], none, none⟩), .ok none], []) := by
  have hasked : ∀ ask ∈ [(Method.post, (⟨"pOSt", "/a", "POST",
        [⟨"content-length", "0"⟩, ⟨" Content-Length ", "18 "⟩, ⟨"", ""⟩],
        Utf8.encode "GET /b HTTP/1.1\r\n\n"⟩ : WrittenRequest)),
      (Method.head, ⟨"Head", "*", "HTTP/1.0", [], []⟩)], ask.2.IsSound ask.1 := by
    decide +kernel
  exact (readTimes_written _ hasked).2

end Request

end Http

end WireBench
