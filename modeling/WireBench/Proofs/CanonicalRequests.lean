import WireBench.Proofs.MessageEnds
import WireBench.Proofs.RequestPipelining

/-!
# Canonical requests

However oddly a request is worded, what is read of it is canonical: words without blanks, header
fields trimmed and each fit for a line of its own, and a body of the length that the fields tell.
Worded again, with its fields in any order, it is read as what it is.
-/

namespace WireBench.Http

open WireBench.Text WireBench.Transport

/-- Whether a field is as reading leaves fields: it keeps to one line, without blanks at the ends of
its name and its value. -/
structure Field.IsCanonical (field : Field) : Prop where
  plain : field.IsPlain
  name_trimmed : IsTrimmed field.name
  value_trimmed : IsTrimmed field.value

/-- Whether a request is as reading leaves requests. -/
structure Request.IsCanonical (request : Request) : Prop where
  target : IsWord request.target
  version : IsWord request.version
  fields : ∀ field ∈ request.headers.elements, field.IsCanonical
  names : (request.headers.elements.map fun field => lowercase field.name).Nodup
  length : (request.headers.get? "Content-Length" = none ∧ request.body.length = 0) ∨
    ∃ value, request.headers.get? "Content-Length" = some value ∧
      Numeral.Spells value request.body.length ∧ request.body.length ≤ bodyLimit

theorem Field.IsCanonical.trimmed_eq {field : Field} (h : field.IsCanonical) :
    field.trimmed = field := by
  rw [trimmed, h.name_trimmed.trim_eq, h.value_trimmed.trim_eq]

/-! ### What is read of a line -/

theorem Reading.lf_not_mem_dropLast {ending : Ending} {bs rest : Bytes} {text : String}
    (h : line ending bs = (.ok text, rest)) : '\n' ∉ text.toList.dropLast := by
  have htext : Utf8.encode text = (Bytes.cutLine bs).1 := by
    simp only [line] at h
    split at h
    · cases h
    · split at h
      next hdecode =>
        cases h
        exact Utf8.encode_of_decode? hdecode
      next => cases h
  intro hlf
  have hbyte := Utf8.mem_dropLast_encode (by decide) hlf
  rw [htext] at hbyte
  exact Bytes.lf_not_mem_dropLast_cutLine bs hbyte

theorem Reading.length_of_exactly {ending : Ending} {n : Nat} {bs body rest : Bytes}
    (h : exactly ending n bs = (.ok body, rest)) : body.length = n := by
  simp only [exactly] at h
  split at h
  next hn =>
    cases h
    exact List.length_take_of_le hn
  next => split at h <;> cases h

theorem Field.isCanonical_of_ofText {text : String} {field : Field}
    (htext : '\n' ∉ text.toList.dropLast) (h : ofText text = .ok field) : field.IsCanonical := by
  simp only [ofText] at h
  split at h
  next name value hcut =>
    obtain rfl := Except.ok.inj h
    obtain ⟨c, hc, hshape, hname⟩ := cutWhere_eq_some hcut
    have hsplit : text.toList.dropLast = name ++ (c :: value).dropLast := by
      rw [hshape, List.dropLast_append_of_ne_nil (by simp)]
    rw [hsplit, List.mem_append, not_or] at htext
    obtain ⟨hnameEnd, hvalueEnd⟩ := htext
    refine ⟨⟨?_, ?_, ?_⟩, isTrimmed_trim _, isTrimmed_trim _⟩
    · intro hm
      have hmem := (trim_isInfix _).subset hm
      rw [String.toList_ofList] at hmem
      simpa using hname _ hmem
    · intro hm
      have hmem := (trim_isInfix _).subset hm
      rw [String.toList_ofList] at hmem
      exact hnameEnd hmem
    · intro hm
      have hmem := mem_dropLast_of_mem_trim hm (by decide)
      rw [String.toList_ofList] at hmem
      refine hvalueEnd ?_
      cases value with
      | nil => simp at hmem
      | cons d value => exact List.mem_cons_of_mem c hmem
  next => cases h

theorem RequestLine.isWord_of_ofText {text : String} {first : RequestLine}
    (h : ofText text = .ok first) : IsWord first.target ∧ IsWord first.version := by
  simp only [ofText] at h
  split at h
  next word target version more hwords =>
    have htarget : target ∈ words text := by simp [hwords]
    have hversion : version ∈ words text := by simp [hwords]
    split at h
    next =>
      obtain rfl := Except.ok.inj h
      exact ⟨isWord_of_mem_words htarget, isWord_of_mem_words hversion⟩
    next => cases h
  next => cases h

/-! ### What is read of a request -/

/-- A header line that is read adds a canonical field, so a section of them leaves only such. -/
theorem Headers.isCanonical_of_readFrom {ending : Ending} {headers result : Headers}
    {bs rest : Bytes} (hall : ∀ field ∈ headers.elements, field.IsCanonical)
    (h : readFrom ending headers bs = (.ok result, rest)) :
    ∀ field ∈ result.elements, field.IsCanonical := by
  fun_induction Headers.readFrom ending headers bs with
  | case1 => cases h
  | case2 =>
    cases h
    exact hall
  | case3 => cases h
  | case4 headers bs line behind hline _ field hfield ih =>
    refine ih (fun other hother => ?_) h
    rcases KeyedList.mem_insert_iff.1 hother with rfl | ⟨hother, -⟩
    · exact Field.isCanonical_of_ofText (Reading.lf_not_mem_dropLast hline) hfield
    · exact hall other hother

namespace Request

variable {ending : Ending} {bs rest : Bytes} {request : Request}

/-- What was read for a request to be found: a line that makes one, the fields, and a body of the
length that they announce. -/
theorem exists_of_read (h : read ending bs = (.ok (some request), rest)) :
    ∃ line behind first headers after, Reading.line ending bs = (.ok line, behind) ∧
      RequestLine.ofText line = .ok first ∧ Headers.read ending behind = (.ok headers, after) ∧
      headers.bodyLength = .ok request.body.length ∧
      request = { method := first.method, target := first.target, version := first.version,
                  headers := headers, body := request.body } := by
  rw [read] at h
  split at h
  next => cases h
  next =>
    split at h
    next => cases h
    next line behind hline =>
      split at h
      next => cases h
      next first hfirst =>
        split at h
        next => cases h
        next found _ hrest =>
          obtain ⟨hfound, -⟩ := Prod.mk.inj h
          obtain rfl := Option.some.inj (Except.ok.inj hfound)
          rw [RequestLine.readRest] at hrest
          split at hrest
          next => cases hrest
          next headers after hheaders =>
            split at hrest
            next => cases hrest
            next n hlength =>
              split at hrest
              next => cases hrest
              next body _ hbody =>
                obtain ⟨hrequest, -⟩ := Prod.mk.inj hrest
                obtain rfl := Except.ok.inj hrequest
                refine ⟨line, behind, first, headers, after, hline, hfirst, hheaders, ?_, rfl⟩
                rw [hlength, Reading.length_of_exactly hbody]

theorem isCanonical_of_read (h : read ending bs = (.ok (some request), rest)) :
    request.IsCanonical := by
  obtain ⟨line, behind, first, headers, after, -, hfirst, hheaders, hlength, hrequest⟩ :=
    exists_of_read h
  obtain ⟨htarget, hversion⟩ := RequestLine.isWord_of_ofText hfirst
  rw [hrequest]
  exact {
    target := htarget
    version := hversion
    fields := Headers.isCanonical_of_readFrom (List.forall_mem_nil _) hheaders
    names := headers.nodup
    length := Headers.bodyLength_eq_ok_iff.1 hlength }

end Request

/-! ### Canonical requests read again -/

def Field.ofPair (pair : String × String) : Field :=
  ⟨pair.1, pair.2⟩

namespace Headers

variable {headers : Headers}

theorem map_ofPair_asSent (headers : Headers) :
    headers.asSent.map Field.ofPair = headers.elements := by
  rw [asSent, List.map_map]
  exact List.map_id _

theorem elements_ofFields_of_perm {fields : List Field} (h : fields.Perm headers.elements) :
    (ofFields fields).elements = fields :=
  elements_ofFields ((h.map Field.key).nodup_iff.2 headers.nodup)

theorem get?_ofFields_of_perm {fields : List Field} (h : fields.Perm headers.elements)
    (name : String) : (ofFields fields).get? name = headers.get? name := by
  have helements : (ofFields fields).elements.Perm headers.elements := by
    rwa [elements_ofFields_of_perm h]
  rw [get?, get?, KeyedList.find?_congr helements]

theorem asSent_ofFields_map_ofPair {order : List (String × String)}
    (h : order.Perm headers.asSent) : (ofFields (order.map Field.ofPair)).asSent = order := by
  have hfields : (order.map Field.ofPair).Perm headers.elements :=
    headers.map_ofPair_asSent ▸ h.map Field.ofPair
  rw [asSent, elements_ofFields_of_perm hfields, List.map_map]
  exact List.map_id _

end Headers

namespace Request

variable {request : Request} {fields : List Field}

theorem IsCanonical.headers_written (h : request.IsCanonical)
    (hfields : fields.Perm request.headers.elements) :
    (request.written fields).headers = .ofFields fields := by
  have htrimmed : fields.map Field.trimmed = fields :=
    Field.map_trimmed fun field hfield => (h.fields field (hfields.mem_iff.1 hfield)).trimmed_eq
  exact congrArg Headers.ofFields htrimmed

/-- A canonical request is read as it is worded, whatever the order of its fields. -/
theorem IsCanonical.isReadable (h : request.IsCanonical)
    (hfields : fields.Perm request.headers.elements) :
    (request.written fields).IsReadable request.method where
  word_word := request.method.isWord_token
  word_method := Method.ofToken?_token request.method
  target_word := h.target
  version_word := h.version
  fields_plain := fun field hfield => (h.fields field (hfields.mem_iff.1 hfield)).plain
  length_announced := by
    rw [h.headers_written hfields, Headers.bodyLength_eq_ok_iff,
      Headers.get?_ofFields_of_perm hfields]
    exact h.length

/-- What is read of a request is canonical, and worded again, with its fields as they were sent in
any order, it is read as what it was, to its end. -/
theorem read_written_of_read {ending : Ending} {bs rest : Bytes}
    (h : read ending bs = (.ok (some request), rest)) :
    request.IsCanonical ∧
      ∀ order, order.Perm request.headers.asSent → ∀ ending' rest', ∃ headers,
        read ending' ((request.written (order.map Field.ofPair)).bytes ++ rest') =
            (.ok (some { request with headers := headers }), rest') ∧
          headers.asSent = order ∧ ∀ name, headers.get? name = request.headers.get? name := by
  have hcanonical := isCanonical_of_read h
  refine ⟨hcanonical, fun order horder ending' rest' => ?_⟩
  have hfields : (order.map Field.ofPair).Perm request.headers.elements :=
    request.headers.map_ofPair_asSent ▸ horder.map Field.ofPair
  have hagain := (hcanonical.isReadable hfields).read ending' rest'
  refine ⟨.ofFields (order.map Field.ofPair), ?_, Headers.asSent_ofFields_map_ofPair horder,
    Headers.get?_ofFields_of_perm hfields⟩
  obtain ⟨_, _, first, headers, _, -, -, -, -, hrequest⟩ := exists_of_read h
  rw [hagain, WrittenRequest.request, hcanonical.headers_written hfields, hrequest]
  rfl

/-- A request under other letters, with blanks of many kinds, more words, two lengths and bare line
feeds, and how it is worded again. -/
theorem read_written_of_odd_wording :
    ∃ headers,
      read .finished (Utf8.encode ("\u2003pOsT /a?b\u00a0HTTP/1.1 and more\ncontent-length: 9\n" ++
          " X-Y\u2003:v: w \u00a0\r\nContent-LENGTH :+5\n\nhello!")) =
        (.ok (some ⟨.post, "/a?b", "HTTP/1.1", headers, Utf8.encode "hello", none, none⟩),
          Utf8.encode "!") ∧
      ∃ headers',
        read .finished (Utf8.encode ("POST /a?b HTTP/1.1\r\nX-Y: v: w\r\n" ++
            "Content-LENGTH: +5\r\n\r\nhello")) =
          (.ok (some ⟨.post, "/a?b", "HTTP/1.1", headers', Utf8.encode "hello", none, none⟩), []) ∧
        headers'.asSent = [("X-Y", "v: w"), ("Content-LENGTH", "+5")] := by
  generalize hbs : Utf8.encode ("\u2003pOsT /a?b\u00a0HTTP/1.1 and more\ncontent-length: 9\n" ++
    " X-Y\u2003:v: w \u00a0\r\nContent-LENGTH :+5\n\nhello!") = bs
  have hne : bs ≠ [] := by
    rw [← hbs]
    decide +kernel
  have hholds : (Layout.of bs).Holds ⟨.post, "/a?b", "HTTP/1.1"⟩
      [⟨"content-length", "9"⟩, ⟨"X-Y", "v: w"⟩, ⟨"Content-LENGTH", "+5"⟩] := by
    rw [Layout.holds_iff, ← hbs]
    decide +kernel
  have hlength : (Headers.ofFields [⟨"content-length", "9"⟩, ⟨"X-Y", "v: w"⟩,
      ⟨"Content-LENGTH", "+5"⟩]).bodyLength = .ok 5 := by
    decide +kernel
  have hbody : Reading.exactly .finished 5 (Layout.of bs).rest =
      (.ok (Utf8.encode "hello"), Utf8.encode "!") := by
    rw [← hbs]
    decide +kernel
  have hread := Layout.read_of_bodyLength hne (Layout.holds_iff.1 hholds).1 hholds.headers?_eq
    (.inr ⟨rfl, rfl⟩) hlength
  rw [Layout.head_append_rest, hbody] at hread
  have horder : [("X-Y", "v: w"), ("Content-LENGTH", "+5")].Perm
      (Headers.ofFields [⟨"content-length", "9"⟩, ⟨"X-Y", "v: w"⟩,
        ⟨"Content-LENGTH", "+5"⟩]).asSent := by
    decide +kernel
  obtain ⟨headers', hagain, hsent, -⟩ := (read_written_of_read hread).2 _ horder .finished []
  exact ⟨_, hread, headers', hagain, hsent⟩

end Request

end WireBench.Http
