import WireBench.Multipart.Decode
import WireBench.Proofs.Framing
import WireBench.Proofs.Trimming

/-!
# Form data read back

A message is read back as the parts that were framed in it. The end of a content is found where it
is because a carriage return begins the line end before a marker and does not come again in it, so
that no occurrence lies half in the content.
-/

namespace WireBench.Multipart

open WireBench.Http WireBench.Text

variable {part : Part}

/-- What the first header line of a part says. -/
def disposition (part : Part) : String :=
  "form-data; name=\"file\"; filename=\"" ++ part.name ++ "\""

theorem toList_disposition (part : Part) :
    (disposition part).toList =
      "form-data; name=\"file\"; filename=\"".toList ++ part.name.toList ++ ['"'] := by
  have hquote : "\"".toList = ['"'] := String.toList_ofList
  delta disposition
  rw [String.toList_append, String.toList_append, hquote]

def dispositionLine (part : Part) : String :=
  "Content-Disposition: " ++ disposition part

def typeLine (part : Part) : String :=
  "Content-Type: " ++ part.mediaType

def headerBlock (part : Part) : String :=
  dispositionLine part ++ "\r\n" ++ typeLine part

theorem partHeader_eq (part : Part) : partHeader part = headerBlock part ++ "\r\n" := by
  apply String.toList_inj.1
  delta partHeader headerBlock dispositionLine typeLine disposition fieldName
  simp only [String.toList_append, List.append_assoc]
  repeat rw [String.toList_ofList]
  rfl

theorem cr_not_mem_dispositionLine (h : '\r' ∉ part.name.toList) :
    '\r' ∉ (dispositionLine part).toList := by
  delta dispositionLine
  simp [toList_disposition, h]

theorem cr_not_mem_typeLine (h : '\r' ∉ part.mediaType.toList) :
    '\r' ∉ (typeLine part).toList := by
  simp [typeLine, h]

namespace ReceivedPart

private theorem dropWhile_quote_eq_self {cs : List Char} (hne : cs ≠ []) (h : '"' ∉ cs)
    (more : List Char) : (cs ++ more).dropWhile (· == '"') = cs ++ more := by
  cases cs with
  | nil => exact absurd rfl hne
  | cons c cs =>
    have hc : (c == '"') = false := beq_false_of_ne fun e => h (by simp [e])
    simp [hc]

theorem unquote_quoted {s : String} (h : '"' ∉ s.toList) : unquote ("\"" ++ s ++ "\"") = s := by
  have hshape : ("\"" ++ s ++ "\"").toList = '"' :: (s.toList ++ ['"']) := by simp
  by_cases hs : s.toList = []
  · simp [unquote, String.toList_eq_nil_iff.1 hs]
  · have hrs : s.toList.reverse ≠ [] := fun he => hs (List.reverse_eq_nil_iff.1 he)
    have hr : '"' ∉ s.toList.reverse := fun hm => h (List.mem_reverse.1 hm)
    have hfront := dropWhile_quote_eq_self hs h ['"']
    have hback := dropWhile_quote_eq_self hrs hr []
    rw [List.append_nil] at hback
    simp [unquote, hshape, hfront, hback]

private theorem splitWhere_disposition (hsemi : ';' ∉ part.name.toList) :
    splitWhere (· == ';') (disposition part).toList =
      ["form-data".toList, " name=\"file\"".toList,
        (" filename=" ++ ("\"" ++ part.name ++ "\"")).toList] := by
  have hshape : (disposition part).toList =
      "form-data".toList ++ ';' :: (" name=\"file\"".toList ++ ';' ::
        (" filename=" ++ ("\"" ++ part.name ++ "\"")).toList) := by
    rw [toList_disposition]
    simp only [String.toList_append, List.append_assoc]
    repeat rw [String.toList_ofList]
    rfl
  have hlast : ∀ c ∈ (" filename=" ++ ("\"" ++ part.name ++ "\"")).toList,
      (c == ';') = false := by
    intro c hc
    apply beq_false_of_ne
    rintro rfl
    simp [hsemi] at hc
  rw [hshape, splitWhere_append (forall_mem_ofList rfl) (by decide),
    splitWhere_append (forall_mem_ofList rfl) (by decide),
    splitWhere_eq_singleton hlast]

private theorem trim_fileName (part : Part) :
    trim (" filename=" ++ ("\"" ++ part.name ++ "\"")) =
      "filename=" ++ ("\"" ++ part.name ++ "\"") := by
  have hblank : " filename=" ++ ("\"" ++ part.name ++ "\"") =
      " " ++ ("filename=" ++ ("\"" ++ part.name ++ "\"")) := by
    apply String.toList_inj.1
    simp
  have hends : ("filename=" ++ ("\"" ++ part.name ++ "\"")).toList =
      'f' :: ("ilename=\"".toList ++ part.name.toList ++ ['"']) := by simp
  rw [hblank, trim_append_left (forall_mem_ofList rfl)]
  exact trim_eq_self hends (by decide) (by decide)

private theorem trim_quoted (s : String) : trim ("\"" ++ s ++ "\"") = "\"" ++ s ++ "\"" := by
  have hends : ("\"" ++ s ++ "\"").toList = '"' :: (s.toList ++ ['"']) := by simp
  exact trim_eq_self hends (by decide) (by decide)

private theorem cutWhere_form : cutWhere (· == '=') (trim "form-data").toList = none := by
  rw [trim, String.toList_ofList, String.toList_ofList]
  rfl

private theorem cutWhere_name :
    cutWhere (· == '=') (trim " name=\"file\"").toList =
      some ("name".toList, ("\"" ++ "file" ++ "\"").toList) := by
  rw [trim, String.toList_append, String.toList_append]
  repeat rw [String.toList_ofList]
  rfl

private theorem trim_name : trim "name" = "name" :=
  trim_of_no_blank (forall_mem_ofList rfl)

private theorem param?_name (hsemi : ';' ∉ part.name.toList) :
    param? (disposition part) "name" = some "file" := by
  have hquote : '"' ∉ "file".toList := by decide
  rw [param?, splitWhere_disposition hsemi]
  simp only [List.map_cons, List.map_nil, List.findSome?_cons, String.ofList_toList, cutWhere_form,
    cutWhere_name, trim_name, if_true, trim_quoted, unquote_quoted hquote]

private theorem param?_fileName (hsemi : ';' ∉ part.name.toList) (hquote : '"' ∉ part.name.toList) :
    param? (disposition part) "filename" = some part.name := by
  have hcut : cutWhere (· == '=') ("filename=" ++ ("\"" ++ part.name ++ "\"")).toList =
      some ("filename".toList, ("\"" ++ part.name ++ "\"").toList) := by
    have hshape : ("filename=" ++ ("\"" ++ part.name ++ "\"")).toList =
        "filename".toList ++ '=' :: ("\"" ++ part.name ++ "\"").toList := by simp
    rw [hshape, cutWhere_append (forall_mem_ofList rfl) (by decide)]
  have hother : "name" ≠ "filename" := by decide
  have hsame : trim "filename" = "filename" := trim_of_no_blank (forall_mem_ofList rfl)
  rw [param?, splitWhere_disposition hsemi]
  simp only [List.map_cons, List.map_nil, List.findSome?_cons, String.ofList_toList, trim_fileName,
    cutWhere_form, cutWhere_name, hcut, trim_name, hother, hsame, if_false, if_true, trim_quoted,
    unquote_quoted hquote]

def partFields (part : Part) : Headers :=
  (Headers.empty.set "Content-Disposition" (disposition part)).set "Content-Type" part.mediaType

private theorem readHeaders?_cons {line name value : String}
    (hline : line.toList = name.toList ++ ':' :: (" " ++ value).toList)
    (hcolon : ∀ c ∈ name.toList, (c == ':') = false) (hname : trim name = name)
    (hvalue : trim value = value) (headers : Headers) (lines : List (List Char)) :
    readHeaders? headers (line.toList :: lines) = readHeaders? (headers.set name value) lines := by
  have hcut : cutWhere (· == ':') line.toList = some (name.toList, (" " ++ value).toList) := by
    rw [hline, cutWhere_append hcolon (by decide)]
  have hblank : ∀ c ∈ " ".toList, isBlank c = true := forall_mem_ofList rfl
  simp only [readHeaders?, hcut, String.ofList_toList, hname, trim_append_left hblank, hvalue]

private theorem readHeaders?_lines (htrim : trim part.mediaType = part.mediaType) :
    readHeaders? .empty [(dispositionLine part).toList, (typeLine part).toList] =
      some (partFields part) := by
  have hfirst : (dispositionLine part).toList =
      "Content-Disposition".toList ++ ':' :: (" " ++ disposition part).toList := by
    delta dispositionLine
    simp
  have hsecond : (typeLine part).toList =
      "Content-Type".toList ++ ':' :: (" " ++ part.mediaType).toList := by
    simp [typeLine]
  have hends : (disposition part).toList =
      'f' :: ("orm-data; name=\"file\"; filename=\"".toList ++ part.name.toList ++ ['"']) := by
    rw [toList_disposition]
    repeat rw [String.toList_ofList]
    rfl
  have hvalue : trim (disposition part) = disposition part :=
    trim_eq_self hends (by decide) (by decide)
  rw [readHeaders?_cons hfirst (forall_mem_ofList rfl) (trim_of_no_blank (forall_mem_ofList rfl))
      hvalue,
    readHeaders?_cons hsecond (forall_mem_ofList rfl) (trim_of_no_blank (forall_mem_ofList rfl))
      htrim]
  rfl

private theorem piecesAt_headerBlock (hname : '\r' ∉ part.name.toList)
    (htype : '\r' ∉ part.mediaType.toList) :
    piecesAt ['\r', '\n'] (headerBlock part).toList =
      [(dispositionLine part).toList, (typeLine part).toList] := by
  have hfirst := @not_infix_of_not_mem _ _ _ ['\n'] (cr_not_mem_dispositionLine hname)
  have hsecond := @not_infix_of_not_mem _ _ _ ['\n'] (cr_not_mem_typeLine htype)
  have hshape : (headerBlock part).toList =
      (dispositionLine part).toList ++ (['\r', '\n'] ++ (typeLine part).toList) := by
    simp [headerBlock]
  have hcut : cutAt ['\r', '\n'] (headerBlock part).toList =
      some ((dispositionLine part).toList, (typeLine part).toList) := by
    rw [hshape]
    exact cutAt_append_of_head (by decide) hfirst
  rw [piecesAt_of_cutAt (by simp) hcut, piecesAt_eq_singleton (by simp) hsecond]

/-- The header block of a part and its content are read as that part. -/
theorem ofBlock?_header (hquote : '"' ∉ part.name.toList) (hsemi : ';' ∉ part.name.toList)
    (hcr : '\r' ∉ part.name.toList) (htype : '\r' ∉ part.mediaType.toList)
    (htrim : trim part.mediaType = part.mediaType) (content : Bytes) :
    ofBlock? (Utf8.encode (headerBlock part)) content =
      some ⟨"file", some part.name, some part.mediaType, content⟩ := by
  have hkeys : lowercase "Content-Type" ≠ lowercase "Content-Disposition" := by
    rw [lowercase_contentType, lowercase_contentDisposition]
    decide
  have hdisposition : (partFields part).get? "Content-Disposition" = some (disposition part) := by
    simp [partFields, Headers.get?_set, hkeys]
  have hmedia : (partFields part).get? "Content-Type" = some part.mediaType := by
    simp [partFields, Headers.get?_set]
  have hform : "form-data".toList.isPrefixOf (disposition part).toList = true := by
    simp [toList_disposition]
  simp only [ofBlock?, Utf8.decode?_encode, piecesAt_headerBlock hcr htype,
    readHeaders?_lines htrim, hdisposition, hform, if_true, param?_name hsemi,
    param?_fileName hsemi hquote, hmedia]

end ReceivedPart

/-- The header block ends where its second line ends. -/
private theorem cutAt_blockEnd (hname : '\r' ∉ part.name.toList)
    (htype : '\r' ∉ part.mediaType.toList) (rest : Bytes) :
    cutAt blockEnd (Utf8.encode (partHeader part) ++ Bytes.crlf ++ rest) =
      some (Utf8.encode (headerBlock part), rest) := by
  have hmem : ∀ s : String, '\r' ∉ s.toList → Bytes.cr ∉ Utf8.encode s := fun s hs h =>
    hs ((Utf8.mem_encode_iff (by decide : '\r'.toNat < 128) s).1 h)
  have hfirst : Bytes.cr ∉ Utf8.encode (dispositionLine part) :=
    hmem _ (cr_not_mem_dispositionLine hname)
  have hsecond : Bytes.cr ∉ Bytes.lf :: Utf8.encode (typeLine part) :=
    List.not_mem_cons_of_ne_of_not_mem (by decide) (hmem _ (cr_not_mem_typeLine htype))
  have hskip : ∀ xs ys : Bytes, Bytes.cr ∉ xs →
      cutAt blockEnd (xs ++ ys) = (cutAt blockEnd ys).map fun cut => (xs ++ cut.1, cut.2) :=
    fun xs ys h => cutAt_append_of_not_mem h ys
  have hblock : Utf8.encode (headerBlock part) = Utf8.encode (dispositionLine part) ++
      (Bytes.cr :: (Bytes.lf :: Utf8.encode (typeLine part))) := by
    rw [headerBlock, Utf8.encode_append, Utf8.encode_append, Utf8.encode_crlf, List.append_assoc]
    rfl
  have hshape : Utf8.encode (partHeader part) ++ Bytes.crlf ++ rest =
      Utf8.encode (dispositionLine part) ++
        (Bytes.cr :: ((Bytes.lf :: Utf8.encode (typeLine part)) ++ (blockEnd ++ rest))) := by
    rw [partHeader_eq, Utf8.encode_append, Utf8.encode_crlf, hblock]
    simp [blockEnd]
  have hnot : ¬ blockEnd <+:
      Bytes.cr :: ((Bytes.lf :: Utf8.encode (typeLine part)) ++ (blockEnd ++ rest)) := by
    have hlead : Utf8.encode "Content-Type: " = 67 :: Utf8.encode "ontent-Type: " := by
      rw [Utf8.encode_ofList, Utf8.encode_ofList]
      rfl
    rw [typeLine, Utf8.encode_append, hlead]
    simp [blockEnd, Bytes.crlf, Bytes.cr, Bytes.lf]
  rw [hshape, hskip _ _ hfirst, cutAt_cons, if_neg (by simpa using hnot), hskip _ _ hsecond,
    cutAt_front, hblock]
  simp only [Option.map_some, List.append_nil]

theorem receiveFrom_part {marker bs block rest content rest' : Bytes}
    (hblock : cutAt blockEnd bs = some (block, rest))
    (hcontent : cutAt (Bytes.crlf ++ marker) rest = some (content, rest')) :
    receiveFrom marker (Bytes.crlf ++ bs) =
      match ReceivedPart.ofBlock? block content, receiveFrom marker rest' with
      | some part, some parts => some (part :: parts)
      | _, _ => none := by
  have hopen : dashes.isPrefixOf (Bytes.crlf ++ bs) = false := rfl
  have hline : Bytes.crlf.isPrefixOf (Bytes.crlf ++ bs) = true := by simp
  have hdrop : (Bytes.crlf ++ bs).drop 2 = bs := rfl
  rw [receiveFrom, hopen, hline, hdrop]
  simp only [Bool.false_eq_true, if_false, if_true]
  split
  · next h => simp [hblock] at h
  · next h =>
    obtain ⟨rfl, rfl⟩ : block = _ ∧ rest = _ := by simpa [hblock] using h
    split
    · next h' => simp [hcontent] at h'
    · next h' =>
      obtain ⟨rfl, rfl⟩ : content = _ ∧ rest' = _ := by simpa [hcontent] using h'
      rfl

theorem receiveFrom_closing (marker : Bytes) :
    receiveFrom marker (dashes ++ Bytes.crlf) = some [] := by
  rw [receiveFrom]
  rfl

def ReceivedPart.ofPart (part : Part) : ReceivedPart :=
  ⟨"file", some part.name, some part.mediaType, part.content⟩

private theorem cr_not_mem_lf_marker {token : String} (h : Bytes.cr ∉ Utf8.encode token) :
    Bytes.cr ∉ Bytes.lf :: Boundary.marker ⟨token⟩ := by
  have hdashes : Bytes.cr ∉ Utf8.encode "--" := by decide
  intro hm
  rcases List.mem_cons.1 hm with hm | hm
  · exact absurd hm (by decide)
  · rw [Boundary.marker, Boundary.delimiter, Utf8.encode_append] at hm
    rcases List.mem_append.1 hm with hm | hm
    · exact hdashes hm
    · exact h hm

/-- A content ends where the line end before the next marker begins. -/
theorem cutAt_content {token : String} (htoken : Bytes.cr ∉ Utf8.encode token) {content : Bytes}
    (hcontent : ¬ Bytes.crlf ++ Boundary.marker ⟨token⟩ <:+: content) (rest : Bytes) :
    cutAt (Bytes.crlf ++ Boundary.marker ⟨token⟩)
      (content ++ (Bytes.crlf ++ Boundary.marker ⟨token⟩ ++ rest)) = some (content, rest) :=
  cutAt_append_of_head (cr_not_mem_lf_marker htoken) hcontent

/-- What follows the first marker of a message is read as its parts. -/
theorem receiveFrom_behindMarker {token : String} (htoken : Bytes.cr ∉ Utf8.encode token)
    {parts : List Part}
    (hnames : ∀ part ∈ parts,
      '"' ∉ part.name.toList ∧ ';' ∉ part.name.toList ∧ '\r' ∉ part.name.toList)
    (htypes : ∀ part ∈ parts, '\r' ∉ part.mediaType.toList ∧ trim part.mediaType = part.mediaType)
    (hcontents : ∀ part ∈ parts, ¬ Bytes.crlf ++ Boundary.marker ⟨token⟩ <:+: part.content) :
    receiveFrom (Boundary.marker ⟨token⟩) (behindMarker ⟨token⟩ parts) =
      some (parts.map ReceivedPart.ofPart) := by
  induction parts with
  | nil => exact receiveFrom_closing _
  | cons part parts ih =>
    obtain ⟨⟨hquote, hsemi, hcr⟩, hnames⟩ := List.forall_mem_cons.1 hnames
    obtain ⟨⟨htype, htrim⟩, htypes⟩ := List.forall_mem_cons.1 htypes
    obtain ⟨hcontent, hcontents⟩ := List.forall_mem_cons.1 hcontents
    have hrest := ih hnames htypes hcontents
    have hshape : behindMarker ⟨token⟩ (part :: parts) =
        Bytes.crlf ++ (Utf8.encode (partHeader part) ++ Bytes.crlf ++ (part.content ++
          (Bytes.crlf ++ Boundary.marker ⟨token⟩ ++ behindMarker ⟨token⟩ parts))) := by
      simp [behindMarker, frameBody, Bytes.crlf]
    rw [hshape, receiveFrom_part (cutAt_blockEnd hcr htype _) (cutAt_content htoken hcontent _),
      ReceivedPart.ofBlock?_header hquote hsemi hcr htype htrim, hrest]
    rfl

/-- A message is read back as the parts that were framed in it, whatever bytes these hold. -/
theorem receive?_bytes (token : String) (parts : List Part)
    (htoken : Bytes.cr ∉ Utf8.encode token)
    (hnames : ∀ part ∈ parts,
      '"' ∉ part.name.toList ∧ ';' ∉ part.name.toList ∧ '\r' ∉ part.name.toList)
    (htypes : ∀ part ∈ parts, '\r' ∉ part.mediaType.toList ∧ trim part.mediaType = part.mediaType)
    (hcontents : ∀ part ∈ parts, ¬ Bytes.crlf ++ Boundary.marker ⟨token⟩ <:+: part.content) :
    receive? token (FormData.bytes ⟨⟨token⟩, parts⟩) =
      some (parts.map fun part =>
        ⟨"file", some part.name, some part.mediaType, part.content⟩) := by
  have hcut : cutAt (Boundary.marker ⟨token⟩) (FormData.bytes ⟨⟨token⟩, parts⟩) =
      some ([], behindMarker ⟨token⟩ parts) := by
    rw [bytes_eq]
    exact cutAt_front _ _
  rw [receive?, hcut]
  exact receiveFrom_behindMarker htoken hnames htypes hcontents

/-- Contents that end in a carriage return, a line end and most of a delimiter, and an empty one. -/
theorem receive?_of_tricky_contents :
    receive? "b\n--b" (FormData.bytes ⟨⟨"b\n--b"⟩,
      [⟨"a\n=.txt", Utf8.encode "\r\n\r\n--b\r", "text/plain"⟩,
        ⟨"", Utf8.encode "--b\n--b--\r\n", "application/octet-stream"⟩,
        ⟨" x.png", [], "image/png"⟩]⟩) =
      some [⟨"file", some "a\n=.txt", some "text/plain", Utf8.encode "\r\n\r\n--b\r"⟩,
        ⟨"file", some "", some "application/octet-stream", Utf8.encode "--b\n--b--\r\n"⟩,
        ⟨"file", some " x.png", some "image/png", []⟩] := by
  apply receive?_bytes
  · decide
  · decide
  · decide +kernel
  · decide +kernel

end WireBench.Multipart
