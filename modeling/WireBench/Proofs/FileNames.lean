import WireBench.Proofs.BaseNames
import WireBench.Proofs.FormDataReading
import WireBench.Proofs.LossyText
import WireBench.Proofs.MarkerPlaces

/-!
# File names in header lines

A file name stands in the header block of its part as it is, between quotes. So the block has its
two lines and no more exactly if no line end is in the name, and whoever reads up to the first quote
that no backslash escapes finds the whole name exactly if no such quote is in it and no backslash at
its end escapes the closing one.
-/

namespace WireBench.Multipart

open WireBench.Text

def backslash : UInt8 := 92

/-! ### Between quotes -/

/-- What stands up to the first quote that no backslash escapes, and what follows that quote. -/
def readQuoted? : Bytes → Option (Bytes × Bytes)
  | [] => none
  | b :: bs =>
    if b = quote then some ([], bs)
    else if b = backslash then
      match bs with
      | [] => none
      | b' :: bs' => (readQuoted? bs').map fun read => (backslash :: b' :: read.1, read.2)
    else (readQuoted? bs).map fun read => (b :: read.1, read.2)

/-- Whether bytes can stand between quotes: every quote in them is escaped by a backslash, and every
backslash escapes a byte of theirs or is escaped itself. -/
inductive IsQuotable : Bytes → Prop where
  | nil : IsQuotable []
  | plain {b : UInt8} {bs : Bytes} (hquote : b ≠ quote) (hbackslash : b ≠ backslash)
      (h : IsQuotable bs) : IsQuotable (b :: bs)
  | escaped {b : UInt8} {bs : Bytes} (h : IsQuotable bs) : IsQuotable (backslash :: b :: bs)

variable {b : UInt8} {bs cs run value rest : Bytes}

theorem backslash_ne_quote : backslash ≠ quote := by decide

theorem not_isQuotable_quote (bs : Bytes) : ¬ IsQuotable (quote :: bs) := by
  rintro (_ | ⟨hquote, -, -⟩)
  exact hquote rfl

theorem not_isQuotable_backslash : ¬ IsQuotable [backslash] := by
  rintro (_ | ⟨-, hbackslash, -⟩)
  exact hbackslash rfl

theorem isQuotable_cons_iff (hquote : b ≠ quote) (hbackslash : b ≠ backslash) :
    IsQuotable (b :: bs) ↔ IsQuotable bs := by
  refine ⟨fun h => ?_, .plain hquote hbackslash⟩
  cases h with
  | plain _ _ h => exact h
  | escaped => exact absurd rfl hbackslash

theorem isQuotable_escaped_iff : IsQuotable (backslash :: b :: bs) ↔ IsQuotable bs := by
  refine ⟨fun h => ?_, .escaped⟩
  cases h with
  | plain _ hbackslash _ => exact absurd rfl hbackslash
  | escaped h => exact h

theorem isQuotable_append_of_above (habove : ∀ b ∈ run, 128 ≤ b.toNat) :
    IsQuotable (run ++ bs) ↔ IsQuotable bs := by
  induction run with
  | nil => rfl
  | cons b run ih =>
    obtain ⟨hb, hrun⟩ := List.forall_mem_cons.1 habove
    have hne : ∀ {a : UInt8}, a.toNat < 128 → b ≠ a := by
      rintro _ ha rfl
      omega
    rw [List.cons_append, isQuotable_cons_iff (hne (by decide)) (hne (by decide)), ih hrun]

theorem readQuoted?_quote (rest : Bytes) : readQuoted? (quote :: rest) = some ([], rest) := by
  rw [readQuoted?.eq_def]
  exact if_pos rfl

theorem readQuoted?_plain (hquote : b ≠ quote) (hbackslash : b ≠ backslash) (bs : Bytes) :
    readQuoted? (b :: bs) = (readQuoted? bs).map fun read => (b :: read.1, read.2) := by
  rw [readQuoted?.eq_def]
  simp only [if_neg hquote, if_neg hbackslash]

theorem readQuoted?_escaped (b : UInt8) (bs : Bytes) :
    readQuoted? (backslash :: b :: bs) =
      (readQuoted? bs).map fun read => (backslash :: b :: read.1, read.2) := by
  rw [readQuoted?.eq_def]
  simp only [if_neg backslash_ne_quote, if_true]

theorem IsQuotable.readQuoted?_append (h : IsQuotable value) (rest : Bytes) :
    readQuoted? (value ++ quote :: rest) = some (value, rest) := by
  induction h with
  | nil => exact readQuoted?_quote rest
  | plain hquote hbackslash h ih =>
    rw [List.cons_append, readQuoted?_plain hquote hbackslash, ih, Option.map_some]
  | escaped h ih =>
    rw [List.cons_append, List.cons_append, readQuoted?_escaped, ih, Option.map_some]

theorem of_readQuoted? (h : readQuoted? bs = some (value, rest)) :
    IsQuotable value ∧ bs = value ++ quote :: rest := by
  fun_induction readQuoted? bs generalizing value rest with
  | case1 => cases h
  | case2 =>
    cases h
    exact ⟨.nil, rfl⟩
  | case3 => cases h
  | case4 hne b' bs' ih =>
    obtain ⟨⟨value', rest'⟩, hread, heq⟩ := Option.map_eq_some_iff.1 h
    cases heq
    obtain ⟨hvalue, rfl⟩ := ih hread
    exact ⟨.escaped hvalue, rfl⟩
  | case5 b bs hquote hbackslash ih =>
    obtain ⟨⟨value', rest'⟩, hread, heq⟩ := Option.map_eq_some_iff.1 h
    cases heq
    obtain ⟨hvalue, rfl⟩ := ih hread
    exact ⟨.plain hquote hbackslash hvalue, rfl⟩

theorem readQuoted?_eq_some_iff :
    readQuoted? bs = some (value, rest) ↔ IsQuotable value ∧ bs = value ++ quote :: rest := by
  refine ⟨of_readQuoted?, ?_⟩
  rintro ⟨h, rfl⟩
  exact h.readQuoted?_append rest

/-! ### What the reading of any bytes as text leaves alone -/

/-- Bytes that hold the same ASCII can stand between quotes both or neither, and likewise if a
backslash stands before them. -/
theorem IsQuotable.of_sameAscii (h : Utf8.SameAscii bs cs) :
    (IsQuotable bs → IsQuotable cs) ∧
      (IsQuotable (backslash :: bs) → IsQuotable (backslash :: cs)) := by
  induction h with
  | nil => exact ⟨id, id⟩
  | @ascii b bs cs hb _ ih =>
    refine ⟨?_, by simpa only [isQuotable_escaped_iff] using ih.1⟩
    by_cases hquote : b = quote
    · exact fun h => absurd (hquote ▸ h) (not_isQuotable_quote bs)
    · by_cases hbackslash : b = backslash
      · exact hbackslash ▸ ih.2
      · simpa only [isQuotable_cons_iff hquote hbackslash] using ih.1
  | @above run run' bs cs hne hne' habove habove' _ ih =>
    refine ⟨by simpa only [isQuotable_append_of_above habove,
      isQuotable_append_of_above habove'] using ih.1, ?_⟩
    obtain ⟨b, run, rfl⟩ := List.exists_cons_of_ne_nil hne
    obtain ⟨b', run', rfl⟩ := List.exists_cons_of_ne_nil hne'
    have hrun := (List.forall_mem_cons.1 habove).2
    have hrun' := (List.forall_mem_cons.1 habove').2
    simpa only [List.cons_append, isQuotable_escaped_iff, isQuotable_append_of_above hrun,
      isQuotable_append_of_above hrun'] using ih.1

theorem isQuotable_decodeLossy_iff (bs : Bytes) :
    IsQuotable (Utf8.encode (Utf8.decodeLossy bs)) ↔ IsQuotable bs :=
  have hsame := Utf8.sameAscii_decodeLossy bs
  ⟨(IsQuotable.of_sameAscii hsame.symm).1, (IsQuotable.of_sameAscii hsame).1⟩

/-! ### The header block of a part -/

/-- Whether a header block is two lines, each with its line end and no other: one that tells the
disposition of a part and one that tells its type. -/
def IsTwoLines (header : Bytes) : Prop :=
  ∃ disposition type, header = disposition ++ Bytes.crlf ++ type ++ Bytes.crlf ∧
    ¬ Bytes.crlf <:+: disposition ∧ ¬ Bytes.crlf <:+: type ∧
      Utf8.encode "Content-Disposition: " <+: disposition ∧ Utf8.encode "Content-Type: " <+: type

/-- What stands before the file name in a header block, the opening quote included. -/
def opening : Bytes :=
  Utf8.encode "Content-Disposition: form-data; name=\"file\"; filename=\""

/-- Whether the quoted file name in a header block is this one, from the opening quote up to the
first quote that no backslash escapes, and the line ends there. -/
def QuotesName (header name : Bytes) : Prop :=
  ∃ quoted behind, header = opening ++ quoted ∧
    readQuoted? quoted = some (name, Bytes.crlf ++ behind)

variable {part : Part} {A B X Y : Bytes}

/-- If bytes are cut at two line ends, these are the same or each is to be found on one side of the
other. -/
theorem crlf_cut_cases (h : A ++ Bytes.crlf ++ B = X ++ Bytes.crlf ++ Y) :
    (A = X ∧ B = Y) ∨ X ++ Bytes.crlf <+: A ∨ Bytes.crlf ++ Y <:+ B := by
  rw [List.append_assoc, List.append_assoc, List.append_eq_append_iff] at h
  rcases h with ⟨between, rfl, h⟩ | ⟨between, rfl, h⟩
  all_goals
    rcases between with _ | ⟨b, _ | ⟨b', between⟩⟩
    · simp_all
    · simp [Bytes.crlf, Bytes.cr, Bytes.lf] at h
    · simp only [Bytes.crlf, List.cons_append, List.nil_append, List.cons.injEq] at h
      obtain ⟨rfl, rfl, rfl⟩ := h
      simp [Bytes.crlf]

theorem encode_dispositionLine (part : Part) :
    Utf8.encode (dispositionLine part) = opening ++ Utf8.encode part.name ++ [quote] := by
  have hopening : Utf8.encode "Content-Disposition: " ++
      Utf8.encode "form-data; name=\"file\"; filename=\"" = opening := by
    delta opening
    repeat rw [Utf8.encode_ofList]
    rfl
  have hquote : Utf8.encode "\"" = [quote] := by
    rw [Utf8.encode_ofList]
    rfl
  delta dispositionLine disposition
  simp only [Utf8.encode_append, hquote, ← hopening, List.append_assoc]

theorem cr_not_mem_opening : Bytes.cr ∉ opening := by
  delta opening
  rw [Utf8.encode_ofList]
  decide

theorem encode_partHeader (part : Part) :
    Utf8.encode (partHeader part) =
      Utf8.encode (dispositionLine part) ++ Bytes.crlf ++ Utf8.encode (typeLine part) ++
        Bytes.crlf := by
  rw [partHeader_eq, headerBlock, Utf8.encode_append, Utf8.encode_append, Utf8.encode_append,
    Utf8.encode_crlf]

theorem crlf_infix_dispositionLine (part : Part) :
    Bytes.crlf <:+: Utf8.encode (dispositionLine part) ↔ Bytes.crlf <:+: Utf8.encode part.name := by
  have hquote : quote ∉ Bytes.crlf := by decide
  have hne : Bytes.crlf ≠ [] := by decide
  rw [encode_dispositionLine, List.append_assoc]
  refine (infix_append_iff_of_not_mem cr_not_mem_opening _).trans ?_
  exact (infix_append_cons_iff hquote hne _ []).trans (or_iff_left fun h =>
    hne (List.infix_nil.1 h))

theorem not_crlf_infix_of_isTwoLines (h : IsTwoLines (Utf8.encode (partHeader part))) :
    ¬ Bytes.crlf <:+: Utf8.encode part.name := by
  rw [encode_partHeader] at h
  rw [← crlf_infix_dispositionLine]
  obtain ⟨disposition, type, hshape, hdisposition, htype, -, -⟩ := h
  rintro ⟨before, after, hname⟩
  have hcut : disposition ++ Bytes.crlf ++ type =
      before ++ Bytes.crlf ++ (after ++ Bytes.crlf ++ Utf8.encode (typeLine part)) := by
    have hall := List.append_cancel_right hshape
    rw [← hname] at hall
    simpa only [List.append_assoc] using hall.symm
  have hafter : Bytes.crlf <:+: after ++ Bytes.crlf ++ Utf8.encode (typeLine part) :=
    List.infix_append after Bytes.crlf _
  rcases crlf_cut_cases hcut with ⟨-, rfl⟩ | hfront | hback
  · exact htype hafter
  · exact hdisposition ((List.suffix_append before _).isInfix.trans hfront.isInfix)
  · exact htype ((List.prefix_append Bytes.crlf _).isInfix.trans hback.isInfix)

theorem isTwoLines_of_not_crlf_infix (htype : '\r' ∉ part.mediaType.toList)
    (hname : ¬ Bytes.crlf <:+: Utf8.encode part.name) :
    IsTwoLines (Utf8.encode (partHeader part)) := by
  have htypeLine : Bytes.cr ∉ Utf8.encode (typeLine part) := fun hmem =>
    cr_not_mem_typeLine htype ((Utf8.mem_encode_iff (by decide : '\r'.toNat < 128) _).1 hmem)
  rw [← crlf_infix_dispositionLine] at hname
  rw [encode_partHeader]
  refine ⟨_, _, rfl, hname, not_infix_of_not_mem htypeLine, ?_, ?_⟩
  · delta dispositionLine
    rw [Utf8.encode_append]
    exact List.prefix_append _ _
  · delta typeLine
    rw [Utf8.encode_append]
    exact List.prefix_append _ _

/-- The header block of a part is two lines exactly if its name has no line end. -/
theorem isTwoLines_iff (htype : '\r' ∉ part.mediaType.toList) :
    IsTwoLines (Utf8.encode (partHeader part)) ↔ ¬ Bytes.crlf <:+: Utf8.encode part.name :=
  ⟨not_crlf_infix_of_isTwoLines, isTwoLines_of_not_crlf_infix htype⟩

/-- The name of a part is read whole from its header block exactly if it can stand between
quotes. -/
theorem quotesName_iff (part : Part) :
    QuotesName (Utf8.encode (partHeader part)) (Utf8.encode part.name) ↔
      IsQuotable (Utf8.encode part.name) := by
  have hshape : Utf8.encode (partHeader part) = opening ++ (Utf8.encode part.name ++ quote ::
      (Bytes.crlf ++ (Utf8.encode (typeLine part) ++ Bytes.crlf))) := by
    rw [encode_partHeader, encode_dispositionLine]
    simp only [List.append_assoc, List.cons_append, List.nil_append]
  rw [QuotesName, hshape]
  constructor
  · rintro ⟨quoted, behind, -, hread⟩
    exact (readQuoted?_eq_some_iff.1 hread).1
  · intro h
    exact ⟨_, _, rfl, readQuoted?_eq_some_iff.2 ⟨h, rfl⟩⟩

def headerOfName (types : MediaType.Lookup) (name : String) : Bytes :=
  opening ++ Utf8.encode name ++ [quote] ++ Bytes.crlf ++
    Utf8.encode ("Content-Type: " ++ MediaType.ofName types name) ++ Bytes.crlf

theorem encode_partHeader_of_name (types : MediaType.Lookup) (name : String) (content : Bytes) :
    Utf8.encode (partHeader (Part.ofName types name content)) = headerOfName types name := by
  rw [encode_partHeader, encode_dispositionLine]
  rfl

theorem bytes_of_files (types : MediaType.Lookup) (boundary : Boundary)
    (files : List (Bytes × Bytes)) :
    FormData.bytes ⟨boundary, files.map fun file => Part.ofPath types file.1 file.2⟩ =
      (files.flatMap fun file => boundary.marker ++ Bytes.crlf ++
        headerOfName types (Part.ofPath types file.1 file.2).name ++ Bytes.crlf ++ file.2 ++
          Bytes.crlf) ++ closing boundary := by
  have hframe : ∀ file ∈ files, frame boundary (Part.ofPath types file.1 file.2) =
      boundary.marker ++ Bytes.crlf ++ headerOfName types (Part.ofPath types file.1 file.2).name ++
        Bytes.crlf ++ file.2 ++ Bytes.crlf := by
    intro file _
    rw [frame, ← encode_partHeader_of_name types _ file.2]
    rfl
  rw [FormData.bytes, List.flatMap_map, List.flatMap_congr hframe]

theorem crlf_infix_decodeLossy_iff (bs : Bytes) :
    Bytes.crlf <:+: Utf8.encode (Utf8.decodeLossy bs) ↔ Bytes.crlf <:+: bs := by
  have hsame := Utf8.sameAscii_decodeLossy bs
  have hcr : Bytes.cr.toNat < 128 := by decide
  have hlf : Bytes.lf.toNat < 128 := by decide
  exact ⟨hsame.symm.pair_infix hcr hlf, hsame.pair_infix hcr hlf⟩

/-- The name of a file of a directory stands in its header block as it is. So this is two lines
exactly if the name has no line end, and the whole name is read from between its quotes exactly if
every quote in it is escaped and no backslash at its end escapes the closing quote. -/
theorem header_blocks_of_file_names (types : MediaType.Lookup) (htypes : types.IsUnbroken)
    (draw : Draw) (files : List (Bytes × Bytes)) (hfiles : ∀ file ∈ files, Path.slash ∉ file.1) :
    FormData.bytes ⟨.ofDraw draw, files.map fun file => Part.ofPath types file.1 file.2⟩ =
        (files.flatMap fun file => (Boundary.ofDraw draw).marker ++ Bytes.crlf ++
          headerOfName types (Utf8.decodeLossy file.1) ++ Bytes.crlf ++ file.2 ++ Bytes.crlf) ++
            closing (.ofDraw draw) ∧
      ∀ file ∈ files,
        (IsTwoLines (headerOfName types (Utf8.decodeLossy file.1)) ↔ ¬ Bytes.crlf <:+: file.1) ∧
          (QuotesName (headerOfName types (Utf8.decodeLossy file.1))
              (Utf8.encode (Utf8.decodeLossy file.1)) ↔ IsQuotable file.1) := by
  constructor
  · rw [bytes_of_files]
    refine congrArg (· ++ closing (.ofDraw draw)) (List.flatMap_congr fun file hfile => ?_)
    rw [Part.ofPath_of_slash_not_mem types (hfiles file hfile), Part.ofName_name]
  · intro file _
    have htwo := @isTwoLines_iff (Part.ofName types (Utf8.decodeLossy file.1) file.2)
      (MediaType.cr_not_mem_ofName htypes _)
    have hquotes := quotesName_iff (Part.ofName types (Utf8.decodeLossy file.1) file.2)
    rw [encode_partHeader_of_name] at htwo hquotes
    exact ⟨htwo.trans (not_congr (crlf_infix_decodeLossy_iff file.1)),
      hquotes.trans (isQuotable_decodeLossy_iff file.1)⟩

/-- An escaped quote before a byte that is no text stays in its place; a bare quote and a line end do
not. -/
theorem header_blocks_of_two_names :
    let types := MediaType.byExtension
    let contained : Bytes := [97, backslash, quote, 200, 46, 103, 122]
    let broken : Bytes := [98, quote, Bytes.cr, Bytes.lf]
    types.IsUnbroken ∧ IsTwoLines (headerOfName types (Utf8.decodeLossy contained)) ∧
      QuotesName (headerOfName types (Utf8.decodeLossy contained))
        (Utf8.encode (Utf8.decodeLossy contained)) ∧
      ¬ IsTwoLines (headerOfName types (Utf8.decodeLossy broken)) ∧
      ¬ QuotesName (headerOfName types (Utf8.decodeLossy broken))
        (Utf8.encode (Utf8.decodeLossy broken)) := by
  intro types contained broken
  obtain ⟨-, hnames⟩ := header_blocks_of_file_names types MediaType.isUnbroken_byExtension
    (.replicate 8 0) [(contained, [1]), (broken, [])] (by decide)
  rw [List.forall_mem_cons, List.forall_mem_singleton] at hnames
  obtain ⟨⟨htwo, hquotes⟩, hbrokenTwo, hbrokenQuotes⟩ := hnames
  have hcontained : IsQuotable contained :=
    .plain (by decide) (by decide) (.escaped (.plain (by decide) (by decide)
      (.plain (by decide) (by decide) (.plain (by decide) (by decide)
        (.plain (by decide) (by decide) .nil)))))
  have hbroken : ¬ IsQuotable broken := fun h =>
    not_isQuotable_quote _ ((isQuotable_cons_iff (by decide) (by decide)).1 h)
  exact ⟨MediaType.isUnbroken_byExtension, htwo.2 (by decide), hquotes.2 hcontained,
    fun h => hbrokenTwo.1 h (by decide), fun h => hbroken (hbrokenQuotes.1 h)⟩

/-- Names of files that do not stay in their places, whatever is in the files and whatever their
types: one with a quote, one that ends in a backslash, and one with a line end. -/
theorem names_out_of_place :
    (∀ name ∈ ([[97, quote, 98], [97, backslash], [97, Bytes.cr, Bytes.lf, 98]] : List Bytes),
      Path.slash ∉ name ∧ 0 ∉ name) ∧
      (∀ name ∈ ([[97, quote, 98], [97, backslash]] : List Bytes),
        ∀ (types : MediaType.Lookup) (content : Bytes),
          ¬ QuotesName (Utf8.encode (partHeader (Part.ofPath types name content)))
            (Utf8.encode (Part.ofPath types name content).name)) ∧
      ∀ (types : MediaType.Lookup) (content : Bytes), ¬ IsTwoLines
        (Utf8.encode (partHeader (Part.ofPath types [97, Bytes.cr, Bytes.lf, 98] content))) := by
  have hplain : ∀ bs : Bytes, IsQuotable (97 :: bs) ↔ IsQuotable bs := fun _ =>
    isQuotable_cons_iff (by decide) (by decide)
  have hquotes : ∀ name : Bytes, Path.slash ∉ name → ¬ IsQuotable name →
      ∀ (types : MediaType.Lookup) (content : Bytes),
        ¬ QuotesName (Utf8.encode (partHeader (Part.ofPath types name content)))
          (Utf8.encode (Part.ofPath types name content).name) := by
    intro name hslash hname types content h
    rw [quotesName_iff, Part.ofPath_of_slash_not_mem types hslash, Part.ofName_name,
      isQuotable_decodeLossy_iff] at h
    exact hname h
  refine ⟨by decide, ?_, fun types content h => ?_⟩
  · rw [List.forall_mem_cons, List.forall_mem_singleton]
    exact ⟨hquotes _ (by decide) fun h => not_isQuotable_quote _ ((hplain _).1 h),
      hquotes _ (by decide) fun h => not_isQuotable_backslash ((hplain _).1 h)⟩
  · have hslash : Path.slash ∉ ([97, Bytes.cr, Bytes.lf, 98] : Bytes) := by decide
    rw [Part.ofPath_of_slash_not_mem types hslash] at h
    exact not_crlf_infix_of_isTwoLines h ((crlf_infix_decodeLossy_iff _).2 (by decide))

end WireBench.Multipart
