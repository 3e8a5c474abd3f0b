import WireBench.Proofs.Framing

/-!
# The places of the markers in a message

If no part brings the marker of a fresh boundary along, the marker stands in the message exactly
where a frame or the closing line starts: no occurrence overlaps another one, and none arises where
a name, a media type or a content meets what stands around it.
-/

namespace WireBench.Multipart

open WireBench.Text

variable {draw : Draw} {part : Part} {parts : List Part}

def quote : UInt8 := 34

private theorem marker_ne_nil : (Boundary.ofDraw draw).marker ≠ [] := by
  obtain ⟨more, h⟩ := marker_eq draw
  simp [h, dashes]

private theorem cr_not_mem_marker : Bytes.cr ∉ (Boundary.ofDraw draw).marker :=
  not_mem_marker draw (by decide : '\r'.toNat < 128) (by decide)

private theorem lf_not_mem_marker : Bytes.lf ∉ (Boundary.ofDraw draw).marker :=
  not_mem_marker draw (by decide : '\n'.toNat < 128) (by decide)

private theorem quote_not_mem_marker : quote ∉ (Boundary.ofDraw draw).marker :=
  not_mem_marker draw (by decide : '"'.toNat < 128) (by decide)

private theorem space_not_mem_marker : Bytes.space ∉ (Boundary.ofDraw draw).marker :=
  not_mem_marker draw (by decide : ' '.toNat < 128) (by decide)

theorem not_infix_of_dashes {bs : Bytes} (h : ¬ dashes <:+: bs) :
    ¬ (Boundary.ofDraw draw).marker <:+: bs := by
  obtain ⟨more, hm⟩ := marker_eq draw
  intro hi
  have hd : dashes <:+: (Boundary.ofDraw draw).marker := by
    rw [hm]
    exact (List.prefix_append _ _).isInfix
  exact h (hd.trans hi)

/-- A frame body between line ends, quotes and spaces: only the name, the media type and the content
are not known beforehand. -/
theorem frameBody_eq (part : Part) :
    frameBody part =
      [] ++ Bytes.cr :: ([] ++ Bytes.lf ::
        (Utf8.encode "Content-Disposition: form-data; name=\"file\"; filename=" ++ quote ::
          (Utf8.encode part.name ++ quote :: ([] ++ Bytes.cr :: ([] ++ Bytes.lf ::
            (Utf8.encode "Content-Type:" ++ Bytes.space :: (Utf8.encode part.mediaType ++ Bytes.cr ::
              ([] ++ Bytes.lf :: ([] ++ Bytes.cr :: ([] ++ Bytes.lf ::
                (part.content ++ Bytes.cr :: []))))))))))) := by
  have hopen : Utf8.encode "Content-Disposition: form-data; name=\"" ++
      Utf8.encode fieldName ++ Utf8.encode "\"; filename=\"" =
      Utf8.encode "Content-Disposition: form-data; name=\"file\"; filename=" ++ [quote] := by
    delta fieldName
    repeat rw [Utf8.encode_ofList]
    rfl
  have hnext : Utf8.encode "\"\r\nContent-Type: " =
      quote :: Bytes.cr :: Bytes.lf :: (Utf8.encode "Content-Type:" ++ [Bytes.space]) := by
    rw [Utf8.encode_ofList, Utf8.encode_ofList]
    rfl
  simp only [frameBody]
  delta partHeader
  simp only [Utf8.encode_append, hopen, hnext, Utf8.encode_crlf]
  simp [Bytes.crlf]

theorem not_infix_frameBody (hfree : IsFree (.ofDraw draw) part)
    (htype : ¬ dashes <:+: Utf8.encode part.mediaType) :
    ¬ (Boundary.ofDraw draw).marker <:+: frameBody part := by
  obtain ⟨hcontent, hname⟩ := hfree
  have hopen : ¬ dashes <:+:
      Utf8.encode "Content-Disposition: form-data; name=\"file\"; filename=" := by
    rw [Utf8.encode_ofList]
    decide +kernel
  have hnext : ¬ dashes <:+: Utf8.encode "Content-Type:" := by
    rw [Utf8.encode_ofList]
    decide +kernel
  have hnil : ¬ (Boundary.ofDraw draw).marker <:+: [] := fun h =>
    marker_ne_nil (List.infix_nil.1 h)
  rw [frameBody_eq]
  simp only [infix_append_cons_iff cr_not_mem_marker marker_ne_nil,
    infix_append_cons_iff lf_not_mem_marker marker_ne_nil,
    infix_append_cons_iff quote_not_mem_marker marker_ne_nil,
    infix_append_cons_iff space_not_mem_marker marker_ne_nil, hnil, hname, hcontent,
    not_infix_of_dashes htype, not_infix_of_dashes hopen, not_infix_of_dashes hnext, or_false,
    not_false_eq_true]

private theorem frameBody_eq_cons (part : Part) : ∃ body, frameBody part = Bytes.cr :: body :=
  ⟨_, rfl⟩

private theorem offsets_frame (hfree : IsFree (.ofDraw draw) part)
    (htype : ¬ dashes <:+: Utf8.encode part.mediaType) (rest : Bytes) :
    offsets (Boundary.ofDraw draw).marker (frame (.ofDraw draw) part ++ rest) =
      0 :: (offsets (Boundary.ofDraw draw).marker rest).map
        (· + (frame (.ofDraw draw) part).length) := by
  have hnot := not_infix_frameBody hfree htype
  obtain ⟨body, hbody⟩ := frameBody_eq_cons part
  rw [hbody] at hnot
  have hnone : offsets (Boundary.ofDraw draw).marker body = [] :=
    offsets_eq_nil marker_ne_nil fun h => hnot (List.infix_cons h)
  have hshape : frame (.ofDraw draw) part ++ rest =
      (Boundary.ofDraw draw).marker ++ Bytes.cr :: (body ++ Bytes.lf :: rest) := by
    simp only [frame_eq, hbody, List.append_assoc, List.cons_append, List.nil_append]
  have hlength : (frame (.ofDraw draw) part).length =
      body.length + 1 + ((Boundary.ofDraw draw).marker.length + 1) := by
    simp only [frame_eq, hbody, List.length_append, List.length_cons, List.length_nil]
    omega
  rw [hshape, offsets_append_cons cr_not_mem_marker marker_ne_nil, offsets_self marker_ne_nil,
    offsets_append_cons lf_not_mem_marker marker_ne_nil, hnone, hlength]
  simp only [List.nil_append, List.map_map, List.singleton_append, Function.comp_def,
    Nat.add_assoc]

private theorem offsets_closing :
    offsets (Boundary.ofDraw draw).marker (closing (.ofDraw draw)) = [0] := by
  obtain ⟨more, hm⟩ := marker_eq draw
  have hlf : ¬ (Boundary.ofDraw draw).marker <:+: [Bytes.lf] := by
    intro h
    have hlen := h.length_le
    rw [hm] at hlen
    simp [dashes] at hlen
  have hmore : ¬ (Boundary.ofDraw draw).marker <:+: more ++ dashes := by
    intro h
    have hlen := h.length_le
    rw [hm] at hlen
    simp only [dashes, List.length_append, List.length_cons, List.length_nil] at hlen
    omega
  have hshift : offsets (Boundary.ofDraw draw).marker ((Boundary.ofDraw draw).marker ++ dashes) =
      [0] := by
    have hnone := offsets_eq_nil marker_ne_nil hmore
    rw [hm] at hnone ⊢
    simp [dashes, offsets_cons] at hnone ⊢
    exact hnone
  have hshape : closing (.ofDraw draw) =
      (Boundary.ofDraw draw).marker ++ dashes ++ Bytes.cr :: [Bytes.lf] := by
    simp [closing, Bytes.crlf]
  rw [hshape, offsets_append_cons cr_not_mem_marker marker_ne_nil, hshift,
    offsets_eq_nil marker_ne_nil hlf]
  rfl

private theorem startsFrom_add (boundary : Boundary) (place k : Nat) (parts : List Part) :
    startsFrom boundary (place + k) parts = (startsFrom boundary place parts).map (· + k) := by
  induction parts generalizing place with
  | nil => rfl
  | cons part parts ih =>
    have h := ih (place + frameLength boundary part)
    simp only [startsFrom, List.map_cons]
    rw [← h, Nat.add_right_comm]

/-- The marker stands where the frames and the closing line start, and nowhere else. -/
theorem offsets_bytes (hfree : ∀ part ∈ parts, IsFree (.ofDraw draw) part)
    (htypes : ∀ part ∈ parts, ¬ dashes <:+: Utf8.encode part.mediaType) :
    offsets (Boundary.ofDraw draw).marker (FormData.bytes ⟨.ofDraw draw, parts⟩) =
      FormData.starts ⟨.ofDraw draw, parts⟩ := by
  induction parts with
  | nil => exact offsets_closing
  | cons part parts ih =>
    obtain ⟨hpart, hparts⟩ := List.forall_mem_cons.1 hfree
    obtain ⟨htype, htypes⟩ := List.forall_mem_cons.1 htypes
    have hrest := ih hparts htypes
    rw [bytes_cons, offsets_frame hpart htype, hrest]
    simp only [FormData.starts, startsFrom]
    rw [startsFrom_add, FormData.length_frame]

theorem le_of_mem_startsFrom {boundary : Boundary} {place p : Nat} {parts : List Part}
    (h : p ∈ startsFrom boundary place parts) : place ≤ p := by
  induction parts generalizing place with
  | nil =>
    rw [startsFrom, List.mem_singleton] at h
    exact Nat.le_of_eq h.symm
  | cons part parts ih =>
    rcases List.mem_cons.1 h with rfl | h
    · exact Nat.le_refl p
    · exact Nat.le_of_add_right_le (ih h)

theorem pairwise_startsFrom (boundary : Boundary) (place : Nat) (parts : List Part) :
    (startsFrom boundary place parts).Pairwise (· < ·) := by
  induction parts generalizing place with
  | nil => simp [startsFrom]
  | cons part parts ih =>
    apply List.Pairwise.cons
    · intro p hp
      have hle := le_of_mem_startsFrom hp
      simp only [frameLength] at hle
      omega
    · exact ih _

theorem drop_startsFrom {boundary : Boundary} {front : Bytes} {parts : List Part} {i place : Nat}
    (h : (startsFrom boundary front.length parts)[i]? = some place) :
    (front ++ FormData.bytes ⟨boundary, parts⟩).drop place =
      FormData.bytes ⟨boundary, parts.drop i⟩ := by
  induction parts generalizing front i with
  | nil =>
    cases i with
    | zero =>
      obtain rfl : front.length = place := by simpa [startsFrom] using h
      simp
    | succ i => simp [startsFrom] at h
  | cons part parts ih =>
    cases i with
    | zero =>
      obtain rfl : front.length = place := by simpa [startsFrom] using h
      simp
    | succ i =>
      have hlen : (front ++ frame boundary part).length =
          front.length + frameLength boundary part := by
        rw [List.length_append, FormData.length_frame]
      have hrest := ih (by rw [hlen]; simpa [startsFrom] using h)
      rw [bytes_cons, ← List.append_assoc, hrest]
      rfl

theorem drop_starts {boundary : Boundary} {parts : List Part} {i place : Nat}
    (h : (FormData.starts ⟨boundary, parts⟩)[i]? = some place) :
    (FormData.bytes ⟨boundary, parts⟩).drop place = FormData.bytes ⟨boundary, parts.drop i⟩ :=
  @drop_startsFrom boundary [] parts i place h

private theorem piecesAt_behindMarker (hfree : ∀ part ∈ parts, IsFree (.ofDraw draw) part)
    (htypes : ∀ part ∈ parts, ¬ dashes <:+: Utf8.encode part.mediaType) :
    piecesAt (Boundary.ofDraw draw).marker (behindMarker (.ofDraw draw) parts) =
      parts.map (fun part => frameBody part ++ [Bytes.lf]) ++ [dashes ++ Bytes.crlf] := by
  induction parts with
  | nil =>
    have hshort : ¬ (Boundary.ofDraw draw).marker <:+: dashes ++ Bytes.crlf := by
      have hd : ¬ (Boundary.ofDraw draw).marker <:+: dashes ++ Bytes.cr :: [Bytes.lf] := by
        obtain ⟨more, hm⟩ := marker_eq draw
        rw [infix_append_cons_iff cr_not_mem_marker marker_ne_nil]
        rintro (h | h)
        · have hlen := h.length_le
          rw [hm] at hlen
          simp [dashes] at hlen
        · have hlen := h.length_le
          rw [hm] at hlen
          simp [dashes] at hlen
      exact hd
    exact piecesAt_eq_singleton marker_ne_nil hshort
  | cons part parts ih =>
    obtain ⟨hpart, hparts⟩ := List.forall_mem_cons.1 hfree
    obtain ⟨htype, htypes⟩ := List.forall_mem_cons.1 htypes
    have hcut : cutAt (Boundary.ofDraw draw).marker (behindMarker (.ofDraw draw) (part :: parts)) =
        some (frameBody part ++ [Bytes.lf], behindMarker (.ofDraw draw) parts) :=
      cutAt_append_cons lf_not_mem_marker (not_infix_frameBody hpart htype)
    rw [piecesAt_of_cutAt marker_ne_nil hcut, ih hparts htypes]
    rfl

/-- Cut at the markers, a message is an empty piece, the frames without their markers, and the end
of the closing line. -/
theorem piecesAt_bytes (hfree : ∀ part ∈ parts, IsFree (.ofDraw draw) part)
    (htypes : ∀ part ∈ parts, ¬ dashes <:+: Utf8.encode part.mediaType) :
    piecesAt (Boundary.ofDraw draw).marker (FormData.bytes ⟨.ofDraw draw, parts⟩) =
      [] :: (parts.map (fun part => frameBody part ++ [Bytes.lf]) ++ [dashes ++ Bytes.crlf]) := by
  have hcut : cutAt (Boundary.ofDraw draw).marker (FormData.bytes ⟨.ofDraw draw, parts⟩) =
      some ([], behindMarker (.ofDraw draw) parts) := by
    rw [bytes_eq]
    exact cutAt_front _ _
  rw [piecesAt_of_cutAt marker_ne_nil hcut, piecesAt_behindMarker hfree htypes]

/-- The marker of a fresh boundary stands in the message once for every part and once more, exactly
where the frames and the closing line start. All but the last are followed by a line end, the last
by two dashes, a line end and the end of the message; cut there, the message has two pieces more
than parts. -/
theorem offsets_marker_eq_starts (draw : Draw) (parts : List Part)
    (hfree : ∀ part ∈ parts, IsFree (.ofDraw draw) part)
    (htypes : ∀ part ∈ parts, ¬ dashes <:+: Utf8.encode part.mediaType) :
    let form : FormData := ⟨.ofDraw draw, parts⟩
    let marker := form.boundary.marker
    offsets marker form.bytes = form.starts ∧
      form.starts.length = parts.length + 1 ∧
      form.starts.Pairwise (· < ·) ∧
      (∀ i place, form.starts[i]? = some place →
        form.bytes.drop place =
          (parts.drop i).flatMap (frame form.boundary) ++ closing form.boundary) ∧
      (∀ i < parts.length, ∃ place, form.starts[i]? = some place ∧
        marker ++ Bytes.crlf <+: form.bytes.drop place) ∧
      (∃ place, form.starts[parts.length]? = some place ∧
        form.bytes.drop place = marker ++ dashes ++ Bytes.crlf) ∧
      piecesAt marker form.bytes =
        [] :: (parts.map (fun part => (frame form.boundary part).drop marker.length) ++
          [dashes ++ Bytes.crlf]) := by
  intro form marker
  have hlength : form.starts.length = parts.length + 1 := form.length_starts
  have hdrop : ∀ i place, form.starts[i]? = some place →
      form.bytes.drop place = FormData.bytes ⟨.ofDraw draw, parts.drop i⟩ :=
    fun i place h => drop_starts h
  have hsome : ∀ i < parts.length + 1, ∃ place, form.starts[i]? = some place := fun i hi =>
    ⟨_, List.getElem?_eq_getElem (hlength ▸ hi)⟩
  refine ⟨offsets_bytes hfree htypes, hlength, pairwise_startsFrom _ _ _, hdrop, ?_, ?_, ?_⟩
  · intro i hi
    obtain ⟨place, hplace⟩ := hsome i (Nat.lt_succ_of_lt hi)
    refine ⟨place, hplace, ?_⟩
    rw [hdrop i place hplace, List.drop_eq_getElem_cons hi, bytes_cons, frame, List.append_assoc,
      List.append_assoc, List.append_assoc, List.append_assoc]
    exact List.prefix_append _ _
  · obtain ⟨place, hplace⟩ := hsome parts.length (Nat.lt_succ_self _)
    refine ⟨place, hplace, ?_⟩
    rw [hdrop _ place hplace, List.drop_length, bytes_nil, closing]
  · have hpieces : (fun part => (frame form.boundary part).drop marker.length) =
        fun part => frameBody part ++ [Bytes.lf] := by
      funext part
      rw [frame_eq]
      exact List.drop_left
    rw [hpieces]
    exact piecesAt_bytes hfree htypes

/-- Names and contents that all but hold the marker, up to their very ends. -/
theorem offsets_of_partial_markers :
    (offsets (Boundary.ofDraw (.replicate 8 0)).marker
      (FormData.bytes ⟨.ofDraw (.replicate 8 0),
        [⟨"--fixture-boundary-", Utf8.encode "--fixture-boundary-000000000000000",
            "application/octet-stream"⟩,
          ⟨"\r\n--", [45, 45, 45], "application/octet-stream"⟩]⟩)).length = 3 := by
  obtain ⟨hoffsets, hlength, -⟩ := offsets_marker_eq_starts (.replicate 8 0)
    [⟨"--fixture-boundary-", Utf8.encode "--fixture-boundary-000000000000000",
        "application/octet-stream"⟩,
      ⟨"\r\n--", [45, 45, 45], "application/octet-stream"⟩]
    (by decide +kernel) (by decide +kernel)
  exact (congrArg List.length hoffsets).trans hlength

end WireBench.Multipart
