import WireBench.Proofs.RequestReading

/-!
# Requests cut short

A request that is cut in its body is refused, and so is one that is cut in its blank line. Where the
input ends before that, its end also ends the line and the header section, and what is left is a
request exactly if its lines alone make one: as many as there are, the last one as far as it goes,
with no body announced.
-/

namespace WireBench

theorem exists_cut_of_prefix_flatten {α : Type} {ls : List (List α)} {front : List α}
    (hfront : front <+: ls.flatten) (hne : front ≠ ls.flatten) :
    ∃ whole line after cut, ls = whole ++ line :: after ∧ front = whole.flatten ++ cut ∧
      cut <+: line ∧ cut ≠ line := by
  induction ls generalizing front with
  | nil => exact absurd (List.prefix_nil.1 hfront) hne
  | cons l ls ih =>
    rw [List.flatten_cons] at hfront hne
    by_cases hl : l <+: front
    · obtain ⟨more, rfl⟩ := hl
      obtain ⟨whole, line, after, cut, rfl, rfl, hcut, hcutNe⟩ :=
        ih ((List.prefix_append_right_inj l).1 hfront) fun h => hne (h ▸ rfl)
      exact ⟨l :: whole, line, after, cut, rfl, by simp, hcut, hcutNe⟩
    · have hcut : front <+: l :=
        (List.prefix_or_prefix_of_prefix hfront (List.prefix_append l _)).resolve_right hl
      exact ⟨[], l, ls, front, rfl, rfl, hcut, fun h => hl (h ▸ List.prefix_rfl)⟩

namespace Bytes

theorem lines_of_not_mem {l : Bytes} (h : lf ∉ l) : lines l = if l = [] then [] else [l] := by
  split
  next hnil => rw [hnil, lines]
  next hne => rw [lines_of_ne_nil hne, cutLine_of_not_mem h, lines]

/-- The lines of a byte string are those that have their line feed and what follows the last of
these. -/
theorem lines_flatten_append {whole : List Bytes} {cut : Bytes} (hwhole : ∀ l ∈ whole, IsEnded l)
    (hcut : lf ∉ cut) :
    lines (whole.flatten ++ cut) = whole ++ if cut = [] then [] else [cut] := by
  induction whole with
  | nil => exact lines_of_not_mem hcut
  | cons l whole ih =>
    obtain ⟨hl, hwhole⟩ := List.forall_mem_cons.1 hwhole
    rw [List.flatten_cons, List.append_assoc, lines_of_ne_nil (by simp [hl.ne_nil]),
      hl.cutLine_append, ih hwhole, List.cons_append]

theorem IsEnded.lf_not_mem_of_cut {line cut : Bytes} (h : IsEnded line) (hcut : cut <+: line)
    (hne : cut ≠ line) : lf ∉ cut := by
  obtain ⟨text, htext, rfl⟩ := h
  have hfront := (List.prefix_concat_iff.1 hcut).resolve_left hne
  exact fun hmem => htext (hfront.subset hmem)

end Bytes

namespace Http

open WireBench.Transport

namespace Field

theorem not_isIn_cr (field : Field) : ¬ field.IsIn [Bytes.cr] := by
  rintro ⟨name, value, htext, -, -⟩
  have hcolon : ':' ∈ (name ++ ":" ++ value).toList := by simp
  rw [← Utf8.mem_encode_iff (by decide), htext] at hcolon
  exact absurd hcolon (by decide)

theorem not_forall₂_isIn_cr (fields : List Field) (lines : List Bytes) :
    ¬ List.Forall₂ IsIn fields (lines ++ [[Bytes.cr]]) := by
  intro h
  have hlast := List.forall₂_drop_append fields lines [[Bytes.cr]] h
  obtain ⟨field, _, hfield, -, -⟩ := List.forall₂_cons_right_iff.1 hlast
  exact not_isIn_cr field hfield

end Field

/-- Whether lines make this request without a body: the first is its request line, and the others
hold its fields and announce no body. -/
def Request.IsOfLines (request : Request) (lines : List Bytes) : Prop :=
  ∃ (first : RequestLine) (fields : List Field) (line : Bytes) (others : List Bytes),
    lines = line :: others ∧ first.IsIn line ∧ List.Forall₂ Field.IsIn fields others ∧
      Field.Announce fields 0 ∧
        request = { method := first.method, target := first.target, version := first.version,
                    headers := .ofFields fields, body := [] }

namespace Layout

variable {bs front : Bytes}

/-- The lines of a header section, its blank line included. -/
def headLines (layout : Layout) : List Bytes :=
  layout.first :: (layout.fieldLines ++ layout.blank?.toList)

theorem flatten_headLines (layout : Layout) : layout.headLines.flatten = layout.head := by
  cases h : layout.blank? <;> simp [headLines, head, h]

theorem isEnded_headLines (hbs : bs ≠ []) (hcomplete : (of bs).isComplete = true) :
    ∀ l ∈ (of bs).headLines, Bytes.IsEnded l := by
  obtain ⟨blank, hblank⟩ := Option.isSome_iff_exists.1 hcomplete
  obtain ⟨after, hlines, -⟩ := lines_eq hbs
  have hended := isEnded_of_isBlankLine (isBlankLine_of_blank? hblank)
  have hshape : (of bs).headLines = ((of bs).first :: (of bs).fieldLines) ++ [blank] := by
    rw [headLines, hblank]
    rfl
  rw [hshape]
  have hall : Bytes.lines bs = ((of bs).first :: (of bs).fieldLines) ++ [blank] ++ after := by
    rw [hlines, hblank]
    simp
  exact (Reading.areLines_of_lines hall).isEnded_of_isTerminated hended.isTerminated

/-- A header section cut before its end is some of its lines and a front of the next. -/
theorem lines_of_cut (hbs : bs ≠ []) (hcomplete : (of bs).isComplete = true)
    (hfront : front <+: (of bs).head) (hne : front ≠ (of bs).head) :
    ∃ whole line after cut, (of bs).headLines = whole ++ line :: after ∧ cut <+: line ∧
      cut ≠ line ∧ front = whole.flatten ++ cut ∧
        Bytes.lines front = whole ++ if cut = [] then [] else [cut] := by
  rw [← flatten_headLines] at hfront hne
  obtain ⟨whole, line, after, cut, hshape, rfl, hcut, hcutNe⟩ :=
    exists_cut_of_prefix_flatten hfront hne
  have hended := isEnded_headLines hbs hcomplete
  rw [hshape, List.forall_mem_append, List.forall_mem_cons] at hended
  obtain ⟨hwhole, hline, -⟩ := hended
  exact ⟨whole, line, after, cut, hshape, hcut, hcutNe, rfl,
    Bytes.lines_flatten_append hwhole (hline.lf_not_mem_of_cut hcut hcutNe)⟩

theorem of_eq_of_lines {line : Bytes} {others : List Bytes}
    (hlines : Bytes.lines front = line :: others) (hblank : ∀ l ∈ others, isBlankLine l = false) :
    of front = ⟨line, others, none, []⟩ := by
  have htake : others.takeWhile (fun l => !isBlankLine l) = others := by
    rw [List.takeWhile_eq_self_iff]
    simpa using hblank
  have hdrop : others.dropWhile (fun l => !isBlankLine l) = [] := by
    rw [List.dropWhile_eq_nil_iff]
    simpa using hblank
  simp [of, hlines, htake, hdrop]

theorem whole_isPrefix {whole after : List Bytes} {line : Bytes}
    (hcomplete : (of bs).isComplete = true)
    (hshape : (of bs).headLines = whole ++ line :: after) :
    whole <+: (of bs).first :: (of bs).fieldLines := by
  obtain ⟨blank, hblank⟩ := Option.isSome_iff_exists.1 hcomplete
  rw [headLines, hblank, Option.toList_some, ← List.cons_append] at hshape
  have hprefix := List.prefix_append whole (line :: after)
  rw [← hshape] at hprefix
  refine (List.prefix_concat_iff.1 hprefix).resolve_left fun heq => ?_
  have hlength := congrArg List.length hshape
  rw [heq] at hlength
  simp at hlength

/-- Where a header section is cut, no blank line is left. -/
theorem of_cut (hbs : bs ≠ []) (hcomplete : (of bs).isComplete = true)
    (hfront : front <+: (of bs).head) (hne : front ≠ (of bs).head) (hfrontNe : front ≠ []) :
    ∃ line others, Bytes.lines front = line :: others ∧ of front = ⟨line, others, none, []⟩ := by
  obtain ⟨whole, line, after, cut, hshape, hcut, hcutNe, -, hlines⟩ :=
    lines_of_cut hbs hcomplete hfront hne
  have hline := isEnded_headLines hbs hcomplete line (hshape ▸ by simp)
  have hcutBlank : isBlankLine cut = false := by
    refine Bool.eq_false_iff.2 fun h => hline.lf_not_mem_of_cut hcut hcutNe ?_
    obtain ⟨text, -, rfl⟩ := isEnded_of_isBlankLine h
    simp
  have hblanks : ∀ l ∈ whole.tail, isBlankLine l = false := by
    intro l hl
    have hwhole := whole_isPrefix hcomplete hshape
    cases whole with
    | nil => exact absurd hl List.not_mem_nil
    | cons first whole =>
      exact isBlankLine_fieldLines bs l ((List.cons_prefix_cons.1 hwhole).2.subset hl)
  obtain ⟨first, others, hall⟩ : ∃ first others, Bytes.lines front = first :: others :=
    ⟨_, _, Bytes.lines_of_ne_nil hfrontNe⟩
  refine ⟨first, others, hall, of_eq_of_lines hall fun l hl => ?_⟩
  have htail : l ∈ (whole ++ if cut = [] then [] else [cut]).tail := by
    rw [← hlines, hall]
    exact hl
  cases whole with
  | nil =>
    split at htail <;> exact absurd htail List.not_mem_nil
  | cons first' whole =>
    rcases List.mem_append.1 htail with hmem | hmem
    · exact hblanks l hmem
    · split at hmem
      · exact absurd hmem List.not_mem_nil
      · exact List.mem_singleton.1 hmem ▸ hcutBlank

end Layout

namespace Request

variable {bs front consumed rest : Bytes} {request : Request}

/-- What a request takes of an input is its header section and its body. -/
theorem exists_of_read_complete (hread : read .finished bs = (.ok (some request), rest))
    (hbs : bs = consumed ++ rest) :
    bs ≠ [] ∧ ∃ first fields body, (Layout.of bs).Holds first fields ∧
      Field.Announce fields body.length ∧ consumed = (Layout.of bs).head ++ body := by
  have hne : bs ≠ [] := by
    rintro rfl
    cases hread
  rcases isIn_or_complaint hne with ⟨request', rest', h⟩ | ⟨error, h⟩
  · have hsame := hread.symm.trans h.read_eq
    obtain rfl : rest = rest' := congrArg Prod.snd hsame
    obtain @⟨first, fields, body, _, hholds, hlength, hbody⟩ := h
    refine ⟨hne, first, fields, body, hholds, hlength, ?_⟩
    have hall := Layout.head_append_rest bs
    rw [hbody, ← List.append_assoc] at hall
    exact List.append_cancel_right (hbs.symm.trans hall.symm)
  · have herror := h.read_eq
    rw [hread] at herror
    cases herror

/-- A request that is cut in its body is missing the rest of it. -/
theorem read_of_cut_body (hcomplete : (Layout.of bs).isComplete = true) {first : RequestLine}
    {fields : List Field} {body cut : Bytes} (hholds : (Layout.of bs).Holds first fields)
    (hlength : Field.Announce fields body.length) (hcut : cut.length < body.length) :
    read .finished ((Layout.of bs).head ++ cut) = (.error .bodyCutShort, []) := by
  have hread := @Layout.read_of_bodyLength bs first _ .finished cut hholds.ne_nil
    (Layout.holds_iff.1 hholds).1 hholds.headers?_eq (.inl hcomplete) body.length
    (((Field.bodyLength_iff fields).1 _).2 hlength)
  rw [hread, Reading.exactly, if_neg (Nat.not_le_of_lt hcut)]
  rfl

/-- A request that is cut in its header section is read exactly if the lines that are left make
one, and is refused otherwise. -/
theorem read_of_cut_head {line : Bytes} {others : List Bytes}
    (hlines : Bytes.lines front = line :: others)
    (hlayout : Layout.of front = ⟨line, others, none, []⟩) :
    (∀ found rest', read .finished front = (.ok (some found), rest') ↔
        found.IsOfLines (Bytes.lines front) ∧ rest' = []) ∧
      ((∀ found : Request, ¬ found.IsOfLines (Bytes.lines front)) →
        ∃ error, (read .finished front).1 = .error error) := by
  have hne : front ≠ [] := by
    rintro rfl
    cases hlines
  have hmakes : ∀ {found rest'}, IsIn front found rest' →
      found.IsOfLines (Bytes.lines front) ∧ rest' = [] := by
    rintro _ rest' @⟨first, fields, body, _, hholds, hlength, hbody⟩
    rw [hlayout] at hholds hbody
    obtain ⟨rfl, rfl⟩ := List.append_eq_nil_iff.1 hbody.symm
    exact ⟨⟨first, fields, line, others, hlines, hholds.first, hholds.fields, hlength, rfl⟩, rfl⟩
  have hreads : ∀ {found : Request}, found.IsOfLines (Bytes.lines front) →
      read .finished front = (.ok (some found), []) := by
    rintro _ ⟨first, fields, line', others', hshape, hfirst, hfields, hlength, rfl⟩
    obtain ⟨rfl, rfl⟩ := List.cons.inj (hlines.symm.trans hshape)
    have hholds : (Layout.of front).Holds first fields := by
      rw [hlayout]
      exact ⟨hfirst, hfields⟩
    have hbody : (Layout.of front).rest = [] ++ [] := by rw [hlayout, List.append_nil]
    exact (@IsIn.body front first fields [] [] hholds hlength hbody).read_eq
  rcases isIn_or_complaint hne with ⟨found, rest', h⟩ | ⟨error, h⟩
  · refine ⟨fun other rest'' => ⟨fun hread => ?_, ?_⟩, fun hnone => absurd (hmakes h).1 (hnone _)⟩
    · have hsame := h.read_eq.symm.trans hread
      cases hsame
      exact hmakes h
    · rintro ⟨hother, rfl⟩
      exact hreads hother
  · have herror := h.read_eq
    refine ⟨fun other rest'' => ⟨fun hread => ?_, ?_⟩, fun _ => ⟨error, herror⟩⟩
    · rw [hread] at herror
      cases herror
    · rintro ⟨hother, -⟩
      rw [hreads hother] at herror
      cases herror

theorem read_of_cut_blank (hbs : bs ≠ []) (hblank : (Layout.of bs).blank? = some Bytes.crlf) :
    ∃ error, (read .finished ((Layout.of bs).first ++ (Layout.of bs).fieldLines.flatten ++
      [Bytes.cr])).1 = .error error := by
  have hcomplete : (Layout.of bs).isComplete = true := by rw [Layout.isComplete, hblank]; rfl
  have hended := Layout.isEnded_headLines hbs hcomplete
  have hlines : Bytes.lines ((Layout.of bs).first ++ (Layout.of bs).fieldLines.flatten ++
      [Bytes.cr]) = (Layout.of bs).first :: ((Layout.of bs).fieldLines ++ [[Bytes.cr]]) := by
    have hwhole : ∀ l ∈ (Layout.of bs).first :: (Layout.of bs).fieldLines, Bytes.IsEnded l :=
      fun l hl => hended l (List.mem_append_left _ hl)
    exact @Bytes.lines_flatten_append _ [Bytes.cr] hwhole (by decide)
  have hnot : ∀ l ∈ (Layout.of bs).fieldLines ++ [[Bytes.cr]], isBlankLine l = false := by
    rw [List.forall_mem_append]
    exact ⟨Layout.isBlankLine_fieldLines bs, by decide⟩
  refine (read_of_cut_head hlines (Layout.of_eq_of_lines hlines hnot)).2 ?_
  rintro found ⟨first, fields, line, others, hshape, -, hfields, -, -⟩
  obtain ⟨-, rfl⟩ := List.cons.inj (hlines.symm.trans hshape)
  exact Field.not_forall₂_isIn_cr fields _ hfields

/-- A request that is cut short is nothing if nothing is left of it, and is missing its body if its
header section is left with the blank line. Cut before that, what is left are lines of the header
section, the last one perhaps in part. It is a request exactly if these lines make one, with an
empty body, and is refused otherwise; it is always refused if it is cut in the blank line. -/
theorem read_of_cut (hread : read .finished bs = (.ok (some request), rest))
    (hcomplete : (Layout.of bs).isComplete = true) (hbs : bs = consumed ++ rest)
    (hfront : front <+: consumed) (hne : front ≠ consumed) :
    (front = [] → read .finished front = (.ok none, [])) ∧
      ((Layout.of bs).head <+: front → read .finished front = (.error .bodyCutShort, [])) ∧
      (front ≠ [] → ¬ (Layout.of bs).head <+: front →
        (∃ whole line after cut, (Layout.of bs).headLines = whole ++ line :: after ∧
          cut <+: line ∧ cut ≠ line ∧ front = whole.flatten ++ cut ∧
            Bytes.lines front = whole ++ if cut = [] then [] else [cut]) ∧
        (∀ found rest', read .finished front = (.ok (some found), rest') ↔
          found.IsOfLines (Bytes.lines front) ∧ rest' = []) ∧
        ((∀ found : Request, ¬ found.IsOfLines (Bytes.lines front)) →
          ∃ error, (read .finished front).1 = .error error)) ∧
      ((Layout.of bs).blank? = some Bytes.crlf →
        front = (Layout.of bs).first ++ (Layout.of bs).fieldLines.flatten ++ [Bytes.cr] →
          ∃ error, (read .finished front).1 = .error error) := by
  obtain ⟨hbsNe, first, fields, body, hholds, hlength, rfl⟩ := exists_of_read_complete hread hbs
  refine ⟨?nothing, ?body, ?head, ?blank⟩
  case nothing =>
    rintro rfl
    rfl
  case body =>
    rintro ⟨cut, rfl⟩
    have hcut : cut <+: body := (List.prefix_append_right_inj _).1 hfront
    have hcutNe : cut.length ≠ body.length := fun h => hne (by rw [hcut.eq_of_length h])
    exact read_of_cut_body hcomplete hholds hlength (Nat.lt_of_le_of_ne hcut.length_le hcutNe)
  case head =>
    intro hfrontNe hnot
    have hhead : front <+: (Layout.of bs).head :=
      (List.prefix_or_prefix_of_prefix hfront (List.prefix_append _ body)).resolve_right hnot
    have hheadNe : front ≠ (Layout.of bs).head := fun h => hnot (h ▸ List.prefix_rfl)
    obtain ⟨line, others, hlines, hlayout⟩ :=
      Layout.of_cut hbsNe hcomplete hhead hheadNe hfrontNe
    exact ⟨Layout.lines_of_cut hbsNe hcomplete hhead hheadNe, read_of_cut_head hlines hlayout⟩
  case blank =>
    rintro hblank rfl
    exact read_of_cut_blank hbsNe hblank

/-- A request with a body of two bytes cut behind its first byte, and cut behind its first line:
there it becomes a request without a body. -/
theorem read_of_two_cuts :
    ∃ headers,
      read .finished (Utf8.encode "POST / HTTP/1.1\r\nContent-Length: 2\r\n\r\nok!") =
        (.ok (some ⟨.post, "/", "HTTP/1.1", headers, Utf8.encode "ok", none, none⟩),
          Utf8.encode "!") ∧
      read .finished (Utf8.encode "POST / HTTP/1.1\r\nContent-Length: 2\r\n\r\no") =
        (.error .bodyCutShort, []) ∧
      read .finished (Utf8.encode "POST / HTTP/1.1\r\n") =
        (.ok (some ⟨.post, "/", "HTTP/1.1", .ofFields [], [], none, none⟩), []) := by
  generalize hbs : Utf8.encode "POST / HTTP/1.1\r\nContent-Length: 2\r\n\r\nok!" = bs
  have hholds : (Layout.of bs).Holds ⟨.post, "/", "HTTP/1.1"⟩ [⟨"Content-Length", "2"⟩] := by
    rw [Layout.holds_iff, ← hbs]
    decide +kernel
  have hlength : Field.Announce [⟨"Content-Length", "2"⟩] (Utf8.encode "ok").length :=
    ((Field.bodyLength_iff _).1 _).1 (by decide +kernel)
  have hbody : (Layout.of bs).rest = Utf8.encode "ok" ++ Utf8.encode "!" := by
    rw [← hbs]
    decide +kernel
  have hread := (IsIn.body hholds hlength hbody).read_eq
  have hcomplete : (Layout.of bs).isComplete = true := by
    rw [← hbs]
    decide +kernel
  have hconsumed : bs =
      Utf8.encode "POST / HTTP/1.1\r\nContent-Length: 2\r\n\r\nok" ++ Utf8.encode "!" := by
    rw [← hbs]
    decide +kernel
  have hhead : (Layout.of bs).head <+:
      Utf8.encode "POST / HTTP/1.1\r\nContent-Length: 2\r\n\r\no" := by
    rw [← hbs]
    decide +kernel
  have hnot : ¬ (Layout.of bs).head <+: Utf8.encode "POST / HTTP/1.1\r\n" := by
    rw [← hbs]
    decide +kernel
  have hline : (⟨.post, "/", "HTTP/1.1"⟩ : RequestLine).IsIn
      (Utf8.encode "POST / HTTP/1.1\r\n") :=
    ((RequestLine.ofLine_iff _).1 _).1 (by decide +kernel)
  have hlines : Bytes.lines (Utf8.encode "POST / HTTP/1.1\r\n") =
      [Utf8.encode "POST / HTTP/1.1\r\n"] := by
    decide +kernel
  have hbodyCut := @read_of_cut bs
    (Utf8.encode "POST / HTTP/1.1\r\nContent-Length: 2\r\n\r\no") _ _ _ hread hcomplete hconsumed
    (by decide +kernel) (by decide +kernel)
  have hheadCut := @read_of_cut bs (Utf8.encode "POST / HTTP/1.1\r\n") _ _ _ hread hcomplete
    hconsumed (by decide +kernel) (by decide +kernel)
  refine ⟨_, hread, hbodyCut.2.1 hhead,
    ((hheadCut.2.2.1 (by decide +kernel) hnot).2.1 _ _).2 ⟨?_, rfl⟩⟩
  exact ⟨_, [], _, [], hlines, hline, .nil, .nothing (by simp), rfl⟩

/-- Not every cut is noticed: a request without a body is read the same without its blank line. -/
theorem not_forall_cut_noticed :
    ¬ ∀ (bs consumed rest front : Bytes) (request : Request),
      read .finished bs = (.ok (some request), rest) → (Layout.of bs).isComplete = true →
        bs = consumed ++ rest → front <+: consumed → front ≠ consumed →
          (front = [] → (read .finished front).1 = .ok none) ∧
            (front ≠ [] → ∃ error, (read .finished front).1 = .error error) := by
  intro h
  have hwhole : IsIn (Utf8.encode "GET / HTTP/1.1\r\n\r\n") _ [] :=
    @IsIn.body _ ⟨.get, "/", "HTTP/1.1"⟩ [] [] [] (Layout.holds_iff.2 (by decide +kernel))
      (.nothing (by simp)) (by decide +kernel)
  have hcut : IsIn (Utf8.encode "GET / HTTP/1.1\r\n") _ [] :=
    @IsIn.body _ ⟨.get, "/", "HTTP/1.1"⟩ [] [] [] (Layout.holds_iff.2 (by decide +kernel))
      (.nothing (by simp)) (by decide +kernel)
  obtain ⟨error, herror⟩ := (h _ (Utf8.encode "GET / HTTP/1.1\r\n\r\n") []
    (Utf8.encode "GET / HTTP/1.1\r\n") _ hwhole.read_eq (by decide +kernel)
    (List.append_nil _).symm (by decide +kernel) (by decide +kernel)).2 (by decide +kernel)
  rw [hcut.read_eq] at herror
  cases herror

end Request

end Http

end WireBench
