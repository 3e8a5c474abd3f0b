import WireBench.Proofs.LineReading
import WireBench.Proofs.RequestStream

/-!
# Where messages end

Reading takes exactly one message from the front of an input: the lines up to the one at fault, or
the header section and the body that it announces. Where the end of a message shows in the message
itself, what follows has no influence on how it is read.
-/

namespace WireBench.Http

open WireBench.Transport

/-- The first line at fault of a request, with the lines before it: the first of all if it makes no
request, or else the first header line that holds no field. -/
inductive Layout.FaultAt (layout : Layout) : List Bytes → Bytes → Prop where
  | first (h : RequestLine.ofLine? layout.first = none) : FaultAt layout [] layout.first
  | field {first : RequestLine} {before after : List Bytes} {line : Bytes} {fields : List Field}
      (hfirst : RequestLine.ofLine? layout.first = some first)
      (hlines : layout.fieldLines = before ++ line :: after)
      (hbefore : before.mapM Field.ofLine? = some fields)
      (hline : Field.ofLine? line = none) : FaultAt layout (layout.first :: before) line

/-- Whether the front of an input settles what is read from it: the result is the same whatever
follows, and all that follows remains. -/
def Request.Settles (front : Bytes) (result : Except ReadError (Option Request)) : Prop :=
  ∀ ending rest, Request.read ending (front ++ rest) = (result, rest)

namespace Layout

variable {bs blank : Bytes}

/-- The lines of a request are its first line, its header lines, the blank line if there is one, and
the lines of what follows. -/
theorem lines_eq (hbs : bs ≠ []) :
    ∃ after, Bytes.lines bs =
        (of bs).first :: ((of bs).fieldLines ++ ((of bs).blank?.toList ++ after)) ∧
      (of bs).rest = after.flatten ∧ ((of bs).blank? = none → after = []) := by
  obtain ⟨l, ls, hlines⟩ : ∃ l ls, Bytes.lines bs = l :: ls :=
    ⟨_, _, Bytes.lines_of_ne_nil hbs⟩
  refine ⟨(ls.dropWhile fun line => !isBlankLine line).drop 1, ?_, ?_, ?_⟩
  · have hhead : (ls.dropWhile fun line => !isBlankLine line).head?.toList ++
        (ls.dropWhile fun line => !isBlankLine line).drop 1 =
          ls.dropWhile fun line => !isBlankLine line := by
      cases ls.dropWhile fun line => !isBlankLine line <;> rfl
    simp only [of, hlines, List.headD_cons, List.drop_one, List.tail_cons]
    rw [List.drop_one] at hhead
    rw [hhead, List.takeWhile_append_dropWhile]
  · simp only [of, hlines, List.drop_one, List.tail_cons]
  · simp only [of, hlines, List.drop_one, List.tail_cons, List.head?_eq_none_iff]
    intro hnil
    rw [hnil, List.tail_nil]

theorem first_ne_nil (hbs : bs ≠ []) : (of bs).first ≠ [] := by
  simp only [of, Bytes.lines_of_ne_nil hbs, List.headD_cons]
  exact Bytes.cutLine_fst_ne_nil hbs

theorem isBlankLine_of_blank? (h : (of bs).blank? = some blank) : isBlankLine blank = true := by
  have hnot := List.head?_dropWhile_not (fun line => !isBlankLine line) ((Bytes.lines bs).drop 1)
  simp only [of] at h
  rw [h] at hnot
  simpa using hnot

theorem isBlankLine_fieldLines (bs : Bytes) : ∀ l ∈ (of bs).fieldLines, isBlankLine l = false := by
  intro l hl
  simpa using List.all_eq_true.1 List.all_takeWhile l hl

end Layout

namespace Request

variable {ending : Ending} {bs rest rest' : Bytes} {line : Bytes} {first : RequestLine}

theorem exactly_append (ending : Ending) (body rest : Bytes) :
    Reading.exactly ending body.length (body ++ rest) = (.ok body, rest) := by
  simp [Reading.exactly]

theorem read_eq_of_ne_nil (hbs : bs ≠ []) :
    read ending bs = match Reading.line ending bs with
      | (.error e, rest) => (.error e, rest)
      | (.ok line, rest) =>
        match RequestLine.ofText line with
        | .error e => (.error e, rest)
        | .ok first =>
          match first.readRest ending rest with
          | (.error e, rest') => (.error e, rest')
          | (.ok request, rest') => (.ok (some request), rest') := by
  rw [read]
  exact if_neg fun h => hbs h.1

/-- Behind a first line that makes a request, the fields and the body are read, and behind one that
makes none nothing is. -/
theorem read_line (hline : Reading.IsLine ending line rest) :
    read ending (line ++ rest) = match Reading.ofLine RequestLine.ofText line with
      | .ok first => ((first.readRest ending rest).1.map some, (first.readRest ending rest).2)
      | .error error => (.error error, rest) := by
  rw [read_eq_of_ne_nil (by simp [hline.ne_nil]), hline.line_eq, Reading.ofLine]
  cases Utf8.decode? line with
  | none => rfl
  | some text =>
    cases hof : RequestLine.ofText text with
    | error error => simp only [hof]
    | ok first =>
      simp only [hof]
      rcases first.readRest ending rest with ⟨_ | request, rest'⟩ <;> rfl

theorem read_first (hfirst : RequestLine.ofLine? line = some first)
    (hline : Reading.IsLine ending line rest) :
    read ending (line ++ rest) =
      ((first.readRest ending rest).1.map some, (first.readRest ending rest).2) := by
  rw [read_line hline, (RequestLine.isIn_iff.2 hfirst).ofLine_eq]

end Request

namespace Layout

variable {bs : Bytes}

theorem faultAt_iff {layout : Layout} {before : List Bytes} {line : Bytes} :
    layout.FaultAt before line ↔ ∃ error, layout.Blames before line error := by
  constructor
  · rintro (h | ⟨hfirst, hlines, hbefore, hline⟩)
    · obtain ⟨error, herror⟩ := RequestLine.exists_complaint_iff.2 h
      exact ⟨error, .first herror⟩
    · obtain ⟨error, herror⟩ := Field.exists_complaint_iff.2 hline
      exact ⟨error, .field (RequestLine.isIn_iff.2 hfirst) hlines
        (Field.forall₂_isIn_iff.2 hbefore) herror⟩
  · rintro ⟨error, h | ⟨hfirst, hlines, hbefore, hline⟩⟩
    · exact .first (RequestLine.exists_complaint_iff.1 ⟨error, h⟩)
    · exact .field (RequestLine.isIn_iff.1 hfirst) hlines (Field.forall₂_isIn_iff.1 hbefore)
        (Field.exists_complaint_iff.1 ⟨error, hline⟩)

theorem holds_iff {layout : Layout} {first : RequestLine} {fields : List Field} :
    layout.Holds first fields ↔ RequestLine.ofLine? layout.first = some first ∧
      layout.fieldLines.mapM Field.ofLine? = some fields := by
  rw [← RequestLine.isIn_iff, ← Field.forall₂_isIn_iff]
  exact ⟨fun h => ⟨h.first, h.fields⟩, fun h => ⟨h.1, h.2⟩⟩

theorem Holds.headers?_eq {layout : Layout} {first : RequestLine} {fields : List Field}
    (h : layout.Holds first fields) : layout.headers? = some (.ofFields fields) := by
  rw [headers?, (holds_iff.1 h).2, Option.map_some]

/-- The lines up to the one at fault stand at the front of the input, and reading stops behind them
with the complaint about it, whatever follows. -/
theorem Blames.read {before : List Bytes} {line : Bytes} {error : ReadError} (hbs : bs ≠ [])
    (h : (of bs).Blames before line error) :
    ∃ after, Bytes.lines bs = (before ++ [line]) ++ after ∧
      ∀ (ending : Ending) (rest : Bytes), Reading.AreLines ending (before ++ [line]) rest →
        Request.read ending (before.flatten ++ line ++ rest) = (.error error, rest) := by
  obtain ⟨others, hlines, -⟩ := lines_eq hbs
  cases h with
  | first h =>
    refine ⟨_, hlines, fun ending rest hls => ?_⟩
    have hread := Request.read_line hls.1
    rwa [h.ofLine_eq] at hread
  | @field first fields before after line _ hfirst hfields hbefore hline =>
    have hblank := isBlankLine_fieldLines bs
    rw [hfields, List.forall_mem_append, List.forall_mem_cons] at hblank
    obtain ⟨hblanks, hlineblank, -⟩ := hblank
    refine ⟨after ++ ((of bs).blank?.toList ++ others), ?_, ?_⟩
    · rw [hlines, hfields]
      simp
    · intro ending rest hls
      obtain ⟨hfirstLine, hls⟩ := hls
      obtain ⟨hls, hlast, -⟩ := Reading.areLines_append.1 hls
      have hlast : Reading.IsLine ending line rest := by simpa using hlast
      have hheaders : Headers.read ending (before.flatten ++ (line ++ rest)) =
          (.error error, rest) := by
        rw [Headers.read, Headers.readFrom_lines (by simpa using hls) hblanks hbefore,
          Headers.readFrom_line hlineblank hlast, hline.ofLine_eq]
      have hrest : first.readRest ending (before.flatten ++ (line ++ rest)) =
          (.error error, rest) := by
        simp only [RequestLine.readRest, hheaders]
      have hfirstLine : Reading.IsLine ending (of bs).first
          (before.flatten ++ (line ++ rest)) := by
        simpa using hfirstLine
      have hwhole := Request.read_line hfirstLine
      simp only [hfirst.ofLine_eq, hrest] at hwhole
      simpa [Except.map] using hwhole

/-- Either some line is at fault, or the first line makes a request and every header line holds a
field. -/
theorem faultAt_or (layout : Layout) :
    (∃ before line, layout.FaultAt before line) ∨
      ∃ first headers, RequestLine.ofLine? layout.first = some first ∧
        layout.headers? = some headers := by
  rcases layout.blames_or_holds with ⟨before, line, error, h⟩ | ⟨first, fields, h⟩
  · exact .inl ⟨before, line, faultAt_iff.2 ⟨error, h⟩⟩
  · exact .inr ⟨first, .ofFields fields, (holds_iff.1 h).1, h.headers?_eq⟩

/-- A header section without fault is read to its end, whether that is a blank line, whatever
follows it, or the end of the input. -/
theorem read_headers {headers : Headers} {ending : Ending} {rest : Bytes} (hbs : bs ≠ [])
    (hheaders : (of bs).headers? = some headers)
    (hend : (of bs).isComplete = true ∨ (of bs).rest = rest ∧ ending = .finished) :
    ∃ behind, (of bs).head ++ rest = (of bs).first ++ behind ∧
      Reading.IsLine ending (of bs).first behind ∧
        Headers.read ending behind = (.ok headers, rest) := by
  obtain ⟨after, hlines, hafter, hnone⟩ := lines_eq hbs
  obtain ⟨fields, hfields, rfl⟩ := Option.map_eq_some_iff.1 hheaders
  have hback : Reading.AreLines ending ((of bs).first :: (of bs).fieldLines)
      ((of bs).blank?.getD [] ++ rest) ∧ ∀ headers : Headers,
        Headers.readFrom ending headers ((of bs).blank?.getD [] ++ rest) = (.ok headers, rest) := by
    cases hblank : (of bs).blank? with
    | some blank =>
      have hline := isBlankLine_of_blank? hblank
      rw [hblank] at hlines
      have hls := @Reading.areLines_of_lines bs ((of bs).first :: (of bs).fieldLines) _ hlines
      have hended := hls.isEnded (by simp [(isEnded_of_isBlankLine hline).ne_nil])
      exact ⟨Reading.areLines_of_isEnded hended ending _,
        fun headers => Headers.readFrom_blankLine hline headers ending rest⟩
    | none =>
      -- Without a blank line the section ends where the input does, and its last line need not have
      -- a line feed; so the lines are those of the input itself.
      have hincomplete : ¬ (of bs).isComplete = true := by simp [isComplete, hblank]
      obtain ⟨rfl, rfl⟩ := hend.resolve_left hincomplete
      obtain rfl := hnone hblank
      rw [hblank] at hlines
      have hls := @Reading.areLines_of_lines bs ((of bs).first :: (of bs).fieldLines) _ hlines
      rw [hafter]
      exact ⟨hls, fun headers => Headers.readFrom_blank Reading.line_nil (by decide)⟩
  obtain ⟨⟨hfirstLine, hls⟩, hend⟩ := hback
  refine ⟨_, ?_, hfirstLine, ?_⟩
  · simp only [head, List.append_assoc]
  · rw [Headers.read, Headers.readFrom_lines hls (isBlankLine_fieldLines bs)
      (Field.forall₂_isIn_iff.2 hfields)]
    exact hend _

section

variable {first : RequestLine} {headers : Headers} {ending : Ending} {rest : Bytes} (hbs : bs ≠ [])
  (hfirst : RequestLine.ofLine? (of bs).first = some first)
  (hheaders : (of bs).headers? = some headers)
  (hend : (of bs).isComplete = true ∨ (of bs).rest = rest ∧ ending = .finished)

include hbs hfirst hheaders hend

theorem read_of_bodyLength_error {error : ReadError} (hlength : headers.bodyLength = .error error) :
    Request.read ending ((of bs).head ++ rest) = (.error error, rest) := by
  obtain ⟨behind, hshape, hline, hread⟩ := read_headers hbs hheaders hend
  rw [hshape, Request.read_first hfirst hline]
  simp only [RequestLine.readRest, hread, hlength]
  rfl

theorem read_of_bodyLength {n : Nat} (hlength : headers.bodyLength = .ok n) :
    Request.read ending ((of bs).head ++ rest) =
      ((Reading.exactly ending n rest).1.map fun body =>
        some { method := first.method, target := first.target, version := first.version,
               headers := headers, body := body }, (Reading.exactly ending n rest).2) := by
  obtain ⟨behind, hshape, hline, hread⟩ := read_headers hbs hheaders hend
  rw [hshape, Request.read_first hfirst hline]
  simp only [RequestLine.readRest, hread, hlength]
  rcases Reading.exactly ending n rest with ⟨_ | body, rest'⟩ <;> rfl

end

end Layout

namespace Request

variable {bs : Bytes}

/-- Reading takes the lines up to the one at fault, and if that one has its line feed, they settle
the result: the complaint about it. -/
theorem read_of_blames {before : List Bytes} {line : Bytes} {error : ReadError} (hbs : bs ≠ [])
    (h : (Layout.of bs).Blames before line error) :
    ∃ rest, bs = before.flatten ++ line ++ rest ∧ read .finished bs = (.error error, rest) ∧
      (Bytes.isTerminated line = true → Settles (before.flatten ++ line) (.error error)) := by
  obtain ⟨after, hlines, hread⟩ := h.read hbs
  have hls := Reading.areLines_of_lines hlines
  have hshape : bs = before.flatten ++ line ++ after.flatten := by
    rw [← Bytes.flatten_lines bs, hlines]
    simp
  refine ⟨after.flatten, hshape, ?_, ?_⟩
  · conv => lhs; rw [hshape]
    exact hread .finished after.flatten hls
  · intro hline ending rest
    exact hread ending rest
      (Reading.areLines_of_isEnded (hls.isEnded_of_isTerminated hline) ending rest)

theorem read_of_faultAt {before : List Bytes} {line : Bytes} (hbs : bs ≠ [])
    (h : (Layout.of bs).FaultAt before line) :
    ∃ error rest, error.kind = .invalidData ∧ bs = before.flatten ++ line ++ rest ∧
      read .finished bs = (.error error, rest) ∧
        (Bytes.isTerminated line = true → Settles (before.flatten ++ line) (.error error)) := by
  obtain ⟨error, herror⟩ := Layout.faultAt_iff.1 h
  obtain ⟨rest, hread⟩ := read_of_blames hbs herror
  exact ⟨error, rest, herror.kind_eq, hread⟩

variable {first : RequestLine} {headers : Headers}

theorem read_of_badLength {error : ReadError} (hbs : bs ≠ [])
    (hfirst : RequestLine.ofLine? (Layout.of bs).first = some first)
    (hheaders : (Layout.of bs).headers? = some headers)
    (hlength : headers.bodyLength = .error error) :
    read .finished bs = (.error error, (Layout.of bs).rest) ∧
      ((Layout.of bs).isComplete = true → Settles (Layout.of bs).head (.error error)) := by
  constructor
  · have hread := Layout.read_of_bodyLength_error hbs hfirst hheaders (.inr ⟨rfl, rfl⟩) hlength
    rwa [Layout.head_append_rest] at hread
  · intro hcomplete ending rest
    exact Layout.read_of_bodyLength_error hbs hfirst hheaders (.inl hcomplete) hlength

/-- Reading takes the header section and the body, or all that there is if the body is cut short. -/
theorem read_of_body {n : Nat} (hbs : bs ≠ [])
    (hfirst : RequestLine.ofLine? (Layout.of bs).first = some first)
    (hheaders : (Layout.of bs).headers? = some headers) (hlength : headers.bodyLength = .ok n) :
    ((Layout.of bs).rest.length < n ∧ read .finished bs = (.error .bodyCutShort, [])) ∨
      ∃ request body rest, (Layout.of bs).rest = body ++ rest ∧
        read .finished bs = (.ok (some request), rest) ∧
          ((Layout.of bs).isComplete = true →
            Settles ((Layout.of bs).head ++ body) (.ok (some request))) := by
  have hread := Layout.read_of_bodyLength hbs hfirst hheaders (.inr ⟨rfl, rfl⟩) hlength
  rw [Layout.head_append_rest] at hread
  by_cases hn : n ≤ (Layout.of bs).rest.length
  · right
    refine ⟨{ method := first.method, target := first.target, version := first.version,
              headers := headers, body := (Layout.of bs).rest.take n },
      (Layout.of bs).rest.take n, (Layout.of bs).rest.drop n,
      (List.take_append_drop n _).symm, ?_, ?_⟩
    · rw [hread, Reading.exactly, if_pos hn]
      rfl
    · intro hcomplete ending rest
      have htake : ((Layout.of bs).rest.take n).length = n := List.length_take_of_le hn
      have hexactly := exactly_append ending ((Layout.of bs).rest.take n) rest
      rw [htake] at hexactly
      rw [List.append_assoc,
        Layout.read_of_bodyLength hbs hfirst hheaders (.inl hcomplete) hlength, hexactly]
      rfl
  · left
    refine ⟨Nat.lt_of_not_le hn, ?_⟩
    simp only [hread, Reading.exactly, if_neg hn]
    rfl

/-- Reading an input that is not empty takes something of it, and finds something. -/
theorem read_progress (hbs : bs ≠ []) :
    (read .finished bs).1 ≠ .ok none ∧ (read .finished bs).2.length < bs.length := by
  have hfirst := Layout.first_ne_nil hbs
  rcases Layout.faultAt_or (Layout.of bs) with
    ⟨before, line, h⟩ | ⟨first, headers, hmakes, hheaders⟩
  · obtain ⟨error, rest, -, hshape, hread, -⟩ := read_of_faultAt hbs h
    have hfront : before.flatten ++ line ≠ [] := by
      cases h <;> simp [hfirst]
    have hpos := List.length_pos_iff.2 hfront
    have hlen := congrArg List.length hshape
    rw [List.length_append] at hlen
    rw [hread]
    exact ⟨by simp, by simp only; omega⟩
  · have hlen : (Layout.of bs).rest.length < bs.length := by
      have hsplit := congrArg List.length (Layout.head_append_rest bs)
      have hpos := List.length_pos_iff.2 hfirst
      simp only [List.length_append, Layout.head] at hsplit
      omega
    cases hlength : headers.bodyLength with
    | error error =>
      rw [(read_of_badLength hbs hmakes hheaders hlength).1]
      exact ⟨by simp, hlen⟩
    | ok n =>
      rcases read_of_body hbs hmakes hheaders hlength with ⟨-, hread⟩ |
        ⟨request, body, rest, hbody, hread, -⟩
      · rw [hread]
        exact ⟨by simp, List.length_pos_iff.2 hbs⟩
      · rw [hread]
        rw [hbody, List.length_append] at hlen
        exact ⟨by simp, by simp only; omega⟩

/-- Reading again and again, after errors too, comes to the end of the input. -/
theorem readTimes_end (bs : Bytes) :
    ∃ n ≤ bs.length, ∃ results, .ok none ∉ results ∧
      readTimes .finished (n + 1) bs = (results ++ [.ok none], []) := by
  by_cases hbs : bs = []
  · subst hbs
    exact ⟨0, Nat.le_refl 0, [], by simp, rfl⟩
  · obtain ⟨hfound, hless⟩ := read_progress hbs
    obtain ⟨n, hn, results, hresults, hread⟩ := readTimes_end (read .finished bs).2
    refine ⟨n + 1, Nat.le_trans (Nat.succ_le_succ hn) hless,
      (read .finished bs).1 :: results, ?_, ?_⟩
    · rw [List.mem_cons, not_or]
      exact ⟨fun h => hfound h.symm, hresults⟩
    · exact readTimes_succ rfl hread
termination_by bs.length

/-- Reading takes a front of the input, which is empty only where the input is, and then nothing is
found; so reading again and again comes to the end of the input. If a request is found, or the
length of its body is not to be understood, and a blank line ends the header section, or if the line
at fault has its line feed, then what was taken settles the result, whatever follows it; and an
error takes the lines up to the one at fault, or the header section if no line is. -/
theorem read_settled (bs : Bytes) :
    ∃ consumed rest result, read .finished bs = (result, rest) ∧ bs = consumed ++ rest ∧
      (consumed = [] ↔ result = .ok none) ∧ (result = .ok none ↔ bs = []) ∧
      (∃ n ≤ bs.length, ∃ results, .ok none ∉ results ∧
        readTimes .finished (n + 1) bs = (results ++ [.ok none], [])) ∧
      (∀ request, result = .ok (some request) → (Layout.of bs).isComplete = true →
        Settles consumed result) ∧
      (∀ error, result = .error error → error.kind = .invalidData →
        (∃ before line, (Layout.of bs).FaultAt before line ∧ consumed = before.flatten ++ line ∧
          (Bytes.isTerminated line = true → Settles consumed result)) ∨
        (∃ first headers, RequestLine.ofLine? (Layout.of bs).first = some first ∧
          (Layout.of bs).headers? = some headers ∧ headers.bodyLength = .error error ∧
          consumed = (Layout.of bs).head ∧
          ((Layout.of bs).isComplete = true → Settles consumed result))) := by
  have hend := readTimes_end bs
  by_cases hbs : bs = []
  · subst hbs
    exact ⟨[], [], .ok none, rfl, rfl, by simp, by simp, hend, by simp, by simp⟩
  obtain ⟨hfound, hless⟩ := read_progress hbs
  have hfinds : ∀ {consumed rest result}, read .finished bs = (result, rest) →
      bs = consumed ++ rest →
        (consumed = [] ↔ result = .ok none) ∧ (result = .ok none ↔ bs = []) := by
    intro consumed rest result hread hshape
    rw [hread] at hfound hless
    have hconsumed : consumed ≠ [] := by
      rintro rfl
      rw [hshape] at hless
      exact Nat.lt_irrefl _ hless
    exact ⟨iff_of_false hconsumed hfound, iff_of_false hfound hbs⟩
  rcases Layout.faultAt_or (Layout.of bs) with
    ⟨before, line, h⟩ | ⟨first, headers, hfirst, hheaders⟩
  · obtain ⟨error, rest, hkind, hshape, hread, hsettles⟩ := read_of_faultAt hbs h
    obtain ⟨hnone, hempty⟩ := hfinds hread hshape
    refine ⟨_, rest, _, hread, hshape, hnone, hempty, hend, by simp, ?_⟩
    intro _ _ _
    exact .inl ⟨before, line, h, rfl, hsettles⟩
  · cases hlength : headers.bodyLength with
    | error error =>
      obtain ⟨hread, hsettles⟩ := read_of_badLength hbs hfirst hheaders hlength
      have hshape := (Layout.head_append_rest bs).symm
      obtain ⟨hnone, hempty⟩ := hfinds hread hshape
      refine ⟨_, _, _, hread, hshape, hnone, hempty, hend, by simp, ?_⟩
      rintro _ ⟨⟩ _
      exact .inr ⟨first, headers, hfirst, hheaders, hlength, rfl, hsettles⟩
    | ok n =>
      rcases read_of_body hbs hfirst hheaders hlength with ⟨-, hread⟩ |
        ⟨request, body, rest, hbody, hread, hsettles⟩
      · have hshape : bs = bs ++ [] := (List.append_nil bs).symm
        obtain ⟨hnone, hempty⟩ := hfinds hread hshape
        refine ⟨bs, [], _, hread, hshape, hnone, hempty, hend, by simp, ?_⟩
        rintro _ ⟨⟩ ⟨⟩
      · have hshape : bs = (Layout.of bs).head ++ body ++ rest := by
          rw [List.append_assoc, ← hbody, Layout.head_append_rest]
        obtain ⟨hnone, hempty⟩ := hfinds hread hshape
        exact ⟨_, rest, _, hread, hshape, hnone, hempty, hend, fun _ _ => hsettles, by simp⟩

end Request

end WireBench.Http
