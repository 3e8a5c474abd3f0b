import WireBench.Proofs.RequestGrammar

/-!
# Reading line by line

A line is told apart from what follows it by its line feed, and the last one by the end of the
input. Lines that are told apart so are read one after the other, each with the same result wherever
it stands, and the header section is read as the fields that its lines hold.
-/

namespace WireBench

namespace Bytes

/-- Whether a byte string is one line with its line feed. -/
def IsEnded (l : Bytes) : Prop :=
  ∃ text, lf ∉ text ∧ l = text ++ [lf]

theorem IsEnded.cutLine_append {l : Bytes} (h : IsEnded l) (rest : Bytes) :
    cutLine (l ++ rest) = (l, rest) := by
  obtain ⟨text, htext, rfl⟩ := h
  rw [List.append_assoc]
  exact cutLine_append_lf htext rest

theorem IsEnded.ne_nil {l : Bytes} (h : IsEnded l) : l ≠ [] := by
  obtain ⟨text, -, rfl⟩ := h
  simp

theorem IsEnded.isTerminated {l : Bytes} (h : IsEnded l) : isTerminated l = true := by
  obtain ⟨text, -, rfl⟩ := h
  simp [Bytes.isTerminated]

theorem cutLine_of_not_mem {l : Bytes} (h : lf ∉ l) : cutLine l = (l, []) := by
  induction l with
  | nil => rfl
  | cons b bs ih =>
    rw [List.mem_cons, not_or] at h
    rw [cutLine_cons_of_ne (Ne.symm h.1), ih h.2]

theorem isEnded_cutLine_or (bs : Bytes) :
    IsEnded (cutLine bs).1 ∨ (lf ∉ bs ∧ cutLine bs = (bs, [])) := by
  induction bs with
  | nil => exact .inr ⟨by simp, rfl⟩
  | cons b bs ih =>
    by_cases hb : b = lf
    · subst hb
      exact .inl ⟨[], by simp, by simp [cutLine]⟩
    · rw [cutLine_cons_of_ne hb]
      rcases ih with ⟨text, htext, hl⟩ | ⟨hbs, hcut⟩
      · exact .inl ⟨b :: text, by simp [htext, Ne.symm hb], by simp [hl]⟩
      · exact .inr ⟨by simp [hbs, Ne.symm hb], by rw [hcut]⟩

theorem lf_not_mem_dropLast_cutLine (bs : Bytes) : lf ∉ (cutLine bs).1.dropLast := by
  rcases isEnded_cutLine_or bs with ⟨text, htext, hline⟩ | ⟨hbs, hcut⟩
  · rwa [hline, List.dropLast_concat]
  · rw [hcut]
    exact fun h => hbs (List.dropLast_subset bs h)

end Bytes

namespace Http

open WireBench.Text WireBench.Transport

namespace Reading

/-- Whether a line is told apart from what follows it: it has its line feed, or it is the last one
of an input that is at its end. -/
def IsLine (ending : Ending) (l rest : Bytes) : Prop :=
  Bytes.IsEnded l ∨ (Bytes.lf ∉ l ∧ l ≠ [] ∧ rest = [] ∧ ending = .finished)

/-- Whether lines that stand one after the other are told apart from each other and from what
follows them. -/
def AreLines (ending : Ending) : List Bytes → Bytes → Prop
  | [], _ => True
  | l :: ls, rest => IsLine ending l (ls.flatten ++ rest) ∧ AreLines ending ls rest

variable {ending : Ending} {l rest : Bytes} {ls : List Bytes}

theorem IsLine.ne_nil (h : IsLine ending l rest) : l ≠ [] := by
  rcases h with h | ⟨-, h, -⟩
  · exact h.ne_nil
  · exact h

theorem IsLine.cutLine_append (h : IsLine ending l rest) :
    Bytes.cutLine (l ++ rest) = (l, rest) := by
  rcases h with h | ⟨hl, -, rfl, -⟩
  · exact h.cutLine_append rest
  · rw [List.append_nil]
    exact Bytes.cutLine_of_not_mem hl

theorem IsLine.line_eq (h : IsLine ending l rest) :
    line ending (l ++ rest) =
      (match Utf8.decode? l with | some text => .ok text | none => .error .notText, rest) := by
  have hcut := h.cutLine_append
  rcases h with h | ⟨-, -, -, rfl⟩
  · simp only [line, hcut, h.isTerminated]
    cases Utf8.decode? l <;> rfl
  · simp only [line, hcut]
    cases Bytes.isTerminated l <;> cases Utf8.decode? l <;> rfl

theorem line_nil : line .finished [] = (.ok "", []) := by
  have hdecode : Utf8.decode? [] = some "" := Utf8.decode?_eq_some_iff.2 (by decide)
  simp [line, Bytes.cutLine, hdecode]

theorem areLines_append {before after : List Bytes} :
    AreLines ending (before ++ after) rest ↔
      AreLines ending before (after.flatten ++ rest) ∧ AreLines ending after rest := by
  induction before with
  | nil => simp [AreLines]
  | cons l before ih => simp [AreLines, ih, and_assoc]

theorem areLines_of_isEnded (h : ∀ l ∈ ls, Bytes.IsEnded l) (ending : Ending) (rest : Bytes) :
    AreLines ending ls rest := by
  induction ls with
  | nil => trivial
  | cons l ls ih =>
    obtain ⟨hl, hls⟩ := List.forall_mem_cons.1 h
    exact ⟨.inl hl, ih hls⟩

theorem AreLines.isEnded (h : AreLines ending ls rest) (hrest : rest ≠ []) :
    ∀ l ∈ ls, Bytes.IsEnded l := by
  induction ls with
  | nil => simp
  | cons l ls ih =>
    obtain ⟨hl, hls⟩ := h
    refine List.forall_mem_cons.2 ⟨?_, ih hls⟩
    rcases hl with hl | ⟨-, -, hnil, -⟩
    · exact hl
    · exact absurd (List.append_eq_nil_iff.1 hnil).2 hrest

/-- Lines the last of which has a line feed all have one. -/
theorem AreLines.isEnded_of_isTerminated (h : AreLines ending (ls ++ [l]) rest)
    (hl : Bytes.isTerminated l = true) : ∀ l' ∈ ls ++ [l], Bytes.IsEnded l' := by
  obtain ⟨hls, hlast, -⟩ := areLines_append.1 h
  have hended : Bytes.IsEnded l := by
    rcases hlast with hlast | ⟨hlf, -⟩
    · exact hlast
    · simp only [Bytes.isTerminated, List.any_eq_true, beq_iff_eq, exists_eq_right] at hl
      exact absurd hl hlf
  have hbefore := hls.isEnded (by simp [hended.ne_nil])
  simpa [or_imp, forall_and] using ⟨hbefore, hended⟩

theorem areLines_of_lines {bs : Bytes} {before after : List Bytes}
    (h : Bytes.lines bs = before ++ after) : AreLines .finished before after.flatten := by
  induction before generalizing bs with
  | nil => trivial
  | cons l before ih =>
    have hne : bs ≠ [] := by
      rintro rfl
      simp [Bytes.lines] at h
    rw [Bytes.lines_of_ne_nil hne, List.cons_append] at h
    obtain ⟨rfl, hmore⟩ := List.cons.inj h
    refine ⟨?_, ih hmore⟩
    rcases Bytes.isEnded_cutLine_or bs with hl | ⟨hbs, hcut⟩
    · exact .inl hl
    · rw [hcut] at hmore ⊢
      have hnil : before ++ after = [] := hmore.symm
      refine .inr ⟨hbs, hne, ?_, rfl⟩
      rw [← List.flatten_append, hnil]
      rfl

end Reading

theorem isEnded_of_isBlankLine {l : Bytes} (h : isBlankLine l = true) : Bytes.IsEnded l := by
  rw [isBlankLine, Bool.or_eq_true, beq_iff_eq, beq_iff_eq] at h
  rcases h with rfl | rfl
  · exact ⟨[Bytes.cr], by decide, rfl⟩
  · exact ⟨[], by decide, rfl⟩

/-- The header section ends with a blank line or an empty one, which is the end of the input. -/
theorem endsSection_of_decode? {l : Bytes} {text : String} (h : Utf8.decode? l = some text) :
    endsSection text = (isBlankLine l || l.isEmpty) := by
  have hl : Utf8.encode text = l := Utf8.encode_of_decode? h
  have hlf : Utf8.encode "\n" = [Bytes.lf] := by decide
  have hnil : Utf8.encode "" = [] := by decide
  have hinj : ∀ s : String, text = s ↔ l = Utf8.encode s := by
    intro s
    constructor
    · rintro rfl
      exact hl.symm
    · rintro rfl
      rw [Utf8.decode?_encode] at h
      exact (Option.some.inj h).symm
  rw [Bool.eq_iff_iff]
  simp only [endsSection, isBlankLine, Bool.or_eq_true, beq_iff_eq, List.isEmpty_iff, hinj, hlf,
    hnil, Utf8.encode_crlf]

namespace Headers

variable {ending : Ending} {rest : Bytes}

theorem readFrom_of_line_error {headers : Headers} {bs : Bytes} {error : ReadError}
    (hline : Reading.line ending bs = (.error error, rest)) :
    readFrom ending headers bs = (.error error, rest) := by
  rw [readFrom]
  split
  · next h =>
    rw [hline] at h
    cases h
    rfl
  · next h =>
    rw [hline] at h
    cases h

theorem readFrom_of_field_error {headers : Headers} {bs : Bytes} {line : String}
    {error : ReadError} (hline : Reading.line ending bs = (.ok line, rest))
    (hends : endsSection line = false) (hfield : Field.ofText line = .error error) :
    readFrom ending headers bs = (.error error, rest) := by
  rw [readFrom]
  split
  · next h =>
    rw [hline] at h
    cases h
  · next h =>
    rw [hline] at h
    cases h
    simp only [hends, hfield, Bool.false_eq_true, dite_false]

theorem readFrom_line {l : Bytes} (hblank : isBlankLine l = false)
    (hl : Reading.IsLine ending l rest) (headers : Headers) :
    readFrom ending headers (l ++ rest) = match Reading.ofLine Field.ofText l with
      | .ok field => readFrom ending (headers.insert field) rest
      | .error error => (.error error, rest) := by
  have hline := hl.line_eq
  cases htext : Utf8.decode? l with
  | none =>
    rw [htext] at hline
    simp only [Reading.ofLine, htext, readFrom_of_line_error hline]
  | some text =>
    have hends : endsSection text = false := by
      simp [endsSection_of_decode? htext, hblank, hl.ne_nil]
    rw [htext] at hline
    cases hof : Field.ofText text with
    | error error =>
      simp only [Reading.ofLine, htext, hof, readFrom_of_field_error hline hends hof]
    | ok field => simp only [Reading.ofLine, htext, hof, readFrom_field hline hends hof]

/-- Lines that hold fields are passed over, and their fields are set one after the other. -/
theorem readFrom_lines {ls : List Bytes} {fields : List Field} (h : Reading.AreLines ending ls rest)
    (hblank : ∀ l ∈ ls, isBlankLine l = false) (hfields : List.Forall₂ Field.IsIn fields ls)
    (headers : Headers) :
    readFrom ending headers (ls.flatten ++ rest) =
      readFrom ending (fields.foldl (fun headers field => headers.insert field) headers) rest := by
  induction hfields generalizing headers with
  | nil => rfl
  | @cons field l fields ls hfield _ ih =>
    obtain ⟨hl, hls⟩ := h
    obtain ⟨hlblank, hlsblank⟩ := List.forall_mem_cons.1 hblank
    rw [List.flatten_cons, List.append_assoc, readFrom_line hlblank hl, hfield.ofLine_eq]
    exact ih hls hlsblank _

/-- A blank line ends the header section, whatever follows it. -/
theorem readFrom_blankLine {blank : Bytes} (h : isBlankLine blank = true) (headers : Headers)
    (ending : Ending) (rest : Bytes) :
    readFrom ending headers (blank ++ rest) = (.ok headers, rest) := by
  have hcases := h
  rw [isBlankLine, Bool.or_eq_true, beq_iff_eq, beq_iff_eq] at hcases
  obtain ⟨text, htext⟩ : ∃ text, Utf8.decode? blank = some text := by
    rcases hcases with rfl | rfl
    · exact ⟨"\r\n", by rw [← Utf8.encode_crlf, Utf8.decode?_encode]⟩
    · exact ⟨"\n", Utf8.decode?_eq_some_iff.2 (by decide)⟩
  have hline : Reading.IsLine ending blank rest := .inl (isEnded_of_isBlankLine h)
  have hread : Reading.line ending (blank ++ rest) = (.ok text, rest) := by
    rw [hline.line_eq, htext]
  have hends : endsSection text = true := by
    rw [endsSection_of_decode? htext, h, Bool.true_or]
  exact readFrom_blank hread hends

end Headers

end Http

end WireBench
