import WireBench.Proofs.MessageEnds

/-!
# Requests read by their grammar

Reading finds a request where the grammar has one, with what it goes on with behind the body, and
otherwise reports the complaint that the grammar has about the input: each input that is not empty
has one or the other.
-/

namespace WireBench.Http

open WireBench.Text WireBench.Transport

theorem Layout.Holds.ne_nil {bs : Bytes} {first : RequestLine} {fields : List Field}
    (h : (Layout.of bs).Holds first fields) : bs ≠ [] := by
  rintro rfl
  obtain ⟨text, word, more, htext, hwords, -⟩ := h.first
  have hempty : Utf8.encode text = Utf8.encode "" := htext
  have hdecode := congrArg Utf8.decode? hempty
  rw [Utf8.decode?_encode, Utf8.decode?_encode] at hdecode
  obtain rfl := Option.some.inj hdecode
  cases hwords

namespace Request

variable {bs rest : Bytes} {request : Request} {error : ReadError}

/-- A request that the input begins with is read, and what follows its body is left. -/
theorem IsIn.read_eq (h : IsIn bs request rest) :
    read .finished bs = (.ok (some request), rest) := by
  obtain @⟨first, fields, body, rest, hholds, hlength, hbody⟩ := h
  have hread := Layout.read_of_bodyLength hholds.ne_nil (Layout.holds_iff.1 hholds).1
    hholds.headers?_eq (.inr ⟨rfl, rfl⟩) (((Field.bodyLength_iff fields).1 _).2 hlength)
  rwa [Layout.head_append_rest, hbody, exactly_append] at hread

theorem Complaint.read_eq (h : Complaint bs error) : (read .finished bs).1 = .error error := by
  cases h with
  | line hbs h =>
    obtain ⟨rest, -, hread, -⟩ := read_of_blames hbs h
    rw [hread]
  | @length first fields _ hholds hlength =>
    have hread := read_of_badLength hholds.ne_nil (Layout.holds_iff.1 hholds).1
      hholds.headers?_eq (((Field.bodyLength_iff fields).2 _).2 hlength)
    rw [hread.1]
  | @cutShort first fields n hholds hlength hshort =>
    have hread := Layout.read_of_bodyLength hholds.ne_nil (Layout.holds_iff.1 hholds).1
      hholds.headers?_eq (.inr ⟨rfl, rfl⟩) (((Field.bodyLength_iff fields).1 _).2 hlength)
    rw [Layout.head_append_rest, Reading.exactly, if_neg (Nat.not_le_of_lt hshort)] at hread
    rw [hread]
    rfl

/-- An input that is not empty begins with a request, or there is a complaint about it. -/
theorem isIn_or_complaint (hbs : bs ≠ []) :
    (∃ request rest, IsIn bs request rest) ∨ ∃ error, Complaint bs error := by
  rcases (Layout.of bs).blames_or_holds with ⟨before, line, error, h⟩ | ⟨first, fields, hholds⟩
  · exact .inr ⟨error, .line hbs h⟩
  · rcases Field.announce_or_complaint fields with ⟨n, hlength⟩ | ⟨error, hlength⟩
    · by_cases hn : n ≤ (Layout.of bs).rest.length
      · have htake := List.length_take_of_le hn
        rw [← htake] at hlength
        exact .inl ⟨_, _, .body hholds hlength (List.take_append_drop n _).symm⟩
      · exact .inr ⟨_, .cutShort hholds hlength (Nat.lt_of_not_le hn)⟩
    · exact .inr ⟨error, .length hholds hlength⟩

theorem Complaint.kind_eq (h : Complaint bs error) :
    error.kind = if error = .bodyCutShort then .unexpectedEnd else .invalidData := by
  cases h with
  | line _ h =>
    have hkind := h.kind_eq
    cases error <;> first | exact hkind | cases hkind
  | length _ h => cases h <;> rfl
  | cutShort => rfl

/-- Nothing is found in the empty input and in no other. A request is read exactly from an input that
begins with it, and what follows its body is left. An error is reported exactly if it is the
complaint about the input, and only the one about a body cut short tells of an end that came too
early; the others tell of bad data. -/
theorem read_by_grammar (bs : Bytes) :
    ((read .finished bs).1 = .ok none ↔ bs = []) ∧
      (∀ request rest, read .finished bs = (.ok (some request), rest) ↔ IsIn bs request rest) ∧
      (∀ error, (read .finished bs).1 = .error error ↔ Complaint bs error) ∧
      ∀ error, Complaint bs error →
        error.kind = if error = .bodyCutShort then .unexpectedEnd else .invalidData := by
  have hresult := @result_iff _ _ (read .finished bs).1
    (fun found? => match found? with
      | none => bs = []
      | some request => ∃ rest, IsIn bs request rest)
    (Complaint bs) ?_ (fun error => Complaint.read_eq) ?_
  · obtain ⟨hfound, herror⟩ := hresult
    refine ⟨hfound none, fun request rest => ⟨fun hread => ?_, IsIn.read_eq⟩, herror,
      fun error => Complaint.kind_eq⟩
    obtain ⟨rest', h⟩ := (hfound (some request)).1 (by rw [hread])
    have hsame := h.read_eq.symm.trans hread
    obtain rfl : rest' = rest := congrArg Prod.snd hsame
    exact h
  · rintro (_ | request) h
    · subst h
      rfl
    · obtain ⟨rest, h⟩ := h
      rw [h.read_eq]
  · by_cases hbs : bs = []
    · exact .inl ⟨none, hbs⟩
    · rcases isIn_or_complaint hbs with ⟨request, rest, h⟩ | h
      · exact .inl ⟨some request, rest, h⟩
      · exact .inr h

end Request

end WireBench.Http
