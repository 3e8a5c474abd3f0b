import Mathlib.Data.List.Forall2
import WireBench.Http.Layout
import WireBench.Proofs.LastFields
import WireBench.Proofs.NumeralText

/-!
# The grammar of requests

What the lines of a request hold and what its fields announce, and the complaint about every line
and every length that do not belong to a request. What is told here without regard to how requests
are read agrees with what is read from a line and from the fields.
-/

namespace WireBench.Http

open WireBench.Text WireBench.Transport

/-- Whether a line makes this request: it is text of at least three words, of which the first in
capitals is the token of the method and the others tell the target and the version. -/
def RequestLine.IsIn (first : RequestLine) (line : Bytes) : Prop :=
  ∃ text word more, Utf8.encode text = line ∧
    words text = word :: first.target :: first.version :: more ∧
    inCapitals word = first.method.token

/-- What can be said against a line that should make a request. -/
inductive RequestLine.Complaint (line : Bytes) : ReadError → Prop where
  | notText (h : ∀ text, Utf8.encode text ≠ line) : Complaint line .notText
  | malformed {text : String} (htext : Utf8.encode text = line) (hwords : (words text).length < 3) :
      Complaint line (.malformedLine (trimEnd text))
  | unknownMethod {text word target version : String} {more : List String}
      (htext : Utf8.encode text = line)
      (hwords : words text = word :: target :: version :: more)
      (hmethod : ∀ method : Method, inCapitals word ≠ method.token) :
      Complaint line (.unknownMethod word)

/-- Whether a line holds this field: it is text with a colon, and the field is what stands before
and after the first one, without the blanks around it. -/
def Field.IsIn (field : Field) (line : Bytes) : Prop :=
  ∃ name value : String, Utf8.encode (name ++ ":" ++ value) = line ∧ ':' ∉ name.toList ∧
    field = ⟨trim name, trim value⟩

/-- What can be said against a header line. -/
inductive Field.Complaint (line : Bytes) : ReadError → Prop where
  | notText (h : ∀ text, Utf8.encode text ≠ line) : Complaint line .notText
  | malformed {text : String} (htext : Utf8.encode text = line) (hcolon : ':' ∉ text.toList) :
      Complaint line (.malformedField (trimEnd text))

/-- Whether this is the value of the last of some fields that tell the length of a body. -/
def Field.LastLength (fields : List Field) (value : String) : Prop :=
  ∃ before field after, fields = before ++ field :: after ∧ field.value = value ∧
    lowercase field.name = "content-length" ∧
    ∀ other ∈ after, lowercase other.name ≠ "content-length"

/-- Whether fields announce a body of this length, which is within the limit. -/
inductive Field.Announce (fields : List Field) : Nat → Prop where
  | nothing (h : ∀ field ∈ fields, lowercase field.name ≠ "content-length") : Announce fields 0
  | length {value : String} {n : Nat} (hlast : LastLength fields value)
      (hvalue : Numeral.Spells value n) (hn : n ≤ bodyLimit) : Announce fields n

/-- What can be said against the length that fields tell: that it is no size, or over the limit. -/
inductive Field.LengthComplaint (fields : List Field) : ReadError → Prop where
  | badLength {value : String} (hlast : LastLength fields value)
      (hvalue : ∀ n, Numeral.Spells value n → Numeral.sizeLimit < n) :
      LengthComplaint fields (.badLength value)
  | overLimit {value : String} {n : Nat} (hlast : LastLength fields value)
      (hvalue : Numeral.Spells value n) (hn : bodyLimit < n) (hsize : n ≤ Numeral.sizeLimit) :
      LengthComplaint fields (.lengthOverLimit n)

namespace Layout

/-- Whether the lines of a header section make this request and hold these fields. -/
structure Holds (layout : Layout) (first : RequestLine) (fields : List Field) : Prop where
  first : first.IsIn layout.first
  fields : List.Forall₂ Field.IsIn fields layout.fieldLines

/-- The first line about which there is a complaint, with the lines before it. -/
inductive Blames (layout : Layout) : List Bytes → Bytes → ReadError → Prop where
  | first {error : ReadError} (h : RequestLine.Complaint layout.first error) :
      Blames layout [] layout.first error
  | field {first : RequestLine} {fields : List Field} {before after : List Bytes} {line : Bytes}
      {error : ReadError} (hfirst : first.IsIn layout.first)
      (hlines : layout.fieldLines = before ++ line :: after)
      (hbefore : List.Forall₂ Field.IsIn fields before) (hline : Field.Complaint line error) :
      Blames layout (layout.first :: before) line error

end Layout

namespace Request

/-- Whether an input begins with this request and goes on behind its body: a header section that
makes it, and as many bytes of body as the fields announce. -/
inductive IsIn (bs : Bytes) : Request → Bytes → Prop where
  | body {first : RequestLine} {fields : List Field} {body rest : Bytes}
      (hholds : (Layout.of bs).Holds first fields) (hlength : Field.Announce fields body.length)
      (hbody : (Layout.of bs).rest = body ++ rest) :
      IsIn bs { method := first.method, target := first.target, version := first.version,
                headers := .ofFields fields, body := body } rest

/-- What can be said against an input: the complaint about its first line at fault, or else that
about the length it tells, or else that it ends before its body does. -/
inductive Complaint (bs : Bytes) : ReadError → Prop where
  | line {before : List Bytes} {line : Bytes} {error : ReadError} (hbs : bs ≠ [])
      (h : (Layout.of bs).Blames before line error) : Complaint bs error
  | length {first : RequestLine} {fields : List Field} {error : ReadError}
      (hholds : (Layout.of bs).Holds first fields) (hlength : Field.LengthComplaint fields error) :
      Complaint bs error
  | cutShort {first : RequestLine} {fields : List Field} {n : Nat}
      (hholds : (Layout.of bs).Holds first fields) (hlength : Field.Announce fields n)
      (hshort : (Layout.of bs).rest.length < n) : Complaint bs .bodyCutShort

end Request

namespace Method

variable {word : String} {method : Method}

theorem inCapitals_token (method : Method) : inCapitals method.token = method.token := by
  cases method <;> decide

theorem ofToken?_eq_some_iff : ofToken? word = some method ↔ inCapitals word = method.token := by
  constructor
  · intro h
    have htoken := List.find?_some h
    exact (eq_of_beq htoken).symm
  · intro h
    have hself := ofToken?_token method
    rw [ofToken?, inCapitals_token] at hself
    rw [ofToken?, h]
    exact hself

theorem ofToken?_eq_none_iff :
    ofToken? word = none ↔ ∀ method : Method, inCapitals word ≠ method.token := by
  simp only [Option.eq_none_iff_forall_ne_some, ne_eq, ofToken?_eq_some_iff]

end Method

/-- What is said of a result is exactly what it is, if it is true and leaves nothing out. -/
theorem result_iff {ε α : Type} {result : Except ε α} {IsFound : α → Prop} {IsRefused : ε → Prop}
    (hfound : ∀ a, IsFound a → result = .ok a) (hrefused : ∀ e, IsRefused e → result = .error e)
    (hcases : (∃ a, IsFound a) ∨ ∃ e, IsRefused e) :
    (∀ a, result = .ok a ↔ IsFound a) ∧ ∀ e, result = .error e ↔ IsRefused e := by
  rcases hcases with ⟨a, ha⟩ | ⟨e, he⟩
  · have hok := hfound a ha
    refine ⟨fun other => ⟨fun h => ?_, hfound other⟩, fun e => ⟨fun h => ?_, hrefused e⟩⟩
    · obtain rfl := Except.ok.inj (hok.symm.trans h)
      exact ha
    · rw [hok] at h
      cases h
  · have herror := hrefused e he
    refine ⟨fun a => ⟨fun h => ?_, hfound a⟩, fun other => ⟨fun h => ?_, hrefused other⟩⟩
    · rw [herror] at h
      cases h
    · obtain rfl := Except.error.inj (herror.symm.trans h)
      exact he

theorem toOption_eq_some_iff {ε α : Type} {result : Except ε α} {a : α} :
    result.toOption = some a ↔ result = .ok a := by
  cases result <;> simp [Except.toOption]

theorem toOption_eq_none_iff {ε α : Type} {result : Except ε α} :
    result.toOption = none ↔ ∃ e, result = .error e := by
  cases result <;> simp [Except.toOption]

def Reading.ofLine {α : Type} (ofText : String → Except ReadError α) (line : Bytes) :
    Except ReadError α :=
  match Utf8.decode? line with
  | some text => ofText text
  | none => .error .notText

namespace Reading

variable {α : Type} {ofText : String → Except ReadError α} {line : Bytes} {text : String}

theorem ofLine_encode (h : Utf8.encode text = line) : ofLine ofText line = ofText text := by
  rw [ofLine, ← h, Utf8.decode?_encode]

theorem ofLine_of_not_text (h : ∀ text, Utf8.encode text ≠ line) :
    ofLine ofText line = .error .notText := by
  have hnone : Utf8.decode? line = none := by
    simpa only [Option.eq_none_iff_forall_ne_some, ne_eq, Utf8.decode?_eq_some_iff] using h
  rw [ofLine, hnone]

theorem text_or_not (line : Bytes) :
    (∃ text, Utf8.encode text = line) ∨ ∀ text, Utf8.encode text ≠ line := by
  rw [← not_exists]
  exact Classical.em _

end Reading

namespace RequestLine

variable {line : Bytes} {first : RequestLine} {error : ReadError} {text : String}

theorem ofText_of_length_lt (h : (words text).length < 3) :
    ofText text = .error (.malformedLine (trimEnd text)) := by
  rw [ofText]
  generalize words text = found at h
  rcases found with _ | ⟨word, _ | ⟨target, _ | ⟨version, more⟩⟩⟩
  · rfl
  · rfl
  · rfl
  · simp only [List.length_cons] at h
    omega

theorem IsIn.ofLine_eq (h : first.IsIn line) : Reading.ofLine ofText line = .ok first := by
  obtain ⟨text, word, more, htext, hwords, hmethod⟩ := h
  rw [Reading.ofLine_encode htext]
  simp only [ofText, hwords, Method.ofToken?_eq_some_iff.2 hmethod]

theorem Complaint.ofLine_eq (h : Complaint line error) :
    Reading.ofLine ofText line = .error error := by
  cases h with
  | notText h => exact Reading.ofLine_of_not_text h
  | malformed htext hwords => rw [Reading.ofLine_encode htext, ofText_of_length_lt hwords]
  | unknownMethod htext hwords hmethod =>
    rw [Reading.ofLine_encode htext]
    simp only [ofText, hwords, Method.ofToken?_eq_none_iff.2 hmethod]

theorem isIn_or_complaint (line : Bytes) :
    (∃ first : RequestLine, first.IsIn line) ∨ ∃ error, Complaint line error := by
  rcases Reading.text_or_not line with ⟨text, htext⟩ | hnot
  · rcases hwords : words text with _ | ⟨word, _ | ⟨target, _ | ⟨version, more⟩⟩⟩
    · exact .inr ⟨_, .malformed htext (by simp [hwords])⟩
    · exact .inr ⟨_, .malformed htext (by simp [hwords])⟩
    · exact .inr ⟨_, .malformed htext (by simp [hwords])⟩
    · by_cases hmethod : ∃ method : Method, inCapitals word = method.token
      · obtain ⟨method, hmethod⟩ := hmethod
        exact .inl ⟨⟨method, target, version⟩, text, word, more, htext, hwords, hmethod⟩
      · rw [not_exists] at hmethod
        exact .inr ⟨_, .unknownMethod htext hwords hmethod⟩
  · exact .inr ⟨_, .notText hnot⟩

theorem ofLine_iff (line : Bytes) :
    (∀ first, Reading.ofLine ofText line = .ok first ↔ first.IsIn line) ∧
      ∀ error, Reading.ofLine ofText line = .error error ↔ Complaint line error :=
  result_iff (fun _ => IsIn.ofLine_eq) (fun _ => Complaint.ofLine_eq) (isIn_or_complaint line)

theorem ofLine?_eq (line : Bytes) : ofLine? line = (Reading.ofLine ofText line).toOption := by
  rw [ofLine?, Reading.ofLine]
  cases Utf8.decode? line with
  | none => rfl
  | some text =>
    rw [Option.bind_some]
    simp only [ofText]
    rcases words text with _ | ⟨word, _ | ⟨target, _ | ⟨version, more⟩⟩⟩
    · rfl
    · rfl
    · rfl
    · cases hmethod : Method.ofToken? word <;> simp [hmethod, Except.toOption]

theorem isIn_iff : first.IsIn line ↔ ofLine? line = some first := by
  rw [ofLine?_eq, toOption_eq_some_iff, (ofLine_iff line).1]

theorem exists_complaint_iff : (∃ error, Complaint line error) ↔ ofLine? line = none := by
  simp only [ofLine?_eq, toOption_eq_none_iff, (ofLine_iff line).2]

end RequestLine

namespace Headers

theorem bodyLength_eq_ok_iff {headers : Headers} {n : Nat} :
    headers.bodyLength = .ok n ↔ (headers.get? "Content-Length" = none ∧ n = 0) ∨
      ∃ value, headers.get? "Content-Length" = some value ∧ Numeral.Spells value n ∧
        n ≤ bodyLimit := by
  constructor
  · intro h
    simp only [bodyLength] at h
    split at h
    next hnone => exact .inl ⟨hnone, (Except.ok.inj h).symm⟩
    next value hvalue =>
      split at h
      next => cases h
      next length hread =>
        split at h
        next => cases h
        next hlimit =>
          obtain rfl := Except.ok.inj h
          exact .inr ⟨value, hvalue, (Numeral.read_eq_ok_iff.1 hread).1, Nat.le_of_not_lt hlimit⟩
  · rintro (⟨hnone, rfl⟩ | ⟨value, hvalue, hspells, hlimit⟩)
    · simp only [bodyLength, hnone]
    · have hread := Numeral.read_eq_ok_iff.2
        ⟨hspells, Nat.le_trans hlimit (by decide : bodyLimit ≤ Numeral.sizeLimit)⟩
      simp only [bodyLength, hvalue, hread, if_neg (Nat.not_lt_of_le hlimit)]

end Headers

namespace Field

variable {line : Bytes} {field : Field} {error : ReadError}

theorem IsIn.ofLine_eq (h : field.IsIn line) : Reading.ofLine ofText line = .ok field := by
  obtain ⟨name, value, htext, hname, rfl⟩ := h
  rw [Reading.ofLine_encode htext]
  simp only [ofText, cutWhere_colon hname, String.ofList_toList]

theorem Complaint.ofLine_eq (h : Complaint line error) :
    Reading.ofLine ofText line = .error error := by
  cases h with
  | notText h => exact Reading.ofLine_of_not_text h
  | @malformed text htext hcolon =>
    have hnone : cutWhere (· == ':') text.toList = none :=
      (cutWhere_eq_none_iff _ _).2 fun c hc => beq_false_of_ne fun he => hcolon (he ▸ hc)
    rw [Reading.ofLine_encode htext]
    simp only [ofText, hnone]

theorem isIn_or_complaint (line : Bytes) :
    (∃ field : Field, field.IsIn line) ∨ ∃ error, Complaint line error := by
  rcases Reading.text_or_not line with ⟨text, htext⟩ | hnot
  · cases hcut : cutWhere (· == ':') text.toList with
    | none =>
      have hcolon : ':' ∉ text.toList := fun hm => by
        simpa using (cutWhere_eq_none_iff _ _).1 hcut _ hm
      exact .inr ⟨_, .malformed htext hcolon⟩
    | some cut =>
      obtain ⟨c, hc, hshape, hname⟩ := cutWhere_eq_some hcut
      obtain rfl : c = ':' := eq_of_beq hc
      refine .inl ⟨⟨trim (String.ofList cut.1), trim (String.ofList cut.2)⟩, String.ofList cut.1,
        String.ofList cut.2, ?_, ?_, rfl⟩
      · rw [← htext]
        congr 1
        apply String.toList_inj.1
        simp [hshape]
      · intro hm
        rw [String.toList_ofList] at hm
        simpa using hname _ hm
  · exact .inr ⟨_, .notText hnot⟩

theorem ofLine_iff (line : Bytes) :
    (∀ field, Reading.ofLine ofText line = .ok field ↔ field.IsIn line) ∧
      ∀ error, Reading.ofLine ofText line = .error error ↔ Complaint line error :=
  result_iff (fun _ => IsIn.ofLine_eq) (fun _ => Complaint.ofLine_eq) (isIn_or_complaint line)

theorem ofLine?_eq (line : Bytes) : ofLine? line = (Reading.ofLine ofText line).toOption := by
  rw [ofLine?, Reading.ofLine]
  cases Utf8.decode? line with
  | none => rfl
  | some text =>
    rw [Option.bind_some]
    simp only [ofText]
    cases cutWhere (· == ':') text.toList <;> rfl

theorem isIn_iff : field.IsIn line ↔ ofLine? line = some field := by
  rw [ofLine?_eq, toOption_eq_some_iff, (ofLine_iff line).1]

theorem exists_complaint_iff : (∃ error, Complaint line error) ↔ ofLine? line = none := by
  simp only [ofLine?_eq, toOption_eq_none_iff, (ofLine_iff line).2]

theorem forall₂_isIn_iff {fields : List Field} {lines : List Bytes} :
    List.Forall₂ IsIn fields lines ↔ lines.mapM ofLine? = some fields := by
  induction lines generalizing fields with
  | nil => simp [eq_comm]
  | cons line lines ih =>
    simp only [List.forall₂_cons_right_iff, isIn_iff, ih, List.mapM_cons, Option.bind_eq_bind,
      Option.bind_eq_some_iff, Option.pure_def, Option.some.injEq]
    constructor
    · rintro ⟨field, fields, hfield, hfields, rfl⟩
      exact ⟨field, hfield, fields, hfields, rfl⟩
    · rintro ⟨field, hfield, fields, hfields, rfl⟩
      exact ⟨field, fields, hfield, hfields, rfl⟩

theorem lastLength_iff_isLastValue {fields : List Field} {value : String} :
    LastLength fields value ↔ IsLastValue fields "content-length" value := by
  constructor
  · rintro ⟨before, field, after, hshape, hvalue, hname, hafter⟩
    have hkey : field.key = "content-length" := hname
    exact ⟨field, ⟨before, after, hshape, hkey ▸ hafter⟩, hkey, hvalue⟩
  · rintro ⟨field, ⟨before, after, hshape, hafter⟩, hkey, hvalue⟩
    rw [hkey] at hafter
    exact ⟨before, field, after, hshape, hvalue, hkey, hafter⟩

theorem lastLength_iff {fields : List Field} {value : String} :
    LastLength fields value ↔ (Headers.ofFields fields).get? "Content-Length" = some value := by
  simp only [lastLength_iff_isLastValue, IsLastValue, Headers.get?_eq_some_iff,
    Headers.mem_elements_ofFields, lowercase_contentLength]

theorem get?_ofFields_eq_none_iff {fields : List Field} :
    (Headers.ofFields fields).get? "Content-Length" = none ↔
      ∀ field ∈ fields, lowercase field.name ≠ "content-length" := by
  simp [Headers.get?_ofFields, lowercase_contentLength]

theorem announce_or_complaint (fields : List Field) :
    (∃ n, Announce fields n) ∨ ∃ error, LengthComplaint fields error := by
  cases hget : (Headers.ofFields fields).get? "Content-Length" with
  | none => exact .inl ⟨0, .nothing (get?_ofFields_eq_none_iff.1 hget)⟩
  | some value =>
    have hlast := lastLength_iff.2 hget
    by_cases hsize : ∃ n, Numeral.Spells value n ∧ n ≤ Numeral.sizeLimit
    · obtain ⟨n, hvalue, hn⟩ := hsize
      by_cases hlimit : n ≤ bodyLimit
      · exact .inl ⟨n, .length hlast hvalue hlimit⟩
      · exact .inr ⟨_, .overLimit hlast hvalue (Nat.lt_of_not_le hlimit) hn⟩
    · refine .inr ⟨_, .badLength hlast fun n hvalue => Nat.lt_of_not_le fun hn => ?_⟩
      exact hsize ⟨n, hvalue, hn⟩

/-- The length of the body is that which the fields announce, or there is a complaint about it. -/
theorem bodyLength_iff (fields : List Field) :
    (∀ n, (Headers.ofFields fields).bodyLength = .ok n ↔ Announce fields n) ∧
      ∀ error, (Headers.ofFields fields).bodyLength = .error error ↔
        LengthComplaint fields error := by
  refine result_iff (fun n h => ?_) (fun error h => ?_) (announce_or_complaint fields)
  · cases h with
    | nothing h => exact Headers.bodyLength_eq_ok_iff.2 (.inl ⟨get?_ofFields_eq_none_iff.2 h, rfl⟩)
    | length hlast hvalue hn =>
      exact Headers.bodyLength_eq_ok_iff.2 (.inr ⟨_, lastLength_iff.1 hlast, hvalue, hn⟩)
  · cases h with
    | @badLength value hlast hvalue =>
      cases hread : Numeral.read Numeral.sizeLimit value with
      | error => simp only [Headers.bodyLength, lastLength_iff.1 hlast, hread]
      | ok n =>
        obtain ⟨hspells, hn⟩ := Numeral.read_eq_ok_iff.1 hread
        exact absurd hn (Nat.not_le_of_lt (hvalue n hspells))
    | overLimit hlast hvalue hn hsize =>
      have hread := Numeral.read_eq_ok_iff.2 ⟨hvalue, hsize⟩
      simp only [Headers.bodyLength, lastLength_iff.1 hlast, hread, if_pos hn]

end Field

namespace Layout

theorem Blames.kind_eq {layout : Layout} {before : List Bytes} {line : Bytes} {error : ReadError}
    (h : layout.Blames before line error) : error.kind = .invalidData := by
  cases h with
  | first h => cases h <;> rfl
  | field _ _ _ hline => cases hline <;> rfl

/-- Some first line is at fault, or the lines make a request and hold fields. -/
theorem blames_or_holds (layout : Layout) :
    (∃ before line error, layout.Blames before line error) ∨
      ∃ first fields, layout.Holds first fields := by
  rcases RequestLine.isIn_or_complaint layout.first with ⟨first, hfirst⟩ | ⟨error, herror⟩
  · have hfields : ∀ lines : List Bytes, (∃ before line after fields error,
        lines = before ++ line :: after ∧ List.Forall₂ Field.IsIn fields before ∧
          Field.Complaint line error) ∨ ∃ fields, List.Forall₂ Field.IsIn fields lines := by
      -- By induction from the front, so that the lines before the one at fault hold fields.
      intro lines
      induction lines with
      | nil => exact .inr ⟨[], .nil⟩
      | cons line lines ih =>
        rcases Field.isIn_or_complaint line with ⟨field, hfield⟩ | ⟨error, herror⟩
        · rcases ih with ⟨before, line', after, fields, error, rfl, hbefore, herror⟩ | ⟨fields, hall⟩
          · exact .inl ⟨line :: before, line', after, field :: fields, error, rfl,
              .cons hfield hbefore, herror⟩
          · exact .inr ⟨field :: fields, .cons hfield hall⟩
        · exact .inl ⟨[], line, lines, [], error, rfl, .nil, herror⟩
    rcases hfields layout.fieldLines with
      ⟨before, line, after, fields, error, hlines, hbefore, herror⟩ | ⟨fields, hall⟩
    · exact .inl ⟨_, _, error, .field hfirst hlines hbefore herror⟩
    · exact .inr ⟨first, fields, hfirst, hall⟩
  · exact .inl ⟨_, _, error, .first herror⟩

end Layout

end WireBench.Http
