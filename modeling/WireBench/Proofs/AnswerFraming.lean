import WireBench.Proofs.Framing
import WireBench.Proofs.ResponseReading
import WireBench.Service

/-!
# The answers of the services

Every answer that a service gives, to whatever request, announces the length of its body and keeps
each of its fields to one line; none says whether the connection is closed.
-/

namespace WireBench

open WireBench.Http WireBench.Multipart WireBench.Text

namespace Http

theorem isFieldName_of_chars {name key : String} (hkey : lowercase name = key)
    (hchars : ∀ c ∈ key.toList, isBlank c = false ∧ c ≠ ':') : IsFieldName name := by
  subst hkey
  constructor
  · intro hm
    exact (hchars _ hm).2 rfl
  · intro hm
    exact absurd (hchars _ hm).1 (by decide)
  · exact trim_of_no_blank fun c hc => (hchars c hc).1

theorem isFieldValue_of_no_blank {value : String} (h : ∀ c ∈ value.toList, isBlank c = false) :
    IsFieldValue value where
  line_end hm := absurd (h _ hm) (by decide)
  trim_eq := trim_of_no_blank h

theorem isSendable_contentLength (n : Nat) :
    Field.IsSendable ⟨"Content-Length", toString n⟩ := by
  constructor
  · exact isFieldName_of_chars lowercase_contentLength (forall_mem_ofList rfl)
  · apply isFieldValue_of_no_blank
    intro c hc
    exact isBlank_of_isDigit (Numeral.isDigit_of_mem_toString hc)

theorem isSendable_contentType {mediaType : String} (h : IsFieldValue mediaType) :
    Field.IsSendable ⟨"Content-Type", mediaType⟩ := by
  constructor
  · exact isFieldName_of_chars lowercase_contentType (forall_mem_ofList rfl)
  · exact h

theorem isSendable_connection : Field.IsSendable ⟨"Connection", "close"⟩ := by
  constructor
  · exact isFieldName_of_chars lowercase_connection (forall_mem_ofList rfl)
  · exact isFieldValue_of_no_blank (forall_mem_ofList rfl)

namespace Response

variable {response : Response}

/-- Fields other than the length may be set freely. -/
theorem IsFramed.setHeader (h : response.IsFramed) {name value : String}
    (hfield : Field.IsSendable ⟨name, value⟩)
    (hname : lowercase name ≠ lowercase "Content-Length") :
    (response.setHeader name value).IsFramed where
  version_end := h.version_end
  reason_end := h.reason_end
  fields field hmem := by
    rcases KeyedList.mem_insert_iff.1 hmem with rfl | ⟨hmem, -⟩
    · exact hfield
    · exact h.fields field hmem
  length := by
    simp only [Response.setHeader, Headers.get?_set, hname, if_false]
    exact h.length

private theorem not_mem_version : '\n' ∉ "HTTP/1.1".toList := by decide

theorem isFramed_of_lengthOnly (status : Nat) {reason : String} (hreason : '\n' ∉ reason.toList)
    (body : Bytes) : (Response.of status reason (lengthOnly body.length) body).IsFramed where
  version_end := not_mem_version
  reason_end := hreason
  fields field hmem := by
    rcases KeyedList.mem_insert_iff.1 hmem with rfl | ⟨hmem, -⟩
    · exact isSendable_contentLength _
    · cases hmem
  length := by simp [Response.of, lengthOnly, Headers.get?_set]

theorem isFramed_notFound : notFound.IsFramed :=
  isFramed_of_lengthOnly 404 (by decide) []

theorem isFramed_badRequest : badRequest.IsFramed :=
  isFramed_of_lengthOnly 400 (by decide) []

theorem isFramed_withBody (status : Nat) {reason mediaType : String} (body : Bytes)
    (hreason : '\n' ∉ reason.toList) (hmedia : IsFieldValue mediaType) :
    (withBody status reason mediaType body).IsFramed :=
  (isFramed_of_lengthOnly status hreason body).setHeader (isSendable_contentType hmedia)
    lowercase_contentType_ne

end Response

end Http

namespace Multipart

theorem isBlank_of_isTokenChar {c : Char} (h : isTokenChar c = true) : isBlank c = false := by
  have hrange := toNat_of_isTokenChar h
  rw [← Bool.not_eq_true]
  intro hblank
  simp only [isBlank, Bool.or_eq_true, Bool.and_eq_true, decide_eq_true_eq, beq_iff_eq] at hblank
  omega

theorem toList_mediaType (form : FormData) :
    form.mediaType.toList =
      "multipart/form-data; boundary=".toList ++ form.boundary.token.toList := by
  delta FormData.mediaType
  exact String.toList_append

theorem isFieldValue_mediaType (draw : Draw) (parts : List Part) :
    IsFieldValue (FormData.mediaType ⟨.ofDraw draw, parts⟩) := by
  have htoken : ∀ c ∈ (Boundary.ofDraw draw).token.toList, isBlank c = false := by
    intro c hc
    have hmem : c ∈ (Boundary.ofDraw draw).delimiter.toList := by simp [Boundary.delimiter, hc]
    exact isBlank_of_isTokenChar (List.all_eq_true.1 (isTokenChar_delimiter draw) c hmem)
  have hne : (Boundary.ofDraw draw).token.toList ≠ [] := by
    simp [Boundary.ofDraw, Boundary.stem]
  constructor
  · rw [toList_mediaType, List.mem_append, not_or]
    constructor
    · rw [String.toList_ofList]
      decide
    · intro hm
      exact absurd (htoken _ hm) (by decide)
  · have hstart : "multipart/form-data; boundary=".toList =
        'm' :: "ultipart/form-data; boundary=".toList := by
      rw [String.toList_ofList, String.toList_ofList]
    delta FormData.mediaType
    exact trim_append_of_no_blank hstart (by decide) hne htoken

end Multipart

namespace Service

theorem isFramed_formResponse (draw : Draw) (parts : List Part) :
    (formResponse ⟨.ofDraw draw, parts⟩).IsFramed where
  version_end := Response.not_mem_version
  reason_end := (by decide : '\n' ∉ "OK".toList)
  fields field hmem := by
    rcases KeyedList.mem_insert_iff.1 hmem with rfl | ⟨hmem, -⟩
    · exact isSendable_contentLength _
    · rcases KeyedList.mem_insert_iff.1 hmem with rfl | ⟨hmem, -⟩
      · exact isSendable_contentType (isFieldValue_mediaType draw parts)
      · cases hmem
  length := by simp [formResponse, Response.ok, Response.of, Headers.get?_set]

theorem isFramed_jsonResponse (status : Nat) {reason : String} (hreason : '\n' ∉ reason.toList)
    (value : Json.Value) : (jsonResponse status reason value).IsFramed := by
  have hmedia : IsFieldValue "application/json" :=
    isFieldValue_of_no_blank (forall_mem_ofList rfl)
  exact Response.isFramed_withBody status _ hreason hmedia

theorem isFramed_echoResponse (request : Request) : (echoResponse request).IsFramed := by
  rw [echoResponse]
  split
  · exact isFramed_jsonResponse 200 (by decide) _
  · rw [echoBody]
    split
    · exact isFramed_jsonResponse 200 (by decide) _
    · exact isFramed_jsonResponse 400 (by decide) _
  · exact Response.isFramed_notFound

/-- Every answer of a service is framed. -/
theorem isFramed_respond (service : Service) (draws : Draws) (request : Request) :
    (service.respond draws request).1.IsFramed := by
  cases service with
  | form parts =>
    rw [respond]
    split
    · exact isFramed_formResponse _ parts
    · exact Response.isFramed_notFound
  | echo => exact isFramed_echoResponse request

/-- No answer of a service says whether the connection is closed. -/
theorem get?_connection_respond (service : Service) (draws : Draws) (request : Request) :
    (service.respond draws request).1.headers.get? "Connection" = none := by
  have hlength := lowercase_connection_ne.symm
  have htype := lowercase_connection_ne_contentType.symm
  have hnone : ∀ body : Bytes, (Response.lengthOnly body.length).get? "Connection" = none := by
    intro body
    simp [Response.lengthOnly, Headers.get?_set, hlength]
  have hjson : ∀ status reason value,
      (jsonResponse status reason value).headers.get? "Connection" = none := by
    intro status reason value
    simp only [jsonResponse, Response.withBody, Response.of, Headers.get?_set, htype, if_false]
    exact hnone _
  cases service with
  | form parts =>
    rw [respond]
    split
    · simp [formResponse, Response.ok, Response.of, Headers.get?_set, hlength, htype]
    · exact hnone []
  | echo =>
    simp only [respond, echoResponse]
    split
    · exact hjson _ _ _
    · rw [echoBody]
      split
      · exact hjson _ _ _
      · exact hjson _ _ _
    · exact hnone []

theorem forall_respondAll {service : Service} {p : Response → Prop}
    (h : ∀ draws request, p (service.respond draws request).1) (draws : Draws)
    (requests : List Request) : ∀ response ∈ (service.respondAll draws requests).1, p response := by
  induction requests generalizing draws with
  | nil =>
    intro response hresponse
    cases hresponse
  | cons request requests ih =>
    intro response hresponse
    rcases List.mem_cons.1 hresponse with rfl | hresponse
    · exact h draws request
    · exact ih _ response hresponse

theorem length_respondAll (service : Service) (draws : Draws) (requests : List Request) :
    (service.respondAll draws requests).1.length = requests.length := by
  induction requests generalizing draws with
  | nil => rfl
  | cons request requests ih => exact congrArg (· + 1) (ih _)

end Service

end WireBench
