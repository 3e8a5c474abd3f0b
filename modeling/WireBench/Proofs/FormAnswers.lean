import WireBench.Proofs.AnswerFraming
import WireBench.Proofs.FreshBoundaries

/-!
# Form data as an answer

Who asks for the root of the server gets the parts under the boundary of the next draw, and who asks
for anything else is told that there is nothing. Over requests one after the other, a draw is taken
for every answer with form data and for no other.
-/

namespace WireBench

open WireBench.Http WireBench.Multipart WireBench.Text

namespace Http

theorem Headers.pairs_set {headers : Headers} {name : String}
    (h : lowercase name ∉ headers.keys) (value : String) :
    (headers.set name value).pairs = headers.pairs ++ [(lowercase name, value)] := by
  have hkey : Field.key ⟨name, value⟩ ∉ headers.keys := h
  rw [Headers.pairs, Headers.set, KeyedList.elements_insert hkey, List.map_append]
  rfl

/-- The path of a request is what the target is, or what a question mark follows in it. -/
theorem Request.path_eq_iff {request : Request} {path : String} (h : '?' ∉ path.toList) :
    request.path = path ↔
      request.target = path ∨ path.toList ++ ['?'] <+: request.target.toList := by
  have hpath : ∀ a ∈ path.toList, (a == '?') = false :=
    fun a ha => beq_false_of_ne fun e => h (e ▸ ha)
  rw [Request.path, Request.cutTarget]
  cases hcut : cutWhere (· == '?') request.target.toList with
  | none =>
    have hnone := (cutWhere_eq_none_iff _ _).1 hcut
    have hprefix : ¬ path.toList ++ ['?'] <+: request.target.toList := by
      intro hfront
      have hmem : '?' ∈ request.target.toList := hfront.subset (by simp)
      exact absurd (hnone _ hmem) (by simp)
    rw [or_iff_left hprefix]
  | some cut =>
    obtain ⟨before, after⟩ := cut
    obtain ⟨c, hc, htarget, -⟩ := cutWhere_eq_some hcut
    obtain rfl : c = '?' := eq_of_beq hc
    have htarget_ne : request.target ≠ path := by
      rintro rfl
      exact h (htarget ▸ List.mem_append_right _ (List.mem_cons_self ..))
    rw [or_iff_right htarget_ne]
    constructor
    · rintro rfl
      exact ⟨after, by simp [htarget]⟩
    · rintro ⟨rest, hfront⟩
      rw [List.append_assoc] at hfront
      have hcut' := cutWhere_append hpath (beq_self_eq_true '?') rest
      rw [← List.singleton_append, hfront, hcut] at hcut'
      obtain ⟨rfl, -⟩ := Prod.mk.inj (Option.some.inj hcut')
      exact String.ofList_toList

namespace Response

/-- The response carries form data: it announces the boundary and the length of the message, and the
message is its body. -/
structure Carries (response : Response) (form : FormData) : Prop where
  status : response.status = 200
  fields : response.headers.pairs =
    [("content-type", "multipart/form-data; boundary=" ++ form.boundary.token),
      ("content-length", toString response.body.length)]
  body : response.body = form.bytes
  length : response.body.length = form.length

structure IsNotFound (response : Response) : Prop where
  status : response.status = 404
  fields : response.headers.pairs = [("content-length", "0")]
  body : response.body = []

theorem pairs_lengthOnly (length : Nat) :
    (lengthOnly length).pairs = [("content-length", toString length)] := by
  rw [lengthOnly, Headers.pairs_set List.not_mem_nil, lowercase_contentLength]
  rfl

theorem isNotFound_notFound : notFound.IsNotFound where
  status := rfl
  fields := pairs_lengthOnly 0
  body := rfl

end Response

end Http

namespace Service

variable {parts : List Part} {draws : Draws} {request : Request}

theorem carries_formResponse (form : FormData) : (formResponse form).Carries form where
  status := rfl
  fields := by
    have hkeys : (Headers.empty.set "Content-Type" form.mediaType).keys =
        [lowercase "Content-Type"] := rfl
    have htype : (Headers.empty.set "Content-Type" form.mediaType).pairs =
        [(lowercase "Content-Type", form.mediaType)] := rfl
    have hnew : lowercase "Content-Length" ∉
        (Headers.empty.set "Content-Type" form.mediaType).keys := by
      rw [hkeys, List.mem_singleton]
      exact lowercase_contentType_ne.symm
    have hpairs := Headers.pairs_set hnew (toString form.bytes.length)
    rw [htype, lowercase_contentType, lowercase_contentLength] at hpairs
    exact hpairs
  body := rfl
  length := form.length_bytes

theorem asksForForm_iff (request : Request) :
    asksForForm request = true ↔
      (request.method = .get ∨ request.method = .head) ∧
        (request.target = "/" ∨ "/?".toList <+: request.target.toList) := by
  have hroot : '?' ∉ "/".toList := by decide
  rw [asksForForm, Bool.and_eq_true, Bool.or_eq_true, beq_iff_eq, beq_iff_eq, beq_iff_eq,
    Request.path_eq_iff hroot]
  exact Iff.rfl

theorem respond_form_asked (h : asksForForm request = true) :
    respond (.form parts) draws request =
      (formResponse ⟨.ofDraw (draws.draw draws.taken), parts⟩,
        { draws with taken := draws.taken + 1 }) :=
  if_pos h

theorem respond_form_other (h : asksForForm request = false) :
    respond (.form parts) draws request = (.notFound, draws) :=
  if_neg (Bool.not_eq_true _ ▸ h)

/-- An answer has status 200 if the form data was asked for, and for such an answer one draw is
taken. -/
theorem respond_form_step :
    ((respond (.form parts) draws request).1.status == 200) = asksForForm request ∧
      (respond (.form parts) draws request).2 =
        { draws with taken := draws.taken + (asksForForm request).toNat } := by
  cases h : asksForForm request with
  | true =>
    rw [respond_form_asked h]
    exact ⟨rfl, rfl⟩
  | false =>
    rw [respond_form_other h]
    exact ⟨rfl, rfl⟩

/-- What one request is answered. -/
theorem respond_form_answer (parts : List Part) (draws : Draws) (request : Request) :
    ((respond (.form parts) draws request).1.status = 200 ↔
        (request.method = .get ∨ request.method = .head) ∧
          (request.target = "/" ∨ "/?".toList <+: request.target.toList)) ∧
      if (respond (.form parts) draws request).1.status = 200 then
        (respond (.form parts) draws request).1.Carries ⟨.ofDraw (draws.draw draws.taken), parts⟩
      else (respond (.form parts) draws request).1.IsNotFound := by
  rw [← asksForForm_iff]
  cases hasks : asksForForm request with
  | true =>
    have hcarries := carries_formResponse ⟨.ofDraw (draws.draw draws.taken), parts⟩
    rw [respond_form_asked hasks]
    refine ⟨iff_of_true rfl rfl, ?_⟩
    rw [if_pos hcarries.status]
    exact hcarries
  | false =>
    have hstatus : Response.notFound.status ≠ 200 := by decide
    rw [respond_form_other hasks]
    refine ⟨iff_of_false hstatus Bool.false_ne_true, ?_⟩
    rw [if_neg hstatus]
    exact Response.isNotFound_notFound

theorem respond_form_congr {other : Request} (hmethod : request.method = other.method)
    (hpath : request.path = other.path) :
    respond (.form parts) draws request = respond (.form parts) draws other := by
  have hasks : asksForForm request = asksForForm other := by
    rw [asksForForm, asksForForm, hmethod, hpath]
  cases h : asksForForm other with
  | true => rw [respond_form_asked h, respond_form_asked (hasks.trans h)]
  | false => rw [respond_form_other h, respond_form_other (hasks.trans h)]

/-- What requests are answered does not depend on the requests that come after them. -/
theorem respondAll_take (service : Service) (draws : Draws) (requests : List Request) (i : Nat) :
    (service.respondAll draws (requests.take i)).1 =
      (service.respondAll draws requests).1.take i := by
  induction requests generalizing draws i with
  | nil => rw [List.take_nil, respondAll, List.take_nil]
  | cons request requests ih =>
    cases i with
    | zero => rfl
    | succ i => exact congrArg (_ :: ·) (ih _ i)

/-- A request is answered with what the requests before it have left of the random source. -/
theorem getElem?_respondAll (service : Service) (draws : Draws) (requests : List Request)
    (i : Nat) :
    (service.respondAll draws requests).1[i]? = requests[i]?.map fun request =>
      (service.respond (service.respondAll draws (requests.take i)).2 request).1 := by
  induction requests generalizing draws i with
  | nil => rfl
  | cons request requests ih =>
    cases i with
    | zero => rfl
    | succ i => exact ih _ i

theorem respondAll_form_draws (parts : List Part) (draws : Draws) (requests : List Request) :
    (respondAll (.form parts) draws requests).2 =
      { draws with
        taken := draws.taken +
          (respondAll (.form parts) draws requests).1.countP (·.status == 200) } := by
  induction requests generalizing draws with
  | nil => rfl
  | cons request requests ih =>
    have hstep : respondAll (.form parts) draws (request :: requests) =
        ((respond (.form parts) draws request).1 ::
          (respondAll (.form parts) (respond (.form parts) draws request).2 requests).1,
          (respondAll (.form parts) (respond (.form parts) draws request).2 requests).2) := rfl
    obtain ⟨hstatus, hdraws⟩ := @respond_form_step parts draws request
    rw [hstep, ih, List.countP_cons, hstatus, hdraws]
    cases asksForForm request <;> simp [Nat.add_assoc, Nat.add_comm]

theorem respondAll_form_congr (parts : List Part) (draws : Draws) {requests others : List Request}
    (h : others.map (fun request => (request.method, request.path)) =
      requests.map fun request => (request.method, request.path)) :
    respondAll (.form parts) draws others = respondAll (.form parts) draws requests := by
  induction requests generalizing draws others with
  | nil =>
    rw [List.map_eq_nil_iff.1 h]
  | cons request requests ih =>
    obtain ⟨other, others, rfl, hhead, hmore⟩ := List.map_eq_cons_iff.1 h
    obtain ⟨hmethod, hpath⟩ := Prod.mk.inj hhead
    rw [respondAll, respondAll, respond_form_congr hmethod hpath]
    simp only [ih _ hmore]

/-- Form data is given to who asks for the root with GET or HEAD, whatever follows a question mark,
and to no one else. Each such answer has the next boundary of the random source: it announces that
boundary and the length of its body, and its body is made with it. All other answers are empty and
take no draw. Form data is as long with every draw, different draws make different boundaries, and
of a request only its method and its path count. -/
theorem respondAll_form (parts : List Part) (draws : Draws) (requests : List Request) :
    (respondAll (.form parts) draws requests).1.length = requests.length ∧
      (∀ (i : Nat) (request : Request) (response : Response), requests[i]? = some request →
        (respondAll (.form parts) draws requests).1[i]? = some response →
          (response.status = 200 ↔
            (request.method = .get ∨ request.method = .head) ∧
              (request.target = "/" ∨ "/?".toList <+: request.target.toList)) ∧
          if response.status = 200 then
            response.Carries
              ⟨.ofDraw (draws.draw (draws.taken +
                ((respondAll (.form parts) draws requests).1.take i).countP (·.status == 200))),
                parts⟩
          else response.IsNotFound) ∧
      (respondAll (.form parts) draws requests).2 =
        { draws with
          taken := draws.taken +
            (respondAll (.form parts) draws requests).1.countP (·.status == 200) } ∧
      (∀ draw other,
        FormData.length ⟨.ofDraw draw, parts⟩ = FormData.length ⟨.ofDraw other, parts⟩) ∧
      Function.Injective Boundary.ofDraw ∧
      ∀ others : List Request,
        others.map (fun request => (request.method, request.path)) =
          requests.map (fun request => (request.method, request.path)) →
        respondAll (.form parts) draws others = respondAll (.form parts) draws requests := by
  refine ⟨length_respondAll _ _ _, ?_, respondAll_form_draws parts draws requests,
    fun draw other => length_ofDraw draw other parts, ofDraw_injective,
    fun others => respondAll_form_congr parts draws⟩
  intro i request response hrequest hresponse
  rw [getElem?_respondAll, hrequest, Option.map_some, respondAll_form_draws, respondAll_take,
    Option.some.injEq] at hresponse
  subst hresponse
  exact respond_form_answer _ _ _

end Service

end WireBench
