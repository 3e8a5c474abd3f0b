import WireBench.Proofs.FormAnswers
import WireBench.Proofs.JsonWriting

/-!
# Echoes as answers

The answer that describes a request is a JSON text of exactly four members, whatever the request
holds: no text of the client's can end a string or a container of the answer. A posted JSON text is
answered by a JSON text with its value, so that the answer depends on the value alone, and every
other body is refused.
-/

namespace WireBench

open WireBench.Http WireBench.Json WireBench.Text

namespace Http

/-! ### Query parameters -/

/-- The value is that of the first pair of a query string with this name as its key. -/
def Query.IsFirst (query name value : String) : Prop :=
  ∃ front pair back, (splitWhere (· == '&') query.toList).map keyValue = front ++ pair :: back ∧
    (decode pair.1 = name ∧ decode pair.2 = value) ∧ ∀ other ∈ front, decode other.1 ≠ name

theorem Query.param?_eq_some_iff {query name value : String} :
    param? query name = some value ↔ IsFirst query name value := by
  have hpair : ∀ pair : String × String,
      (if decode pair.1 = name then some (decode pair.2) else none) = some value ↔
        decode pair.1 = name ∧ decode pair.2 = value := by
    intro pair
    split <;> simp_all
  have hother : ∀ pair : String × String,
      (if decode pair.1 = name then some (decode pair.2) else none) = none ↔
        decode pair.1 ≠ name := by
    intro pair
    split <;> simp_all
  simp only [param?, List.findSome?_eq_some_iff, IsFirst, hpair, hother]

/-- The value is that of the first query parameter of this name. -/
def Request.HasParam (request : Request) (name value : String) : Prop :=
  ∃ query, request.query? = some query ∧ Query.IsFirst query name value

theorem Request.param?_eq_some_iff {request : Request} {name value : String} :
    request.param? name = some value ↔ request.HasParam name value := by
  rw [Request.param?, Option.bind_eq_some_iff]
  exact exists_congr fun query => and_congr Iff.rfl Query.param?_eq_some_iff

theorem Headers.nodup_asSent (headers : Headers) : (headers.asSent.map Prod.fst).Nodup := by
  have hkeys := List.pairwise_map.1 headers.nodup
  rw [Headers.asSent, List.map_map]
  exact List.pairwise_map.2 (hkeys.imp fun hne hname => hne (congrArg lowercase hname))

/-! ### JSON in a response -/

namespace Response

/-- The response carries a JSON value: it announces the type and the length of its body, which is a
text of the value. -/
structure CarriesJson (response : Response) (code : Nat) (value : Value) : Prop where
  status : response.status = code
  fields : response.headers.pairs =
    [("content-length", toString response.body.length), ("content-type", "application/json")]
  text : IsText response.body value
  parsed : Value.parse? response.body = some value

theorem pairs_withBody (status : Nat) (reason mediaType : String) (body : Bytes) :
    (withBody status reason mediaType body).headers.pairs =
      [("content-length", toString body.length), ("content-type", mediaType)] := by
  have hkeys : (lengthOnly body.length).keys = [lowercase "Content-Length"] := rfl
  have hnew : lowercase "Content-Type" ∉ (lengthOnly body.length).keys := by
    rw [hkeys, List.mem_singleton]
    exact lowercase_contentType_ne
  have hpairs := Headers.pairs_set hnew mediaType
  rw [pairs_lengthOnly, lowercase_contentType] at hpairs
  exact hpairs

end Response

end Http

namespace Service

variable {value : Value} {body : Bytes}

theorem carriesJson_jsonResponse (status : Nat) (reason : String)
    (h : value.IsWritable Expecting.depthLimit) :
    (jsonResponse status reason value).CarriesJson status value where
  status := rfl
  fields := Response.pairs_withBody status reason "application/json" value.toBytes
  text := isText_toBytes h
  parsed := parse?_eq_some_iff.2 (isText_toBytes h)

/-! ### Requests described -/

/-- What an answer says about a request: its first query parameter of the name `query`, the address
of the client, the host it asked, and a member for every header field, by the name as it was sent. -/
structure Describes (request : Request) (query origin host : String) (fields : Members) : Prop where
  query : request.HasParam "query" query ∨
    query = "" ∧ ∀ value, ¬ request.HasParam "query" value
  origin : origin = request.client?.elim "" fun address => address.ip.toText
  host : host = request.server?.elim ((request.headers.get? "Host").getD "localhost")
    fun address => address.toText
  headers : fields.Perm (request.headers.asSent.map fun field => (field.1, .text field.2))
  names : (fields.map Prod.fst).Nodup
  count : fields.length = request.headers.size

/-- The members under which the header fields of a request are described. -/
def fieldsOf (request : Request) : Members :=
  Members.ofList (request.headers.asSent.map fun field => (field.1, .text field.2))

theorem describes_self (request : Request) :
    Describes request ((request.param? "query").getD "") (originOf request) (hostOf request)
      (fieldsOf request) := by
  have hnames : ((request.headers.asSent.map fun field =>
      (field.1, Value.text field.2)).map Prod.fst).Nodup := by
    rw [List.map_map]
    exact request.headers.nodup_asSent
  have hperm := Members.ofList_perm hnames
  constructor
  case query =>
    cases hparam : request.param? "query" with
    | some value => exact .inl (Request.param?_eq_some_iff.1 hparam)
    | none =>
      refine .inr ⟨rfl, fun value hvalue => ?_⟩
      rw [Request.param?_eq_some_iff.2 hvalue] at hparam
      cases hparam
  case origin => rw [originOf]; cases request.client? <;> rfl
  case host => rw [hostOf]; cases request.server? <;> rfl
  case headers => exact hperm
  case names => exact (hperm.map Prod.fst).nodup_iff.2 hnames
  case count =>
    rw [fieldsOf, hperm.length_eq, List.length_map, Headers.asSent, List.length_map]
    rfl

theorem isWritable_describe (request : Request) : (describe request).IsWritable 2 := by
  refine Value.isWritable_ofMembers (List.forall_mem_cons.2 ⟨?_, List.forall_mem_cons.2 ⟨?_,
    List.forall_mem_cons.2 ⟨?_, List.forall_mem_singleton.2 ?_⟩⟩⟩)
  · exact Value.isWritable_ofMembers (List.forall_mem_singleton.2 (Value.isWritable_text ..))
  · exact Value.isWritable_ofMembers (List.forall_mem_map.2 fun _ _ => Value.isWritable_text ..)
  · exact Value.isWritable_text ..
  · exact Value.isWritable_text ..

theorem describe_eq (request : Request) :
    describe request = .object [
      ("args", .object [("query", .text ((request.param? "query").getD ""))]),
      ("headers", .object (fieldsOf request)),
      ("origin", .text (originOf request)),
      ("url", .text ("http://" ++ hostOf request ++ request.target))] :=
  Members.ofMembers_of_names (show ["args", "headers", "origin", "url"].Pairwise (· < ·) by decide)

/-- The answer that describes a request is a JSON text of what it says about it and nothing else. -/
theorem describe_faithful (request : Request) :
    (request.method = .get → request.path = "/get" →
      echoResponse request = jsonResponse 200 "OK" (describe request)) ∧
    ∃ query origin host fields, Describes request query origin host fields ∧
      (jsonResponse 200 "OK" (describe request)).CarriesJson 200 (.object [
        ("args", .object [("query", .text query)]),
        ("headers", .object fields),
        ("origin", .text origin),
        ("url", .text ("http://" ++ host ++ request.target))]) := by
  constructor
  · intro hmethod hpath
    rw [echoResponse, hmethod, hpath]
    rfl
  · refine ⟨_, _, _, _, describes_self request, ?_⟩
    have hcarries := carriesJson_jsonResponse 200 "OK"
      ((isWritable_describe request).mono (show 2 ≤ Expecting.depthLimit by decide))
    rw [← describe_eq]
    exact hcarries

/-! ### Bodies echoed -/

/-- What a posted value is answered with. -/
def received (value : Value) : Value :=
  .object [("received", value), ("status", .text "success")]

def refused : Value :=
  .object [("error", .text "Invalid JSON")]

theorem ofMembers_success (value : Value) :
    .ofMembers [("status", .text "success"), ("received", value)] = received value := by
  have hne : "received" ≠ "status" := by decide
  have hlt : "received" < "status" := by decide
  rw [Value.ofMembers, Members.ofList, List.foldl_cons, List.foldl_cons, List.foldl_nil,
    Members.put, Members.put, if_neg hne, if_pos hlt, received]

theorem echoBody_of_isText (h : IsText body value) :
    echoBody body = jsonResponse 200 "OK" (received value) := by
  rw [echoBody, parse?_eq_some_iff.2 h]
  exact congrArg (jsonResponse 200 "OK") (ofMembers_success value)

theorem echoBody_of_not_isText (h : ∀ value, ¬ IsText body value) :
    echoBody body = jsonResponse 400 "Bad Request" refused := by
  cases hparse : Value.parse? body with
  | some value => exact absurd (parse?_eq_some_iff.1 hparse) (h value)
  | none =>
    rw [echoBody, hparse]
    rfl

theorem isWritable_received {room : Nat} (h : value.IsWritable room) :
    (received value).IsWritable (room + 1) := by
  rw [← ofMembers_success]
  exact Value.isWritable_ofMembers (List.forall_mem_cons.2
    ⟨Value.isWritable_text room "success", List.forall_mem_singleton.2 h⟩)

theorem isWritable_refused : refused.IsWritable 1 := by
  have hrefused : refused = .ofMembers [("error", .text "Invalid JSON")] := rfl
  rw [hrefused]
  exact Value.isWritable_ofMembers
    (List.forall_mem_singleton.2 (Value.isWritable_text 0 "Invalid JSON"))

/-- A body that is a JSON text is echoed, so that every text of its value gets the same answer, and
every other body is refused. -/
theorem echoBody_faithful (body : Bytes) :
    ((echoBody body).status = 400 ↔ ∀ value, ¬ IsText body value) ∧
    ((∀ value, ¬ IsText body value) → (echoBody body).CarriesJson 400 refused) ∧
    ((∃ value, IsText body value) → (echoBody body).status = 200) ∧
    (echoBody body).headers.pairs =
      [("content-length", toString (echoBody body).body.length),
        ("content-type", "application/json")] ∧
    ∀ value, IsText body value → value.isExact = true → value.depth ≤ 126 →
      (echoBody body).CarriesJson 200 (received value) ∧
      echoBody value.toBytes = echoBody body ∧
      ∀ other, IsText other value → echoBody other = echoBody body := by
  by_cases h : ∃ value, IsText body value
  · obtain ⟨value, hvalue⟩ := h
    have hanswer := echoBody_of_isText hvalue
    have hstatus : (echoBody body).status = 200 := by rw [hanswer]; rfl
    refine ⟨?_, fun hnone => absurd hvalue (hnone value), fun _ => hstatus, ?_, ?_⟩
    · rw [hstatus]
      exact iff_of_false (by decide) fun hnone => hnone value hvalue
    · rw [hanswer]
      exact Response.pairs_withBody ..
    · intro value' hvalue' hexact hdepth
      obtain rfl := hvalue.value_eq hvalue'
      have hwritable : value.IsWritable 126 := ⟨hvalue.isCanonical, hexact, hdepth⟩
      refine ⟨?_, ?_, fun other hother => ?_⟩
      · rw [hanswer]
        exact carriesJson_jsonResponse 200 "OK" (isWritable_received hwritable)
      · rw [hanswer]
        exact echoBody_of_isText (isText_toBytes (hwritable.mono (by decide)))
      · rw [hanswer]
        exact echoBody_of_isText hother
  · have hnone : ∀ value, ¬ IsText body value := fun value hvalue => h ⟨value, hvalue⟩
    have hanswer := echoBody_of_not_isText hnone
    have hstatus : (echoBody body).status = 400 := by rw [hanswer]; rfl
    refine ⟨iff_of_true hstatus hnone, fun _ => ?_, fun hsome => absurd hsome h, ?_,
      fun value hvalue => absurd hvalue (hnone value)⟩
    · rw [hanswer]
      exact carriesJson_jsonResponse 400 "Bad Request" (isWritable_refused.mono (by decide))
    · rw [hanswer]
      exact Response.pairs_withBody ..

end Service

end WireBench
