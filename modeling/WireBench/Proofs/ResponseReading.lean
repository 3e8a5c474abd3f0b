import WireBench.Http.Receiving
import WireBench.Http.Sending
import WireBench.Proofs.DecimalText
import WireBench.Proofs.LastFields

/-!
# Responses read back

A client that knows for which of its requests a body is due tells the responses on a connection
apart, provided that each announces its length and keeps every field to one line.
-/

namespace WireBench

namespace Http

open WireBench.Text WireBench.Transport

def Field.lowered (field : Field) : Field :=
  ⟨field.key, field.value⟩

/-- Whether a name can be that of a field in a response, where it is written in lower case. -/
structure IsFieldName (name : String) : Prop where
  colon : ':' ∉ (lowercase name).toList
  line_end : '\n' ∉ (lowercase name).toList
  trim_eq : trim (lowercase name) = lowercase name

/-- Whether a text can be the value of a field. -/
structure IsFieldValue (value : String) : Prop where
  line_end : '\n' ∉ value.toList
  trim_eq : trim value = value

namespace Field

/-- Whether a field is read back from a response as it was set. -/
structure IsSendable (field : Field) : Prop where
  name : IsFieldName field.name
  value : IsFieldValue field.value

variable {field : Field}

theorem IsSendable.isPlain_lowered (h : field.IsSendable) : field.lowered.IsPlain :=
  ⟨h.name.colon, h.name.line_end, h.value.line_end⟩

theorem IsSendable.trimmed_lowered (h : field.IsSendable) :
    field.lowered.trimmed = field.lowered := by
  have hname : trim field.key = field.key := h.name.trim_eq
  rw [lowered, trimmed, hname, h.value.trim_eq]

end Field

namespace Headers

/-- The fields in the order and form in which a response has them. -/
def written (headers : Headers) : List Field :=
  headers.sorted.map fun pair => ⟨pair.1, pair.2⟩

variable {headers : Headers}

theorem mem_written {field : Field} :
    field ∈ headers.written ↔ ∃ set ∈ headers.elements, set.lowered = field := by
  simp [written, sorted, pairs, Field.lowered]

/-- Written fields that are sendable are read as they are. -/
theorem read_written (h : ∀ field ∈ headers.elements, field.IsSendable) (ending : Ending)
    (rest : Bytes) :
    read ending (Field.sectionBytes headers.written ++ rest) =
      (.ok (ofFields headers.written), rest) := by
  have hplain : ∀ field ∈ headers.written, field.IsPlain := by
    intro field hfield
    obtain ⟨set, hset, rfl⟩ := mem_written.1 hfield
    exact (h set hset).isPlain_lowered
  have htrimmed : headers.written.map Field.trimmed = headers.written := by
    refine Field.map_trimmed fun field hfield => ?_
    obtain ⟨set, hset, rfl⟩ := mem_written.1 hfield
    exact (h set hset).trimmed_lowered
  have hsection := readFrom_section hplain .empty ending rest
  rw [htrimmed] at hsection
  exact hsection

theorem pairs_ofFields_written (headers : Headers) :
    (ofFields headers.written).pairs = headers.sorted := by
  have hkey : ∀ field ∈ headers.written, field.key = field.name := by
    intro field hfield
    obtain ⟨set, -, rfl⟩ := mem_written.1 hfield
    exact lowercase_lowercase set.name
  have hpairs : headers.written.map (fun field => (field.key, field.value)) = headers.sorted := by
    have hsame : ∀ field ∈ headers.written,
        (field.key, field.value) = (field.name, field.value) := by
      intro field hfield
      rw [hkey field hfield]
    rw [List.map_congr_left hsame, written, List.map_map]
    exact List.map_id _
  have hnodup : (headers.written.map Field.key).Nodup := by
    have hnames : headers.written.map Field.key = headers.sorted.map Prod.fst := by
      rw [← hpairs, List.map_map]
      rfl
    rw [hnames]
    exact headers.nodup_map_fst_sorted
  rw [pairs, elements_ofFields hnodup, hpairs]

theorem get?_written (headers : Headers) (name : String) :
    (ofFields headers.written).get? name = headers.get? name := by
  apply Option.ext
  intro value
  rw [get?_eq_some_iff_mem_pairs, pairs_ofFields_written, headers.sorted_perm.mem_iff,
    get?_eq_some_iff_mem_pairs]

end Headers

namespace Response

/-- Whether a response keeps its status line and every field to one line and announces the length of
its body. -/
structure IsFramed (response : Response) : Prop where
  version_end : '\n' ∉ response.version.toList
  reason_end : '\n' ∉ response.reason.toList
  fields : ∀ field ∈ response.headers.elements, field.IsSendable
  length : response.headers.get? "Content-Length" = some (toString response.body.length)

/-- What is written of a response. -/
def sent (response : Response) (bodyIsDue : Bool) : Bytes :=
  response.head ++ if bodyIsDue then response.body else []

theorem head_eq (response : Response) :
    response.head =
      Utf8.encode response.statusLine ++ Field.sectionBytes response.headers.written := by
  rw [head, Field.sectionBytes, Headers.written, List.flatMap_map, List.append_assoc]
  rfl

variable {response : Response}

theorem get?_received (response : Response) (bodyIsDue : Bool) (name : String) :
    (response.received bodyIsDue).headers.get? name = response.headers.get? name :=
  response.headers.get?_written name

theorem line_statusLine (hversion : '\n' ∉ response.version.toList)
    (hreason : '\n' ∉ response.reason.toList) (ending : Ending) (rest : Bytes) :
    Reading.line ending (Utf8.encode response.statusLine ++ rest) =
      (.ok response.statusLine, rest) := by
  have hstatus : '\n' ∉ (toString response.status).toList := by
    intro hm
    exact absurd (Numeral.isDigit_of_mem_toString hm) (by decide)
  apply Reading.line_encode
  simp only [String.toList_append, List.mem_append, not_or]
  exact ⟨⟨⟨⟨hversion, by decide⟩, hstatus⟩, by decide⟩, hreason⟩

end Response

namespace ReceivedResponse

theorem read?_sent {response : Response} (h : response.IsFramed) (bodyIsDue : Bool) (rest : Bytes) :
    read? bodyIsDue (response.sent bodyIsDue ++ rest) =
      some (response.received bodyIsDue, rest) := by
  have hshape : response.sent bodyIsDue ++ rest = Utf8.encode response.statusLine ++
      (Field.sectionBytes response.headers.written ++
        ((if bodyIsDue then response.body else []) ++ rest)) := by
    simp only [Response.sent, Response.head_eq, List.append_assoc]
  have hlength : (Headers.ofFields response.headers.written).announced? =
      some response.body.length := by
    simp only [Headers.announced?, Headers.get?_written, h.length,
      Numeral.readDecimal?_toString]
  rw [read?, hshape]
  simp only [Response.line_statusLine h.version_end h.reason_end,
    Headers.read_written h.fields, hlength]
  cases bodyIsDue with
  | false => simp [Response.received, Headers.written]
  | true => simp [Response.received, Headers.written]

/-- Responses sent one after the other are told apart, and nothing is left over. -/
theorem readAll?_sent {sendings : List (Bool × Response)}
    (h : ∀ sending ∈ sendings, sending.2.IsFramed) :
    readAll? (sendings.map Prod.fst) (sendings.flatMap fun sending => sending.2.sent sending.1) =
      some (sendings.map fun sending => sending.2.received sending.1) := by
  induction sendings with
  | nil => rfl
  | cons sending sendings ih =>
    obtain ⟨hsending, hsendings⟩ := List.forall_mem_cons.1 h
    have hmore := ih hsendings
    rw [List.flatMap_cons, List.map_cons, readAll?, read?_sent hsending]
    simp only [hmore, Option.map_some, List.map_cons]

end ReceivedResponse

end Http

end WireBench
