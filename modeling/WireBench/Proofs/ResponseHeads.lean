import WireBench.Proofs.ResponseReading

/-!
# The heads of responses

A response is written by one part of the program and fields are read by another. The second reads
what the first wrote: behind the status line it finds the fields of the response, neither more nor
fewer, whatever its body looks like, and stops where the body begins.
-/

namespace WireBench.Http

open WireBench.Text WireBench.Transport

/-- Whether a field can be told from the line it is written on, with its name in lower case. -/
@[mk_iff]
structure Field.IsLegible (field : Field) : Prop where
  plain : field.lowered.IsPlain
  name_trimmed : IsTrimmed field.key
  value_trimmed : IsTrimmed field.value

instance (field : Field) : Decidable field.IsLegible :=
  decidable_of_iff _ (Field.isLegible_iff field).symm

theorem Field.IsLegible.isSendable {field : Field} (h : field.IsLegible) : field.IsSendable where
  name := ⟨h.plain.name_colon, h.plain.name_end, h.name_trimmed.trim_eq⟩
  value := ⟨h.plain.value_end, h.value_trimmed.trim_eq⟩

namespace Response

@[mk_iff]
structure IsLegible (response : Response) : Prop where
  version : IsWord response.version
  reason_end : '\n' ∉ response.reason.toList
  fields : ∀ field ∈ response.headers.elements, field.IsLegible

instance (response : Response) : Decidable response.IsLegible :=
  decidable_of_iff _ (isLegible_iff response).symm

variable {response : Response}

theorem isWord_status (status : Nat) : IsWord (toString status) where
  ne := fun h => Numeral.toString_ne_empty status (by rw [h]; rfl)
  not_blank := fun _ hc => isBlank_of_isDigit (Numeral.isDigit_of_mem_toString hc)

theorem words_statusLine (h : IsWord response.version) :
    words response.statusLine =
      response.version :: toString response.status :: words (response.reason ++ "\r\n") := by
  have hshape : response.statusLine = response.version ++ " " ++
      (toString response.status ++ " " ++ (response.reason ++ "\r\n")) := by
    simp only [statusLine, String.append_assoc]
  rw [hshape, words_append_blank h, words_append_blank (isWord_status _)]

/-- Read as a line and a header section, a response gives its status and the names and values of its
fields, and what is left is its body, with no more and no less taken than its head. -/
theorem read_toBytes (h : response.IsLegible) (ending : Ending) :
    ∃ line behind headers after,
      Reading.line ending response.toBytes = (.ok line, behind) ∧
      (words line)[1]? = some (toString response.status) ∧
      Headers.read ending behind = (.ok headers, after) ∧
      headers.pairs.Perm response.headers.pairs ∧
      after = response.body ∧
      response.toBytes.length - after.length = response.head.length := by
  have hline : Reading.line ending response.toBytes =
      (.ok response.statusLine,
        Field.sectionBytes response.headers.written ++ response.body) := by
    rw [toBytes, head_eq, List.append_assoc]
    exact line_statusLine h.version.not_mem_lf h.reason_end ending _
  have hheaders := Headers.read_written (fun field hfield => (h.fields field hfield).isSendable)
    ending response.body
  have hperm : (Headers.ofFields response.headers.written).pairs.Perm response.headers.pairs := by
    rw [Headers.pairs_ofFields_written]
    exact response.headers.sorted_perm
  refine ⟨_, _, _, _, hline, ?_, hheaders, hperm, rfl, ?_⟩
  · rw [words_statusLine h.version]
    rfl
  · rw [toBytes, List.length_append, Nat.add_sub_cancel]

/-- A response without a reason, with a field that has neither name nor value, one with a colon and
a carriage return in its value, and a body that looks like a header section. -/
theorem read_toBytes_of_fields_in_body :
    ∃ line behind headers after,
      Reading.line .finished (toBytes ⟨"HTTP/1.1", 200, "",
        .ofFields [⟨"X-Ümlaut", "a: b\rc"⟩, ⟨"", ""⟩], Utf8.encode "A: b\r\n\r\n"⟩) =
          (.ok line, behind) ∧
      (words line)[1]? = some "200" ∧
      Headers.read .finished behind = (.ok headers, after) ∧
      headers.pairs.Perm [("x-ümlaut", "a: b\rc"), ("", "")] ∧
      after = Utf8.encode "A: b\r\n\r\n" ∧ after.length = 8 := by
  have hlegible : IsLegible ⟨"HTTP/1.1", 200, "",
      .ofFields [⟨"X-Ümlaut", "a: b\rc"⟩, ⟨"", ""⟩], Utf8.encode "A: b\r\n\r\n"⟩ := by
    decide +kernel
  have hpairs : (Headers.ofFields [⟨"X-Ümlaut", "a: b\rc"⟩, ⟨"", ""⟩]).pairs =
      [("x-ümlaut", "a: b\rc"), ("", "")] := by
    decide +kernel
  obtain ⟨line, behind, headers, after, hline, hstatus, hheaders, hperm, hafter, -⟩ :=
    read_toBytes hlegible .finished
  rw [hpairs] at hperm
  exact ⟨line, behind, headers, after, hline, hstatus, hheaders, hperm, hafter,
    hafter ▸ by decide +kernel⟩

end Response

end WireBench.Http
