import WireBench.Http.Sending
import WireBench.Proofs.LastFields

/-!
# The order of written fields

What is written of a response depends on the last value of every name alone, and not on the order in
which fields were set or are listed, nor on the spelling of their names: the lines of the head stand
in the order of their names, and no two of them have the same.
-/

namespace WireBench.Http

open WireBench.Transport

/-- Whether headers are what remains of fields, listed in whatever order. -/
def Headers.AreLeftOf (headers : Headers) (fields : List Field) : Prop :=
  headers.elements.Perm (ofFields fields).elements

namespace Response

/-- Whether two responses cannot be told apart by what is written of them. -/
structure IsWrittenAs (response other : Response) : Prop where
  head : response.head = other.head
  toBytes : response.toBytes = other.toBytes
  send : ∀ peer chunk withBody wire,
    response.send peer chunk withBody wire = other.send peer chunk withBody wire

/-- Whether the head of a response has one line for every name among some fields, which tells the
last value of that name, and the lines strictly ascend by the bytes of their names. -/
def TellsInOrder (response : Response) (fields : List Field) : Prop :=
  ∃ lines : List (String × String),
    response.head = Utf8.encode response.statusLine ++
      lines.flatMap (fun line => Utf8.encode (line.1 ++ ": " ++ line.2 ++ "\r\n")) ++ Bytes.crlf ∧
    (lines.map fun line => Utf8.encode line.1).Pairwise (· < ·) ∧
    (lines.map Prod.fst).Perm (fields.map Field.key).dedup ∧
    ∀ name value, (name, value) ∈ lines ↔ Field.IsLastValue fields name value

end Response

namespace Headers

variable {headers other : Headers} {fields others : List Field}

theorem AreLeftOf.pairs_perm (h : headers.AreLeftOf fields) :
    headers.pairs.Perm (ofFields fields).pairs := by
  rw [pairs, pairs]
  exact List.Perm.map _ h

theorem nodup_pairs (headers : Headers) : headers.pairs.Nodup := by
  have hnames : (headers.pairs.map Prod.fst).Nodup := by
    rw [map_fst_pairs]
    exact headers.nodup
  exact hnames.of_map _

theorem sorted_eq_of_perm (h : headers.pairs.Perm other.pairs) : headers.sorted = other.sorted := by
  have hperm : headers.sorted.Perm other.sorted :=
    headers.sorted_perm.trans (h.trans other.sorted_perm.symm)
  refine hperm.eq_of_pairwise (fun a b _ _ hab hba => ?_) headers.pairwise_sorted
    other.pairwise_sorted
  exact absurd (String.lt_trans hab hba) (String.lt_irrefl a.1)

theorem pairs_ofFields_perm
    (h : ∀ name value, Field.IsLastValue fields name value ↔ Field.IsLastValue others name value) :
    (ofFields fields).pairs.Perm (ofFields others).pairs := by
  refine (List.perm_ext_iff_of_nodup (nodup_pairs _) (nodup_pairs _)).2 ?_
  rintro ⟨name, value⟩
  rw [mem_pairs_ofFields, mem_pairs_ofFields, h]

end Headers

namespace Response

variable {response other : Response}

theorem isWrittenAs_of_sorted_eq {headers headers' : Headers} (h : headers.sorted = headers'.sorted)
    (response : Response) :
    IsWrittenAs { response with headers := headers } { response with headers := headers' } := by
  have hhead : head { response with headers := headers } =
      head { response with headers := headers' } := by
    simp only [head, statusLine, h]
  refine ⟨hhead, ?_, fun peer chunk withBody wire => ?_⟩
  · rw [toBytes, toBytes, hhead]
  · simp only [send, pieces, hhead]

/-- The head tells the remaining fields in the order of their names. -/
theorem tellsInOrder_of_areLeftOf {fields : List Field} (h : response.headers.AreLeftOf fields) :
    response.TellsInOrder fields := by
  have hperm := response.headers.sorted_perm.trans h.pairs_perm
  refine ⟨response.headers.sorted, rfl, ?_, ?_, fun name value => ?_⟩
  · exact List.pairwise_map.2 (response.headers.pairwise_sorted.imp Utf8.encode_lt_encode_iff.2)
  · refine (hperm.map Prod.fst).trans ?_
    rw [Headers.map_fst_pairs]
    exact Headers.keys_ofFields fields
  · rw [hperm.mem_iff, Headers.mem_pairs_ofFields]

/-- Responses that differ only in the order and the spelling in which the same last values were set
and are listed are written alike, with one line for every name, in the order of the names. -/
theorem isWrittenAs_of_last_values {fields others : List Field} {headers headers' : Headers}
    (hlast : ∀ name value,
      Field.IsLastValue fields name value ↔ Field.IsLastValue others name value)
    (hheaders : headers.AreLeftOf fields) (hheaders' : headers'.AreLeftOf others)
    (response : Response) :
    IsWrittenAs { response with headers := headers } { response with headers := headers' } ∧
      TellsInOrder { response with headers := headers } fields := by
  have hpairs : headers.pairs.Perm headers'.pairs :=
    hheaders.pairs_perm.trans ((Headers.pairs_ofFields_perm hlast).trans hheaders'.pairs_perm.symm)
  exact ⟨isWrittenAs_of_sorted_eq (Headers.sorted_eq_of_perm hpairs) response,
    tellsInOrder_of_areLeftOf hheaders⟩

/-- A type that was set twice, and the same fields set once, in another order and under other
spellings, and listed in a third order. -/
theorem isWrittenAs_of_other_spellings :
    IsWrittenAs
        ⟨"HTTP/1.1", 200, "OK", .ofFields [⟨"Content-Type", "text/html"⟩, ⟨"X-É", "1"⟩,
          ⟨"CONTENT-TYPE", "a/b"⟩], [1]⟩
        ⟨"HTTP/1.1", 200, "OK", ⟨[⟨"content-Type", "a/b"⟩, ⟨"x-é", "1"⟩], by decide +kernel⟩, [1]⟩ ∧
      TellsInOrder
        ⟨"HTTP/1.1", 200, "OK", .ofFields [⟨"Content-Type", "text/html"⟩, ⟨"X-É", "1"⟩,
          ⟨"CONTENT-TYPE", "a/b"⟩], [1]⟩
        [⟨"Content-Type", "text/html"⟩, ⟨"X-É", "1"⟩, ⟨"CONTENT-TYPE", "a/b"⟩] := by
  have hlast : ∀ name value,
      Field.IsLastValue [⟨"Content-Type", "text/html"⟩, ⟨"X-É", "1"⟩, ⟨"CONTENT-TYPE", "a/b"⟩]
        name value ↔ Field.IsLastValue [⟨"x-é", "1"⟩, ⟨"content-Type", "a/b"⟩] name value := by
    have hpairs : (Headers.ofFields [⟨"Content-Type", "text/html"⟩, ⟨"X-É", "1"⟩,
        ⟨"CONTENT-TYPE", "a/b"⟩]).pairs.Perm
          (Headers.ofFields [⟨"x-é", "1"⟩, ⟨"content-Type", "a/b"⟩]).pairs := by
      decide +kernel
    intro name value
    rw [← Headers.mem_pairs_ofFields, ← Headers.mem_pairs_ofFields, hpairs.mem_iff]
  have hlisted : Headers.AreLeftOf ⟨[⟨"content-Type", "a/b"⟩, ⟨"x-é", "1"⟩], by decide +kernel⟩
      [⟨"x-é", "1"⟩, ⟨"content-Type", "a/b"⟩] := by
    rw [Headers.AreLeftOf]
    decide +kernel
  exact isWrittenAs_of_last_values hlast (List.Perm.refl _) hlisted
    ⟨"HTTP/1.1", 200, "OK", .empty, [1]⟩

end Response

end WireBench.Http
