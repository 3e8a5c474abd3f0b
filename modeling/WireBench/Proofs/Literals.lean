import WireBench.Text.LetterCase
import WireBench.Text.Utf8

/-!
# Literals

The characters of a literal are read off it, which is much cheaper than decoding its text: what
holds of each of them, its bytes, and the names of header fields in lower case.
-/

namespace WireBench

/-- What holds of every character that a literal shows. -/
theorem Text.forall_mem_ofList {p : Char → Prop} [DecidablePred p] {cs : List Char}
    (h : cs.all (fun c => decide (p c)) = true) : ∀ c ∈ (String.ofList cs).toList, p c := by
  intro c hc
  rw [String.toList_ofList] at hc
  exact of_decide_eq_true (List.all_eq_true.1 h c hc)

/-- The bytes of a text that is given by its characters. -/
theorem Utf8.encode_ofList (cs : List Char) : encode (String.ofList cs) = encodeChars cs := by
  rw [encode, String.toList_ofList]

theorem Utf8.encode_crlf : encode "\r\n" = Bytes.crlf := by
  rw [encode_ofList]
  rfl

namespace Text

theorem lowercase_contentLength : lowercase "Content-Length" = "content-length" := by
  rw [lowercase, String.toList_ofList]
  rfl

theorem lowercase_contentType : lowercase "Content-Type" = "content-type" := by
  rw [lowercase, String.toList_ofList]
  rfl

theorem lowercase_contentDisposition :
    lowercase "Content-Disposition" = "content-disposition" := by
  rw [lowercase, String.toList_ofList]
  rfl

theorem lowercase_connection : lowercase "Connection" = "connection" := by
  rw [lowercase, String.toList_ofList]
  rfl

theorem lowercase_contentType_ne : lowercase "Content-Type" ≠ lowercase "Content-Length" := by
  rw [lowercase_contentType, lowercase_contentLength]
  decide

theorem lowercase_connection_ne : lowercase "Connection" ≠ lowercase "Content-Length" := by
  rw [lowercase_connection, lowercase_contentLength]
  decide

theorem lowercase_connection_ne_contentType :
    lowercase "Connection" ≠ lowercase "Content-Type" := by
  rw [lowercase_connection, lowercase_contentType]
  decide

end Text

end WireBench
