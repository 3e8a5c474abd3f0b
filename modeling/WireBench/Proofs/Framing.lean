import WireBench.Multipart.Markers
import WireBench.Proofs.Literals
import WireBench.Proofs.Occurrence
import WireBench.Proofs.Utf8Bytes

/-!
# The framing of form data

A message is a marker and what follows it, and what follows a marker is either the closing of the
message or the rest of a frame, the next marker and what follows that. The marker of a fresh
boundary is two dashes, a letter and more letters, digits and dashes.
-/

namespace WireBench.Multipart

open WireBench.Text

/-- A frame without the marker and without the last line feed. -/
def frameBody (part : Part) : Bytes :=
  Bytes.crlf ++ Utf8.encode (partHeader part) ++ Bytes.crlf ++ part.content ++ [Bytes.cr]

/-- What follows the first marker of a message. -/
def behindMarker (boundary : Boundary) : List Part → Bytes
  | [] => dashes ++ Bytes.crlf
  | part :: parts =>
    frameBody part ++ Bytes.lf :: (boundary.marker ++ behindMarker boundary parts)

theorem frame_eq (boundary : Boundary) (part : Part) :
    frame boundary part = boundary.marker ++ (frameBody part ++ [Bytes.lf]) := by
  simp [frame, frameBody, Bytes.crlf]

theorem bytes_nil (boundary : Boundary) : FormData.bytes ⟨boundary, []⟩ = closing boundary := rfl

theorem bytes_cons (boundary : Boundary) (part : Part) (parts : List Part) :
    FormData.bytes ⟨boundary, part :: parts⟩ =
      frame boundary part ++ FormData.bytes ⟨boundary, parts⟩ := by
  simp [FormData.bytes]

theorem bytes_eq (boundary : Boundary) (parts : List Part) :
    FormData.bytes ⟨boundary, parts⟩ = boundary.marker ++ behindMarker boundary parts := by
  induction parts with
  | nil => simp [bytes_nil, closing, behindMarker]
  | cons part parts ih => simp [bytes_cons, ih, frame_eq, behindMarker]

def isTokenChar (c : Char) : Bool :=
  c == '-' || c.isAlphanum

theorem toNat_of_isTokenChar {c : Char} (h : isTokenChar c = true) :
    45 ≤ c.toNat ∧ c.toNat ≤ 122 := by
  delta isTokenChar Char.isAlphanum Char.isAlpha Char.isUpper Char.isLower Char.isDigit at h
  simp only [Bool.or_eq_true, Bool.and_eq_true, decide_eq_true_eq, beq_iff_eq, ge_iff_le,
    UInt32.le_iff_toNat_le] at h
  rcases h with rfl | h
  · decide
  · have hval : c.val.toNat = c.toNat := rfl
    rw [hval] at h
    simp at h
    omega

private theorem isTokenChar_hexDigit : ∀ n < 16, isTokenChar (Bytes.hexDigit n) = true := by
  decide

private theorem isTokenChar_hexPair (b : UInt8) : (Bytes.hexPair b).all isTokenChar = true := by
  have hb : b.toNat < 256 := b.toNat_lt
  have hhigh := isTokenChar_hexDigit (b.toNat / 16) (by omega)
  have hlow := isTokenChar_hexDigit (b.toNat % 16) (by omega)
  simp [Bytes.hexPair, hhigh, hlow]

theorem isTokenChar_delimiter (draw : Draw) :
    (Boundary.ofDraw draw).delimiter.toList.all isTokenChar = true := by
  have hstem : ("--" ++ Boundary.stem).toList.all isTokenChar = true := by
    delta Boundary.stem
    rw [String.toList_append, String.toList_ofList, String.toList_ofList]
    rfl
  have hhex : (Bytes.toHex draw.toList).toList.all isTokenChar = true := by
    rw [Bytes.toHex, String.toList_ofList, List.all_flatMap, List.all_eq_true]
    intro b _
    exact isTokenChar_hexPair b
  have happ : (Boundary.ofDraw draw).delimiter.toList =
      ("--" ++ Boundary.stem).toList ++ (Bytes.toHex draw.toList).toList := by
    simp [Boundary.delimiter, Boundary.ofDraw]
  rw [happ, List.all_append, hstem, hhex]
  rfl

/-- Line ends, quotes and spaces do not stand in a marker. -/
theorem not_mem_marker (draw : Draw) {c : Char} (hc : c.toNat < 128)
    (ht : isTokenChar c = false) :
    UInt8.ofNat c.toNat ∉ (Boundary.ofDraw draw).marker := by
  intro h
  have hmem := (Utf8.mem_encode_iff hc _).1 h
  have hall := List.all_eq_true.1 (isTokenChar_delimiter draw) c hmem
  rw [ht] at hall
  exact Bool.noConfusion hall

theorem marker_eq (draw : Draw) :
    ∃ more, (Boundary.ofDraw draw).marker = dashes ++ 102 :: more := by
  have hstem : Utf8.encode Boundary.stem = 102 :: Utf8.encode "ixture-boundary-" := by
    delta Boundary.stem
    rw [Utf8.encode_ofList, Utf8.encode_ofList]
    rfl
  refine ⟨Utf8.encode "ixture-boundary-" ++ Utf8.encode (Bytes.toHex draw.toList), ?_⟩
  simp only [Boundary.marker, Boundary.delimiter, Boundary.ofDraw, Utf8.encode_append, hstem]
  rfl

end WireBench.Multipart
