import WireBench.Proofs.Framing

/-!
# Fresh boundaries

The marker of a fresh boundary is 35 bytes long whatever was drawn, so that form data is as long
under one as under another; and different draws have different markers.
-/

namespace WireBench

namespace Bytes

theorem hexDigit_injective : ∀ m < 16, ∀ n < 16, hexDigit m = hexDigit n → m = n := by
  decide

theorem hexPair_inj {b c : UInt8} : hexPair b = hexPair c ↔ b = c := by
  constructor
  · intro h
    have hb : b.toNat < 256 := b.toNat_lt
    have hc : c.toNat < 256 := c.toNat_lt
    simp only [hexPair, List.cons.injEq, and_true] at h
    have hhigh := hexDigit_injective _ (by omega) _ (by omega) h.1
    have hlow := hexDigit_injective _ (by omega) _ (by omega) h.2
    exact UInt8.toNat_inj.1 (by omega)
  · rintro rfl
    rfl

theorem toHex_inj {bs cs : Bytes} : toHex bs = toHex cs ↔ bs = cs := by
  constructor
  · intro h
    have hlists : bs.flatMap hexPair = cs.flatMap hexPair := String.ofList_injective h
    clear h
    induction bs generalizing cs with
    | nil =>
      cases cs with
      | nil => rfl
      | cons c cs => simp [hexPair] at hlists
    | cons b bs ih =>
      cases cs with
      | nil => simp [hexPair] at hlists
      | cons c cs =>
        rw [List.flatMap_cons, List.flatMap_cons] at hlists
        obtain ⟨hpair, hmore⟩ := List.append_inj hlists rfl
        rw [hexPair_inj.1 hpair, ih hmore]
  · rintro rfl
    rfl

theorem length_toHex (bs : Bytes) : (toHex bs).toList.length = 2 * bs.length := by
  rw [toHex, String.toList_ofList]
  induction bs with
  | nil => rfl
  | cons b bs ih =>
    rw [List.flatMap_cons, List.length_append, ih, hexPair]
    simp only [List.length_cons, List.length_nil]
    omega

end Bytes

namespace Multipart

theorem ofDraw_injective : Function.Injective Boundary.ofDraw := by
  intro draw other h
  have htoken : Boundary.stem ++ Bytes.toHex draw.toList =
      Boundary.stem ++ Bytes.toHex other.toList :=
    congrArg Boundary.token h
  exact Vector.toList_inj.1 (Bytes.toHex_inj.1 ((String.append_right_inj _).1 htoken))

theorem marker_inj {boundary other : Boundary} :
    boundary.marker = other.marker ↔ boundary = other := by
  constructor
  · intro h
    have htoken : boundary.token = other.token :=
      (String.append_right_inj _).1 (Utf8.encode_inj.1 h)
    exact congrArg Boundary.mk htoken
  · rintro rfl
    rfl

theorem marker_injective : Function.Injective fun draw => (Boundary.ofDraw draw).marker :=
  fun _ _ h => ofDraw_injective (marker_inj.1 h)

/-- Whatever was drawn, the marker is 35 bytes long. -/
theorem length_marker (draw : Draw) : (Boundary.ofDraw draw).marker.length = 35 := by
  have hascii : ∀ c ∈ (Boundary.ofDraw draw).delimiter.toList, c.toNat < 128 := by
    intro c hc
    have hrange := toNat_of_isTokenChar (List.all_eq_true.1 (isTokenChar_delimiter draw) c hc)
    omega
  have hstem : ("--" ++ Boundary.stem).toList.length = 19 := by
    delta Boundary.stem
    rw [String.toList_append, String.toList_ofList, String.toList_ofList]
    rfl
  have hparts : (Boundary.ofDraw draw).delimiter.toList =
      ("--" ++ Boundary.stem).toList ++ (Bytes.toHex draw.toList).toList := by
    simp [Boundary.delimiter, Boundary.ofDraw]
  rw [Boundary.marker, Utf8.length_encode_ascii hascii, hparts, List.length_append, hstem,
    Bytes.length_toHex, Vector.length_toList]

theorem framesLength_congr {boundary other : Boundary}
    (h : boundary.markerLength = other.markerLength) (parts : List Part) :
    framesLength boundary parts = framesLength other parts := by
  induction parts with
  | nil => rfl
  | cons part parts ih => rw [framesLength, framesLength, frameLength, frameLength, h, ih]

/-- Form data is as long under one fresh boundary as under another. -/
theorem length_ofDraw (draw other : Draw) (parts : List Part) :
    FormData.length ⟨.ofDraw draw, parts⟩ = FormData.length ⟨.ofDraw other, parts⟩ := by
  have hmarker : (Boundary.ofDraw draw).markerLength = (Boundary.ofDraw other).markerLength := by
    rw [← Boundary.length_marker_eq, ← Boundary.length_marker_eq, length_marker, length_marker]
  rw [FormData.length, FormData.length, hmarker, framesLength_congr hmarker]

end Multipart

end WireBench
