import WireBench.Text.Utf8

/-!
# ASCII in the encoding of a text

An ASCII byte in the encoding of a text is an ASCII character of that text: the bytes of all longer
forms lie above.
-/

namespace WireBench.Utf8

theorem encodeChars_cons {c : Char} (hc : c.toNat < 128) (cs : List Char) :
    encodeChars (c :: cs) = UInt8.ofNat c.toNat :: encodeChars cs := by
  rw [encodeChars, List.flatMap_cons, encodeChar_ascii hc]
  rfl

/-- A text of ASCII characters has as many bytes as characters. -/
theorem length_encode_ascii {s : String} (h : ∀ c ∈ s.toList, c.toNat < 128) :
    (encode s).length = s.toList.length := by
  rw [encode, encodeChars]
  generalize s.toList = cs at h
  induction cs with
  | nil => rfl
  | cons c cs ih =>
    obtain ⟨hc, hcs⟩ := List.forall_mem_cons.1 h
    rw [List.flatMap_cons, List.length_append, ih hcs, encodeChar_ascii hc]
    exact Nat.add_comm 1 cs.length

theorem encode_inj {s t : String} : encode s = encode t ↔ s = t := by
  constructor
  · intro h
    have hs := decode?_encode s
    rw [h, decode?_encode] at hs
    exact (Option.some.inj hs).symm
  · rintro rfl
    rfl

theorem toNat_eq_of_mem_encodeChar {c : Char} {b : UInt8} (hb : b ∈ encodeChar c)
    (h : b.toNat < 128) : b.toNat = c.toNat := by
  have hc : c.toNat < 0x110000 := by
    have hv : c.toNat < 0xD800 ∨ (0xDFFF < c.toNat ∧ c.toNat < 0x110000) := c.valid
    omega
  simp only [encodeChar] at hb
  split at hb
  · rw [List.mem_singleton] at hb
    subst hb
    simp
    omega
  · split at hb
    · simp only [List.mem_cons, List.not_mem_nil, or_false] at hb
      rcases hb with rfl | rfl <;> simp at h <;> omega
    · split at hb
      · simp only [List.mem_cons, List.not_mem_nil, or_false] at hb
        rcases hb with rfl | rfl | rfl <;> simp at h <;> omega
      · simp only [List.mem_cons, List.not_mem_nil, or_false] at hb
        rcases hb with rfl | rfl | rfl | rfl <;> simp at h <;> omega

theorem mem_encode_iff {c : Char} (hc : c.toNat < 128) (s : String) :
    UInt8.ofNat c.toNat ∈ encode s ↔ c ∈ s.toList := by
  have hn := toNat_ofNat_ascii hc
  simp only [encode, encodeChars, List.mem_flatMap]
  constructor
  · rintro ⟨d, hd, hb⟩
    have hcd := toNat_eq_of_mem_encodeChar hb (by omega)
    obtain rfl : c = d := Char.toNat_inj.1 (by omega)
    exact hd
  · intro h
    exact ⟨c, h, by simp [encodeChar_ascii hc]⟩

/-- An ASCII character of a text that is not its last is also found before the last byte. -/
theorem mem_dropLast_encode {c : Char} {s : String} (hc : c.toNat < 128)
    (h : c ∈ s.toList.dropLast) : UInt8.ofNat c.toNat ∈ (encode s).dropLast := by
  have hne : s.toList ≠ [] := fun hnil => by simp [hnil] at h
  obtain ⟨b, bs, hlast, -⟩ := readChar_encodeChar (s.toList.getLast hne) []
  rw [List.append_nil] at hlast
  have hshape : encode s = encodeChars s.toList.dropLast ++ b :: bs := by
    rw [encode, ← hlast]
    conv => lhs; rw [← List.dropLast_concat_getLast hne]
    simp [encodeChars]
  rw [hshape, List.dropLast_append_of_ne_nil (by simp)]
  refine List.mem_append_left _ ?_
  have hmem := (mem_encode_iff hc (String.ofList s.toList.dropLast)).2 (by simpa using h)
  rwa [encode, String.toList_ofList] at hmem

end WireBench.Utf8
