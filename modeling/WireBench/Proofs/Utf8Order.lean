import WireBench.Text.Utf8

/-!
# The order of texts and of their bytes

Of two texts the one that comes first by its characters also comes first by the bytes of its
encoding: the forms of greater characters start with greater bytes, and within a form the bytes are
digits of the character, the greatest first.
-/

namespace WireBench.Utf8

/-- A byte decides the order unless it is the same, and then what follows it does. -/
theorem ofNat_cons_lt {m n : Nat} {as bs : Bytes} (hn : n < 256) (hle : m ≤ n)
    (hrest : m = n → as < bs) : UInt8.ofNat m :: as < UInt8.ofNat n :: bs := by
  rw [List.cons_lt_cons_iff]
  rcases Nat.lt_or_eq_of_le hle with hlt | rfl
  · left
    rw [UInt8.lt_iff_toNat_lt, UInt8.toNat_ofNat', UInt8.toNat_ofNat']
    omega
  · exact .inr ⟨rfl, hrest rfl⟩

theorem ofNat_cons_lt_of_lt {m n : Nat} (hn : n < 256) (h : m < n) (as bs : Bytes) :
    UInt8.ofNat m :: as < UInt8.ofNat n :: bs :=
  ofNat_cons_lt hn (Nat.le_of_lt h) fun he => absurd he (Nat.ne_of_lt h)

theorem encodeChar_append_lt {c d : Char} (h : c < d) (as bs : Bytes) :
    encodeChar c ++ as < encodeChar d ++ bs := by
  have hd : d.toNat < 0xD800 ∨ (0xDFFF < d.toNat ∧ d.toNat < 0x110000) := d.valid
  have hcd : c.toNat < d.toNat := h
  simp only [encodeChar]
  generalize c.toNat = m at hcd
  generalize d.toNat = n at hcd hd
  split
  · split
    · exact ofNat_cons_lt_of_lt (by omega) hcd _ _
    · split
      · exact ofNat_cons_lt_of_lt (by omega) (by omega) _ _
      · split
        · exact ofNat_cons_lt_of_lt (by omega) (by omega) _ _
        · exact ofNat_cons_lt_of_lt (by omega) (by omega) _ _
  · rw [if_neg (by omega : ¬ n < 0x80)]
    split
    · split
      · exact ofNat_cons_lt (by omega) (by omega) fun _ =>
          ofNat_cons_lt_of_lt (by omega) (by omega) _ _
      · split
        · exact ofNat_cons_lt_of_lt (by omega) (by omega) _ _
        · exact ofNat_cons_lt_of_lt (by omega) (by omega) _ _
    · rw [if_neg (by omega : ¬ n < 0x800)]
      split
      · split
        · exact ofNat_cons_lt (by omega) (by omega) fun _ =>
            ofNat_cons_lt (by omega) (by omega) fun _ =>
              ofNat_cons_lt_of_lt (by omega) (by omega) _ _
        · exact ofNat_cons_lt_of_lt (by omega) (by omega) _ _
      · rw [if_neg (by omega : ¬ n < 0x10000)]
        exact ofNat_cons_lt (by omega) (by omega) fun _ =>
          ofNat_cons_lt (by omega) (by omega) fun _ =>
            ofNat_cons_lt (by omega) (by omega) fun _ =>
              ofNat_cons_lt_of_lt (by omega) (by omega) _ _

theorem encodeChars_lt {cs ds : List Char} (h : cs < ds) : encodeChars cs < encodeChars ds := by
  induction h with
  | @nil d ds =>
    obtain ⟨b, bs, hshape, -⟩ := readChar_encodeChar d (encodeChars ds)
    have hbytes : encodeChars (d :: ds) = b :: bs := hshape
    rw [hbytes]
    exact List.nil_lt_cons b bs
  | cons _ ih => exact List.append_left_lt ih
  | @rel c cs d ds h => exact encodeChar_append_lt h _ _

/-- The order of texts is that of their bytes. -/
theorem encode_lt_encode_iff {s t : String} : encode s < encode t ↔ s < t := by
  constructor
  · intro h
    rcases Std.lt_trichotomy s t with hlt | rfl | hgt
    · exact hlt
    · exact absurd h (List.lt_irrefl _)
    · exact absurd h (List.lt_asymm (encodeChars_lt (String.lt_iff.1 hgt)))
  · exact fun h => encodeChars_lt (String.lt_iff.1 h)

end WireBench.Utf8
