import Mathlib.Tactic.MkIffOfInductiveProp
import WireBench.Text.LetterCase
import WireBench.Text.Utf8

/-!
# Lower case and letter case

A text in lower case is its own lower case: no character that is the lower case of another has a
lower case of its own, and no sigma among them is a capital. The case of its ASCII letters makes no
difference to the lower case of a text, not even to a sigma beside them.
-/

namespace WireBench.Text

namespace CaseRange

/-- Whether the images of a range are characters, and neither ASCII capitals nor the capital I with a
dot. -/
def isImageApart (r : CaseRange) : Bool :=
  -- `Nat.blt` and `Nat.beq` are what the kernel evaluates at once when this is decided for the table.
  let last := r.image + (r.last - r.first)
  Nat.blt 0x5A r.image && (last.blt 0x130 || Nat.blt 0x130 r.image) &&
    (last.blt 0xD800 || (Nat.blt 0xDFFF r.image && last.blt 0x110000))

/-- Whether the images of a range lie on one side of another range or between its characters. -/
def imageMisses (r other : CaseRange) : Bool :=
  (r.image + (r.last - r.first)).blt other.first || other.last.blt r.image ||
    ((r.step.beq 2 || r.first.beq r.last) && other.step.beq 2 &&
      ((r.image + other.first) % 2).beq 1)

theorem imageMisses_lowerRanges :
    (lowerRanges.all fun r => r.isImageApart && lowerRanges.all r.imageMisses) = true := by
  decide +kernel

variable {r other : CaseRange} {n : Nat}

theorem image_le (h : r.contains n = true) :
    r.image ≤ n - r.first + r.image ∧ n - r.first + r.image ≤ r.image + (r.last - r.first) := by
  simp only [contains, Bool.and_eq_true, decide_eq_true_eq, beq_iff_eq] at h
  omega

theorem not_contains_image (hmisses : r.imageMisses other = true) (h : r.contains n = true) :
    other.contains (n - r.first + r.image) = false := by
  have hrange := image_le h
  rw [Bool.eq_false_iff]
  intro hother
  simp only [contains, Bool.and_eq_true, decide_eq_true_eq, beq_iff_eq] at h hother
  simp only [imageMisses, Bool.and_eq_true, Bool.or_eq_true, Nat.blt_eq, Nat.beq_eq] at hmisses
  -- Where the images lie among the characters of a range of every second one, it is the parity that
  -- tells them apart.
  rcases hmisses with (hbelow | habove) | ⟨⟨hstep | hsingle, htwo⟩, hodd⟩
  · omega
  · omega
  · rw [hstep] at h
    rw [htwo] at hother
    omega
  · rw [htwo] at hother
    omega

end CaseRange

/-- Whether a character is its own lower case wherever it stands. -/
structure IsLower (c : Char) : Prop where
  lowerChar_eq : lowerChar c = [c]
  ne_sigma : c ≠ 'Σ'

variable {c d : Char} {before cs : List Char} {s t : String}

theorem lowerChar_of_find? {r : CaseRange} (hascii : ¬ c.toNat < 0x80) (hdot : c.toNat ≠ 0x130)
    (h : lowerRanges.find? (·.contains c.toNat) = some r) :
    lowerChar c = [Char.ofNat (c.toNat - r.first + r.image)] := by
  simp only [lowerChar, if_neg hascii, if_neg hdot, h]

theorem lowerChar_of_not_contains (hdot : c.toNat ≠ 0x130)
    (hascii : c.toNat < 0x41 ∨ 0x5A < c.toNat)
    (h : ∀ r ∈ lowerRanges, r.contains c.toNat = false) : lowerChar c = [c] := by
  have hnone : lowerRanges.find? (·.contains c.toNat) = none :=
    List.find?_eq_none.2 fun r hr => by simp [h r hr]
  have hcapital : ¬ (0x41 ≤ c.toNat ∧ c.toNat ≤ 0x5A) := by omega
  simp only [lowerChar, if_neg hdot, hnone, if_neg hcapital, ite_self]

theorem isLower_of_ascii (h : c.toNat < 0x80) (hcapital : ¬ (0x41 ≤ c.toNat ∧ c.toNat ≤ 0x5A)) :
    IsLower c where
  lowerChar_eq := by simp only [lowerChar, if_pos h, if_neg hcapital]
  ne_sigma := by
    rintro rfl
    exact absurd h (by decide)

theorem isLower_sigma_forms : IsLower 'ς' ∧ IsLower 'σ' :=
  ⟨⟨by decide +kernel, by decide⟩, ⟨by decide +kernel, by decide⟩⟩

theorem isLower_lowerSigma (before after : List Char) : IsLower (lowerSigma before after) := by
  unfold lowerSigma
  split
  · exact isLower_sigma_forms.1
  · exact isLower_sigma_forms.2

theorem toNat_image {n : Nat} {r : CaseRange} (hapart : r.isImageApart = true)
    (h : r.contains n = true) :
    (Char.ofNat (n - r.first + r.image)).toNat = n - r.first + r.image := by
  have hrange := CaseRange.image_le h
  simp only [CaseRange.isImageApart, Bool.and_eq_true, Bool.or_eq_true, Nat.blt_eq] at hapart
  exact Utf8.toNat_charOfNat (by omega)

theorem isLower_of_isImageApart {n : Nat} (r : CaseRange) (hapart : r.isImageApart = true)
    (hmisses : ∀ other ∈ lowerRanges, r.imageMisses other = true) (h : r.contains n = true) :
    IsLower (Char.ofNat (n - r.first + r.image)) := by
  have hrange := CaseRange.image_le h
  have htoNat := toNat_image hapart h
  simp only [CaseRange.isImageApart, Bool.and_eq_true, Bool.or_eq_true, Nat.blt_eq] at hapart
  have hnot : ∀ other ∈ lowerRanges,
      other.contains (Char.ofNat (n - r.first + r.image)).toNat = false := fun other hother => by
    rw [htoNat]
    exact CaseRange.not_contains_image (hmisses other hother) h
  refine ⟨lowerChar_of_not_contains (by omega) (by omega) hnot, ?_⟩
  intro hsigma
  rw [hsigma] at hnot
  exact absurd hnot (by decide +kernel)

theorem isLower_of_mem_lowerChar (h : d ∈ lowerChar c) (hc : c ≠ 'Σ') : IsLower d := by
  by_cases hascii : c.toNat < 0x80
  · by_cases hcapital : 0x41 ≤ c.toNat ∧ c.toNat ≤ 0x5A
    · simp only [lowerChar, if_pos hascii, if_pos hcapital, List.mem_singleton] at h
      have htoNat : d.toNat = c.toNat + 0x20 := by
        rw [h, Utf8.toNat_charOfNat (by omega)]
      exact isLower_of_ascii (by omega) (by omega)
    · simp only [lowerChar, if_pos hascii, if_neg hcapital, List.mem_singleton] at h
      exact h ▸ isLower_of_ascii hascii hcapital
  · by_cases hdot : c.toNat = 0x130
    · simp only [lowerChar, if_neg hascii, if_pos hdot, List.mem_cons, List.not_mem_nil,
        or_false] at h
      obtain rfl | rfl := h
      · exact isLower_of_ascii (by decide) (by decide)
      · exact ⟨by decide +kernel, by decide⟩
    · cases hfind : lowerRanges.find? (·.contains c.toNat) with
      | some r =>
        rw [lowerChar_of_find? hascii hdot hfind, List.mem_singleton] at h
        have hr := List.all_eq_true.1 CaseRange.imageMisses_lowerRanges r
          (List.mem_of_find?_eq_some hfind)
        simp only [Bool.and_eq_true, List.all_eq_true] at hr
        have hcontains := List.find?_some hfind
        exact h ▸ isLower_of_isImageApart r hr.1 hr.2 hcontains
      | none =>
        have heq : lowerChar c = [c] := by
          simp only [lowerChar, if_neg hascii, if_neg hdot, hfind]
        rw [heq, List.mem_singleton] at h
        exact h ▸ ⟨heq, hc⟩

theorem isLower_of_mem_lowerAfter (h : d ∈ lowerAfter before cs) : IsLower d := by
  induction cs generalizing before with
  | nil => exact absurd h List.not_mem_nil
  | cons c cs ih =>
    rw [lowerAfter, List.mem_append] at h
    obtain h | h := h
    · split at h
      next => exact List.mem_singleton.1 h ▸ isLower_lowerSigma before cs
      next hc => exact isLower_of_mem_lowerChar h hc
    · exact ih h

theorem lowerAfter_eq_self (h : ∀ c ∈ cs, IsLower c) : lowerAfter before cs = cs := by
  induction cs generalizing before with
  | nil => rfl
  | cons c cs ih =>
    obtain ⟨hc, hcs⟩ := List.forall_mem_cons.1 h
    rw [lowerAfter, if_neg hc.ne_sigma, hc.lowerChar_eq, ih hcs, List.singleton_append]

@[simp]
theorem lowercase_lowercase (s : String) : lowercase (lowercase s) = lowercase s := by
  simp only [lowercase, String.toList_ofList]
  rw [lowerAfter_eq_self fun d hd => isLower_of_mem_lowerAfter hd]

/-! ### The case of ASCII letters -/

/-- Whether lower case makes the same of two characters and treats what stands around them alike. -/
@[mk_iff]
structure IsCaseVariant (c d : Char) : Prop where
  lowerChar_eq : lowerChar c = lowerChar d
  isCased_eq : isCased c = isCased d
  isCaseIgnorable_eq : isCaseIgnorable c = isCaseIgnorable d
  sigma_iff : c = 'Σ' ↔ d = 'Σ'

theorem isCaseVariant_capital :
    ∀ n < 0x5B, 0x41 ≤ n → IsCaseVariant (Char.ofNat (n + 0x20)) (Char.ofNat n) := by
  simp only [isCaseVariant_iff]
  decide +kernel

theorem isCaseVariant_asciiLower (c : Char) : IsCaseVariant (asciiLower c) c := by
  rw [asciiLower]
  split
  next h =>
    have hcapital := isCaseVariant_capital c.toNat (Nat.lt_succ_of_le h.2) h.1
    rwa [Char.ofNat_toNat] at hcapital
  next => exact ⟨rfl, rfl, rfl, Iff.rfl⟩

theorem meetsCased_map_asciiLower (cs : List Char) :
    meetsCased (cs.map asciiLower) = meetsCased cs := by
  have hignorable : isCaseIgnorable ∘ asciiLower = isCaseIgnorable :=
    funext fun c => (isCaseVariant_asciiLower c).isCaseIgnorable_eq
  have hcased : (fun c => isCased (asciiLower c)) = isCased :=
    funext fun c => (isCaseVariant_asciiLower c).isCased_eq
  rw [meetsCased, List.dropWhile_map, hignorable, List.head?_map, Option.any_map, hcased,
    meetsCased]

theorem lowerAfter_map_asciiLower (before cs : List Char) :
    lowerAfter (before.map asciiLower) (cs.map asciiLower) = lowerAfter before cs := by
  induction cs generalizing before with
  | nil => rfl
  | cons c cs ih =>
    have hc := isCaseVariant_asciiLower c
    have hmore := ih (c :: before)
    rw [List.map_cons] at hmore
    simp only [List.map_cons, lowerAfter, lowerSigma, hc.sigma_iff, hc.lowerChar_eq,
      meetsCased_map_asciiLower, hmore]

theorem lowercase_asciiLowercase (s : String) : lowercase (asciiLowercase s) = lowercase s := by
  have hlower := lowerAfter_map_asciiLower [] s.toList
  rw [List.map_nil] at hlower
  rw [lowercase, asciiLowercase, String.toList_ofList, hlower, lowercase]

theorem lowercase_eq_of_asciiLowercase (h : asciiLowercase s = asciiLowercase t) :
    lowercase s = lowercase t := by
  rw [← lowercase_asciiLowercase s, h, lowercase_asciiLowercase]

/-! ### Words of ASCII letters -/

/-- Of all characters that are not ASCII, only the Kelvin sign has a lower case of ASCII alone. -/
theorem ascii_image_lowerRanges : (lowerRanges.all fun r =>
    Nat.ble 0x80 r.image || (r.image.beq 'k'.toNat && r.first.beq r.last)) = true := by
  decide +kernel

/-- What is ASCII in lower case, but no k, was ASCII in the same place before. -/
theorem lowerChar_eq_asciiLower (h : ∀ d ∈ lowerChar c, d.toNat < 0x80 ∧ d ≠ 'k') :
    lowerChar c = [asciiLower c] := by
  by_cases hascii : c.toNat < 0x80
  · by_cases hcapital : 0x41 ≤ c.toNat ∧ c.toNat ≤ 0x5A
    · simp only [lowerChar, asciiLower, if_pos hascii, if_pos hcapital]
    · simp only [lowerChar, asciiLower, if_pos hascii, if_neg hcapital]
  · exfalso
    by_cases hdot : c.toNat = 0x130
    · have hmark := h (Char.ofNat 0x307) (by simp [lowerChar, hdot])
      exact absurd hmark.1 (by decide)
    · cases hfind : lowerRanges.find? (·.contains c.toNat) with
      | some r =>
        have hcontains := List.find?_some hfind
        have hr := List.mem_of_find?_eq_some hfind
        have hapart := List.all_eq_true.1 CaseRange.imageMisses_lowerRanges r hr
        have hascii' := List.all_eq_true.1 ascii_image_lowerRanges r hr
        have hrange := CaseRange.image_le hcontains
        rw [Bool.and_eq_true] at hapart
        simp only [Bool.or_eq_true, Bool.and_eq_true, Nat.ble_eq, Nat.beq_eq] at hascii'
        rw [lowerChar_of_find? hascii hdot hfind, List.forall_mem_singleton,
          toNat_image hapart.1 hcontains] at h
        obtain ⟨hlt, hk⟩ := h
        rcases hascii' with himage | ⟨himage, hsingle⟩
        · omega
        · have hk' : c.toNat - r.first + r.image = 'k'.toNat := by omega
          exact hk (by rw [hk']; rfl)
      | none =>
        have heq : lowerChar c = [c] := by
          simp only [lowerChar, if_neg hascii, if_neg hdot, hfind]
        rw [heq, List.forall_mem_singleton] at h
        exact hascii h.1

theorem lowerAfter_eq_map_asciiLower (h : ∀ d ∈ lowerAfter before cs, d.toNat < 0x80 ∧ d ≠ 'k') :
    lowerAfter before cs = cs.map asciiLower := by
  induction cs generalizing before with
  | nil => rfl
  | cons c cs ih =>
    rw [lowerAfter, List.forall_mem_append] at h
    obtain ⟨hc, hcs⟩ := h
    split at hc
    next hsigma =>
      have hform := (hc _ (List.mem_singleton_self _)).1
      unfold lowerSigma at hform
      split at hform <;> exact absurd hform (by decide)
    next hsigma =>
      rw [lowerAfter, if_neg hsigma, lowerChar_eq_asciiLower hc, ih hcs, List.map_cons,
        List.singleton_append]

/-- A text is a word of small ASCII letters without a k in lower case exactly if it is that word but
for the case of ASCII letters. -/
theorem lowercase_eq_iff_asciiLowercase {word : String}
    (hword : ∀ d ∈ word.toList, d.toNat < 0x80 ∧ d ≠ 'k' ∧ ¬ (0x41 ≤ d.toNat ∧ d.toNat ≤ 0x5A)) :
    lowercase s = word ↔ asciiLowercase s = word := by
  constructor
  · rintro rfl
    have hascii : ∀ d ∈ lowerAfter [] s.toList, d.toNat < 0x80 ∧ d ≠ 'k' := by
      intro d hd
      obtain ⟨hlt, hk, -⟩ := hword d (by rwa [lowercase, String.toList_ofList])
      exact ⟨hlt, hk⟩
    rw [asciiLowercase, lowercase, lowerAfter_eq_map_asciiLower hascii]
  · rintro rfl
    have hlower : lowerAfter [] (asciiLowercase s).toList = (asciiLowercase s).toList :=
      lowerAfter_eq_self fun d hd => isLower_of_ascii (hword d hd).1 (hword d hd).2.2
    rw [← lowercase_asciiLowercase, lowercase, hlower, String.ofList_toList]

end WireBench.Text
