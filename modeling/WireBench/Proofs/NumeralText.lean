import WireBench.Proofs.DecimalText

/-!
# What numerals are

A text is read as a number exactly if it is at least one decimal digit of that value, perhaps with a
plus sign in front, and the value is within the limit.
-/

namespace WireBench.Numeral

open WireBench.Text

/-- The text is a numeral of that value: perhaps a plus sign, and at least one digit. -/
def Spells (s : String) (n : Nat) : Prop :=
  ∃ ds : List Char, ds ≠ [] ∧ (∀ c ∈ ds, c.isDigit = true) ∧
    (s.toList = ds ∨ s.toList = '+' :: ds) ∧ Nat.ofDigitChars 10 ds 0 = n

variable {limit value n : Nat} {c : Char} {cs : List Char} {s : String}

theorem le_ofDigitChars (value : Nat) (cs : List Char) : value ≤ Nat.ofDigitChars 10 cs value := by
  induction cs generalizing value with
  | nil => exact Nat.le_refl _
  | cons c cs ih =>
    rw [Nat.ofDigitChars_cons]
    have hmore := ih (10 * value + (c.toNat - '0'.toNat))
    omega

theorem readDigits_eq_ok_iff (h : value ≤ limit) :
    readDigits limit value cs = .ok n ↔
      (∀ c ∈ cs, c.isDigit = true) ∧ Nat.ofDigitChars 10 cs value = n ∧ n ≤ limit := by
  induction cs generalizing value with
  | nil =>
    simp only [readDigits, Except.ok.injEq, Nat.ofDigitChars, List.foldl_nil]
    constructor
    · rintro rfl
      exact ⟨List.forall_mem_nil _, rfl, h⟩
    · exact fun h => h.2.1
  | cons c cs ih =>
    rw [List.forall_mem_cons, Nat.ofDigitChars_cons, Nat.mul_comm 10 value, readDigits]
    cases hc : c.isDigit with
    | false => simp [digit?_eq_none_iff.2 hc]
    | true =>
      rw [digit?_of_isDigit hc]
      by_cases hvalue : limit < value * 10 + (c.toNat - '0'.toNat)
      · have hle := le_ofDigitChars (value * 10 + (c.toNat - '0'.toNat)) cs
        simp only [hvalue, if_true]
        constructor
        · intro hread
          cases hread
        · rintro ⟨-, rfl, hlimit⟩
          omega
      · simp only [hvalue, if_false, true_and]
        exact ih (Nat.le_of_not_lt hvalue)

theorem spells_of_plus (h : s.toList = '+' :: cs) :
    Spells s n ↔ cs ≠ [] ∧ (∀ c ∈ cs, c.isDigit = true) ∧ Nat.ofDigitChars 10 cs 0 = n := by
  constructor
  · rintro ⟨ds, hne, hdigits, hshape, hvalue⟩
    rcases hshape with rfl | hshape
    · exact absurd (hdigits '+' (h ▸ List.mem_cons_self ..)) (by decide)
    · obtain rfl : cs = ds := List.cons.inj (h.symm.trans hshape) |>.2
      exact ⟨hne, hdigits, hvalue⟩
  · rintro ⟨hne, hdigits, hvalue⟩
    exact ⟨cs, hne, hdigits, .inr h, hvalue⟩

theorem spells_of_no_plus (h : s.toList.head? ≠ some '+') :
    Spells s n ↔ s.toList ≠ [] ∧ (∀ c ∈ s.toList, c.isDigit = true) ∧
      Nat.ofDigitChars 10 s.toList 0 = n := by
  constructor
  · rintro ⟨ds, hne, hdigits, rfl | hshape, hvalue⟩
    · exact ⟨hne, hdigits, hvalue⟩
    · exact absurd (hshape ▸ rfl) h
  · rintro ⟨hne, hdigits, hvalue⟩
    exact ⟨s.toList, hne, hdigits, .inl rfl, hvalue⟩

/-- What is read within a limit is a numeral of a value within it. -/
theorem read_eq_ok_iff : read limit s = .ok n ↔ Spells s n ∧ n ≤ limit := by
  have hdigits := @readDigits_eq_ok_iff limit 0 n s.toList (Nat.zero_le _)
  rw [read]
  split
  · next hs =>
    rw [spells_of_no_plus (by simp [hs]), hs]
    simp
  · next hs =>
    rw [spells_of_plus hs]
    simp
  · next cs hne hs =>
    rw [spells_of_plus hs, readDigits_eq_ok_iff (Nat.zero_le _), and_iff_right hne, and_assoc]
  · next hnil _ hplus =>
    have hne : s.toList.head? ≠ some '+' := by
      intro h
      obtain ⟨cs, hs⟩ := List.head?_eq_some_iff.1 h
      exact hplus cs hs
    rw [spells_of_no_plus hne, hdigits, and_iff_right hnil, and_assoc]

end WireBench.Numeral
