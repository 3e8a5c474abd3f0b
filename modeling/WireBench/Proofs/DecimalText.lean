import WireBench.Text.Blank
import WireBench.Text.Numeral

/-!
# Decimal numbers read back

A number written in decimal is read as that number, and its text has no blanks, so that it can stand
in a header line.
-/

namespace WireBench

namespace Numeral

open WireBench.Text

theorem toList_toString (n : Nat) : (toString n).toList = Nat.toDigits 10 n := by
  rw [Nat.toString_eq_repr, Nat.toList_repr]

theorem readDigits_append (limit value : Nat) (cs ds : List Char) :
    readDigits limit value (cs ++ ds) =
      (readDigits limit value cs).bind fun value => readDigits limit value ds := by
  induction cs generalizing value with
  | nil => rfl
  | cons c cs ih =>
    simp only [List.cons_append, readDigits]
    cases digit? c with
    | none => rfl
    | some d =>
      by_cases h : limit < value * 10 + d
      · simp only [h, if_true]
        rfl
      · simp only [h, if_false]
        exact ih _

theorem readDigits_toDigits {limit n : Nat} (h : n ≤ limit) :
    readDigits limit 0 (Nat.toDigits 10 n) = .ok n := by
  induction n using Nat.strongRecOn with
  | ind n ih =>
    rw [Nat.toDigits_eq_if (by decide)]
    by_cases hn : n < 10
    · have hlimit : ¬ limit < n := Nat.not_lt.2 h
      simp [hn, readDigits, digit?_digitChar n hn, hlimit]
    · have hlast : n % 10 < 10 := Nat.mod_lt n (by decide)
      have hfront := ih (n / 10) (by omega) (by omega)
      have hvalue : n / 10 * 10 + n % 10 = n := by omega
      have hlimit : ¬ limit < n := Nat.not_lt.2 h
      rw [if_neg hn, readDigits_append, hfront]
      simp [Except.bind, readDigits, digit?_digitChar _ hlast, hvalue, hlimit]

theorem isDigit_of_mem_toString {n : Nat} {c : Char} (h : c ∈ (toString n).toList) :
    c.isDigit = true := by
  rw [toList_toString] at h
  exact Nat.isDigit_of_mem_toDigits (by decide) (by decide) h

theorem toString_ne_empty (n : Nat) : (toString n).toList ≠ [] := by
  rw [toList_toString]
  exact Nat.toDigits_ne_nil

theorem read_toString {limit n : Nat} (h : n ≤ limit) : read limit (toString n) = .ok n := by
  have hdigits := readDigits_toDigits h
  rw [← toList_toString] at hdigits
  cases hs : (toString n).toList with
  | nil => exact absurd hs (toString_ne_empty n)
  | cons c cs =>
    have hc : c.isDigit = true := isDigit_of_mem_toString (hs ▸ List.mem_cons_self ..)
    have hsign : c ≠ '+' := by
      rintro rfl
      exact absurd hc (by decide)
    rw [hs] at hdigits
    simp only [read, hs]
    split
    · next h' => simp at h'
    · next h' => exact absurd (List.cons.inj h').1 hsign
    · next h' => exact absurd (List.cons.inj h').1 hsign
    · exact hdigits

/-- The digits of a number make it up from left to right. -/
theorem foldlM_toDigits (n : Nat) :
    (Nat.toDigits 10 n).foldlM (fun value c => (digit? c).map fun d => value * 10 + d) 0 =
      some n := by
  induction n using Nat.strongRecOn with
  | ind n ih =>
    rw [Nat.toDigits_eq_if (by decide)]
    by_cases hn : n < 10
    · simp [hn, digit?_digitChar n hn]
    · have hlast : n % 10 < 10 := Nat.mod_lt n (by decide)
      have hfront := ih (n / 10) (by omega)
      have hvalue : n / 10 * 10 + n % 10 = n := by omega
      rw [if_neg hn, List.foldlM_append, hfront]
      simp [digit?_digitChar _ hlast, hvalue]

theorem readDecimal?_toString (n : Nat) : readDecimal? (toString n) = some n := by
  have hne : (toString n).isEmpty = false := by
    rw [← Bool.not_eq_true, String.isEmpty_iff]
    exact fun h => toString_ne_empty n (by rw [h]; rfl)
  rw [readDecimal?, hne, toList_toString]
  exact foldlM_toDigits n

end Numeral

namespace Text

theorem isBlank_of_isDigit {c : Char} (h : c.isDigit = true) : isBlank c = false := by
  have hrange : 48 ≤ c.toNat ∧ c.toNat ≤ 57 := Char.isDigit_iff_toNat.1 h
  simp [isBlank]
  omega

end Text

end WireBench
