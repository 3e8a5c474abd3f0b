import WireBench.Bytes

/-!
# Digits

The values of decimal digits, and of hexadecimal digits in either letter case.
-/

namespace WireBench.Text

def digit? (c : Char) : Option Nat :=
  if 48 ≤ c.toNat ∧ c.toNat ≤ 57 then some (c.toNat - 48) else none

def hexDigit? (c : Char) : Option Nat :=
  if c.toNat < 128 then (Bytes.hexValue? (UInt8.ofNat c.toNat)).map UInt8.toNat else none

variable {c : Char} {d : Nat}

theorem digit?_digitChar : ∀ d < 10, digit? (Nat.digitChar d) = some d := by
  decide

theorem digit?_of_isDigit (h : c.isDigit = true) : digit? c = some (c.toNat - '0'.toNat) :=
  if_pos (Char.isDigit_iff_toNat.1 h)

theorem digit?_eq_none_iff : digit? c = none ↔ c.isDigit = false := by
  rw [← Bool.not_eq_true, Char.isDigit_iff_toNat, digit?]
  split
  · next h => simp [h]
  · next h => simp [h]

theorem eq_digitChar_of_digit? (h : digit? c = some d) : d < 10 ∧ c = Nat.digitChar d := by
  rw [digit?] at h
  split at h
  · next hrange =>
    obtain rfl := Option.some.inj h
    refine ⟨by omega, Char.toNat_inj.1 ?_⟩
    rw [Nat.toNat_digitChar_of_lt_ten (by omega)]
    omega
  · cases h

end WireBench.Text
