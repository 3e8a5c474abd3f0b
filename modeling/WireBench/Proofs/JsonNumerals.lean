import WireBench.Proofs.DecimalText
import WireBench.Json.Shape
import WireBench.Proofs.JsonGrammar

/-!
# Numbers in JSON

A number is read exactly if it is spelled, up to the first character with which it cannot go on.
Integers that are read have 64 bits, and an integer of 64 bits is what its digits are read as.
-/

namespace WireBench.Json

open WireBench.Json.Token WireBench.Text

variable {c : Char} {d : Nat} {ds : List Nat} {cs rest spelling : List Char}

/-! ### Digits -/

def EndsDigits (rest : List Char) : Prop :=
  ∀ c ∈ rest.head?, c.isDigit = false

theorem readDigits_append (hds : IsDigits ds) (hrest : EndsDigits rest) (done : List Nat) :
    readDigits done (digitChars ds ++ rest) = (done.reverse ++ ds, rest) := by
  induction ds generalizing done with
  | nil =>
    cases rest with
    | nil => simp [digitChars, readDigits]
    | cons c rest => simp [digitChars, readDigits, digit?_eq_none_iff.2 (hrest c rfl)]
  | cons d ds ih =>
    obtain ⟨hd, hds⟩ := List.forall_mem_cons.1 hds
    rw [digitChars, List.map_cons, List.cons_append, readDigits, digit?_digitChar d hd]
    simp only
    rw [← digitChars, ih hds]
    simp

theorem digits_of_readDigits (done : List Nat) (cs : List Char) :
    ∃ ds, (readDigits done cs).1 = done.reverse ++ ds ∧ IsDigits ds ∧
      cs = digitChars ds ++ (readDigits done cs).2 ∧ EndsDigits (readDigits done cs).2 := by
  fun_induction readDigits done cs with
  | case1 done =>
    refine ⟨[], by simp, List.forall_mem_nil _, rfl, ?_⟩
    intro c hc
    cases hc
  | case2 done c cs d hd ih =>
    obtain ⟨ds, hvalue, hds, hcs, hends⟩ := ih
    obtain ⟨hlt, rfl⟩ := eq_digitChar_of_digit? hd
    refine ⟨d :: ds, by simp [hvalue], List.forall_mem_cons.2 ⟨hlt, hds⟩, ?_, hends⟩
    rw [digitChars, List.map_cons, List.cons_append, ← digitChars, ← hcs]
  | case3 done c cs hd =>
    refine ⟨[], by simp, List.forall_mem_nil _, rfl, ?_⟩
    intro c' hc'
    obtain rfl := Option.some.inj hc'
    exact digit?_eq_none_iff.1 hd

/-- Digits are read exactly if they are spelled up to the first character that is none. -/
theorem readDigits_eq_iff :
    readDigits [] cs = (ds, rest) ↔ IsDigits ds ∧ cs = digitChars ds ++ rest ∧ EndsDigits rest := by
  constructor
  · intro h
    obtain ⟨ds', hvalue, hds, hcs, hends⟩ := digits_of_readDigits [] cs
    rw [h] at hvalue hcs hends
    obtain rfl : ds = ds' := hvalue
    exact ⟨hds, hcs, hends⟩
  · rintro ⟨hds, rfl, hends⟩
    exact readDigits_append hds hends []

/-! ### The parts of a number -/

variable {numeral : Numeral} {n : Number} {minus : Bool} {sign : List Char}
  {fraction : Option (List Nat)} {exponent : Option (Bool × List Nat)}

theorem EndsNumber.endsDigits (h : EndsNumber rest) : EndsDigits rest := by
  intro c hc
  have hstop := h c hc
  simp only [goesOn, Bool.or_eq_false_iff] at hstop
  exact hstop.1.1.1

theorem digitChars_cons (hds : IsDigits ds) (hne : ds ≠ []) :
    ∃ c cs, digitChars ds = c :: cs ∧ c.isDigit = true := by
  cases ds with
  | nil => exact absurd rfl hne
  | cons d ds =>
    refine ⟨_, _, rfl, ?_⟩
    rw [Nat.isDigit_digitChar]
    exact decide_eq_true (hds d (List.mem_cons_self ..))

theorem readSign_append (h : SignSpelling minus sign) (hds : IsDigits ds) (hne : ds ≠ [])
    (rest : List Char) :
    readSign (sign ++ (digitChars ds ++ rest)) = (minus, digitChars ds ++ rest) := by
  obtain ⟨c, cs, hdigits, hc⟩ := digitChars_cons hds hne
  cases h with
  | absent =>
    rw [List.nil_append, hdigits, List.cons_append, readSign.eq_def]
    split
    · next h => rw [(List.cons.inj h).1] at hc; exact absurd hc (by decide)
    · next h => rw [(List.cons.inj h).1] at hc; exact absurd hc (by decide)
    · rfl
  | plus => rfl
  | minus => rfl

theorem spelling_of_readSign (cs : List Char) :
    ∃ sign, SignSpelling (readSign cs).1 sign ∧ cs = sign ++ (readSign cs).2 := by
  rw [readSign.eq_def]
  split
  · exact ⟨_, .plus, rfl⟩
  · exact ⟨_, .minus, rfl⟩
  · exact ⟨_, .absent, rfl⟩

theorem readExponent_append (h : ExponentSpelling exponent spelling) (hrest : EndsNumber rest) :
    readExponent (spelling ++ rest) = some (exponent, rest) := by
  cases h with
  | absent =>
    cases rest with
    | nil => rfl
    | cons c rest =>
      have hstop := hrest c rfl
      simp only [goesOn, Bool.or_eq_false_iff, beq_eq_false_iff_ne] at hstop
      rw [List.nil_append, readExponent, if_neg]
      exact not_or.2 ⟨hstop.1.2, hstop.2⟩
  | @digits e minus sign ds he hsign hds hne =>
    have hread := readDigits_append hds hrest.endsDigits []
    rw [List.reverse_nil, List.nil_append] at hread
    rw [List.cons_append, List.append_assoc, readExponent, if_pos he,
      readSign_append hsign hds hne, hread]
    cases ds with
    | nil => exact absurd rfl hne
    | cons d ds => rfl

theorem spelling_of_readExponent (h : readExponent cs = some (exponent, rest))
    (hcs : EndsDigits cs) :
    ∃ spelling, ExponentSpelling exponent spelling ∧ cs = spelling ++ rest ∧ EndsDigits rest := by
  rw [readExponent.eq_def] at h
  split at h
  · next e more =>
    split at h
    · next he =>
      split at h
      · cases h
      · next ds rest' hne hread =>
        obtain ⟨rfl, rfl⟩ := Prod.mk.inj (Option.some.inj h)
        obtain ⟨sign, hsign, hmore⟩ := spelling_of_readSign more
        obtain ⟨hds, hdigits, hends⟩ := readDigits_eq_iff.1 hread
        refine ⟨_, .digits he hsign hds hne, ?_, hends⟩
        rw [List.cons_append, List.append_assoc, ← hdigits, ← hmore]
    · obtain ⟨rfl, rfl⟩ := Prod.mk.inj (Option.some.inj h)
      exact ⟨[], .absent, rfl, hcs⟩
  · obtain ⟨rfl, rfl⟩ := Prod.mk.inj (Option.some.inj h)
    exact ⟨[], .absent, rfl, hcs⟩

theorem readFraction_append (h : FractionSpelling fraction spelling) (hdigits : EndsDigits rest)
    (hpoint : rest.head? ≠ some '.') : readFraction (spelling ++ rest) = some (fraction, rest) := by
  cases h with
  | absent =>
    rw [List.nil_append, readFraction.eq_def]
    split
    · exact absurd rfl hpoint
    · rfl
  | @digits ds hds hne =>
    have hread := readDigits_append hds hdigits []
    rw [List.reverse_nil, List.nil_append] at hread
    rw [List.cons_append, readFraction, hread]
    cases ds with
    | nil => exact absurd rfl hne
    | cons d ds => rfl

theorem spelling_of_readFraction (h : readFraction cs = some (fraction, rest))
    (hcs : EndsDigits cs) :
    ∃ spelling, FractionSpelling fraction spelling ∧ cs = spelling ++ rest ∧ EndsDigits rest := by
  rw [readFraction.eq_def] at h
  split at h
  · next more =>
    split at h
    · cases h
    · next ds rest' hne hread =>
      obtain ⟨rfl, rfl⟩ := Prod.mk.inj (Option.some.inj h)
      obtain ⟨hds, hdigits, hends⟩ := readDigits_eq_iff.1 hread
      refine ⟨_, .digits hds hne, ?_, hends⟩
      rw [List.cons_append, ← hdigits]
  · obtain ⟨rfl, rfl⟩ := Prod.mk.inj (Option.some.inj h)
    exact ⟨[], .absent, rfl, hcs⟩

theorem ExponentSpelling.head_append (h : ExponentSpelling exponent spelling)
    (hrest : EndsNumber rest) :
    EndsDigits (spelling ++ rest) ∧ (spelling ++ rest).head? ≠ some '.' := by
  cases h with
  | absent =>
    refine ⟨hrest.endsDigits, fun hpoint => ?_⟩
    exact absurd (hrest '.' hpoint) (by decide)
  | digits he =>
    constructor
    · intro c hc
      obtain rfl := Option.some.inj hc
      rcases he with rfl | rfl <;> decide
    · intro hpoint
      obtain rfl := Option.some.inj hpoint
      rcases he with he | he <;> exact absurd he (by decide)

theorem FractionSpelling.endsDigits_append (h : FractionSpelling fraction spelling)
    (hrest : EndsDigits rest) : EndsDigits (spelling ++ rest) := by
  cases h with
  | absent => exact hrest
  | digits =>
    intro c hc
    obtain rfl := Option.some.inj hc
    decide

theorem MagnitudeSpelling.head_isDigit (h : MagnitudeSpelling numeral spelling) :
    ∃ c cs, spelling = c :: cs ∧ c.isDigit = true := by
  cases h with
  | digits hwhole hne =>
    obtain ⟨c, cs, hdigits, hc⟩ := digitChars_cons hwhole hne
    exact ⟨c, _, by rw [hdigits, List.cons_append], hc⟩

/-- A spelled number is read up to where it cannot go on. -/
theorem readNumeral_append (h : MagnitudeSpelling numeral spelling)
    (hvalue : numeral.value? = some n) (hrest : EndsNumber rest) :
    readNumeral numeral.minus (spelling ++ rest) = some (n, rest) := by
  cases h with
  | @digits f e hwhole hne hzero hf he =>
    obtain ⟨hends, hpoint⟩ := he.head_append hrest
    have hdigits := readDigits_append hwhole (hf.endsDigits_append hends) []
    rw [List.reverse_nil, List.nil_append] at hdigits
    rw [List.append_assoc, List.append_assoc, readNumeral, hdigits]
    split
    · next h => exact absurd (Prod.mk.inj h).1 hne
    · next ds rest' _ h =>
      obtain ⟨rfl, rfl⟩ := Prod.mk.inj h
      rw [if_neg hzero, readFraction_append hf hends hpoint]
      simp only
      rw [readExponent_append he hrest]
      simp only
      rw [hvalue]
      rfl

/-- What is read as a number is spelled up to the first character that is no digit. -/
theorem spelling_of_readNumeral (h : readNumeral minus cs = some (n, rest)) :
    ∃ numeral spelling, numeral.minus = minus ∧ MagnitudeSpelling numeral spelling ∧
      numeral.value? = some n ∧ cs = spelling ++ rest ∧ EndsDigits rest := by
  rw [readNumeral] at h
  split at h
  · cases h
  · next ds afterWhole hne hread =>
    obtain ⟨hds, rfl, hwhole⟩ := readDigits_eq_iff.1 hread
    split at h
    · cases h
    · next hzero =>
      split at h
      · cases h
      · next fraction afterFraction hfraction =>
        obtain ⟨f, hf, rfl, hpoint⟩ := spelling_of_readFraction hfraction hwhole
        split at h
        · cases h
        · next exponent rest' hexponent =>
          obtain ⟨e, he, rfl, hends⟩ := spelling_of_readExponent hexponent hpoint
          obtain ⟨m, hvalue, hm⟩ := Option.map_eq_some_iff.1 h
          obtain ⟨rfl, rfl⟩ := Prod.mk.inj hm
          exact ⟨_, _, rfl, .digits hds hne hzero hf he, hvalue, by simp, hends⟩

/-! ### Integers -/

/-- The greatest magnitude of a negative integer of 64 bits. -/
def negativeLimit : Nat := 9223372036854775808

/-- The number can be stored: an integer has 64 bits, with its sign if it is below zero. -/
def Number.IsStored : Number → Prop
  | .natural n => n ≤ Numeral.wordLimit
  | .negative n => 0 < n ∧ n ≤ negativeLimit
  | .real _ _ => True

theorem appendDigits_le {m taken : Nat} (h : m ≤ Numeral.wordLimit) (ds : List Nat) :
    (Numeral.appendDigits m taken ds).1 ≤ Numeral.wordLimit := by
  induction ds generalizing m taken with
  | nil => exact h
  | cons d ds ih =>
    rw [Numeral.appendDigits]
    split
    · exact h
    · next hle => exact ih (Nat.le_of_not_lt hle)

theorem isStored_of_value? (h : numeral.value? = some n) : n.IsStored := by
  have hle := @appendDigits_le 0 0 (by decide) numeral.whole
  rw [Numeral.value?] at h
  generalize Numeral.appendDigits 0 0 numeral.whole = taken at h hle
  obtain ⟨m, places, dropped⟩ := taken
  simp only at h hle
  split at h
  · obtain rfl := Option.some.inj h
    exact hle
  · split at h
    · obtain rfl := Option.some.inj h
      trivial
    · next hpos =>
      split at h
      · next hlimit =>
        obtain rfl := Option.some.inj h
        exact ⟨Nat.pos_of_ne_zero hpos, hlimit⟩
      · obtain ⟨x, -, rfl⟩ := Option.map_eq_some_iff.1 h
        trivial
  · obtain ⟨x, -, rfl⟩ := Option.map_eq_some_iff.1 h
    trivial
  · obtain ⟨x, -, rfl⟩ := Option.map_eq_some_iff.1 h
    trivial

def decimals (m : Nat) : List Nat :=
  (Nat.toDigits 10 m).map fun c => c.toNat - '0'.toNat

theorem digitChar_sub {c : Char} (h : c.isDigit = true) :
    Nat.digitChar (c.toNat - '0'.toNat) = c := by
  have hrange : 48 ≤ c.toNat ∧ c.toNat ≤ 57 := Char.isDigit_iff_toNat.1 h
  have hzero : '0'.toNat = 48 := rfl
  apply Char.toNat_inj.1
  rw [hzero, Nat.toNat_digitChar_of_lt_ten (by omega)]
  omega

theorem digitChars_decimals (m : Nat) : digitChars (decimals m) = (toString m).toList := by
  rw [Numeral.toList_toString, digitChars, decimals, List.map_map]
  have hchars : ∀ c ∈ Nat.toDigits 10 m, (Nat.digitChar ∘ fun c => c.toNat - '0'.toNat) c = id c :=
    fun c hc => digitChar_sub (Nat.isDigit_of_mem_toDigits (by decide) (by decide) hc)
  rw [List.map_congr_left hchars, List.map_id]

theorem isDigits_decimals (m : Nat) : IsDigits (decimals m) := by
  intro d hd
  obtain ⟨c, hc, rfl⟩ := List.mem_map.1 hd
  have hrange : 48 ≤ c.toNat ∧ c.toNat ≤ 57 :=
    Char.isDigit_iff_toNat.1 (Nat.isDigit_of_mem_toDigits (by decide) (by decide) hc)
  have hzero : '0'.toNat = 48 := rfl
  omega

theorem decimals_ne_nil (m : Nat) : decimals m ≠ [] :=
  fun h => Nat.toDigits_ne_nil (List.map_eq_nil_iff.1 h)

theorem toNat_digitChar : ∀ d < 10, (Nat.digitChar d).toNat - '0'.toNat = d := by decide

theorem decimals_eq (m : Nat) :
    decimals m = if m < 10 then [m] else decimals (m / 10) ++ [m % 10] := by
  have hlast := toNat_digitChar (m % 10) (Nat.mod_lt m (by decide))
  rw [decimals, Nat.toDigits_eq_if (by decide)]
  split
  · next h => rw [List.map_singleton, toNat_digitChar m h]
  · rw [List.map_append, List.map_singleton, hlast, decimals]

theorem head?_decimals {m : Nat} (h : 0 < m) : (decimals m).head? ≠ some 0 := by
  induction m using Nat.strongRecOn with
  | ind m ih =>
    rw [decimals_eq]
    split
    · intro hhead
      exact absurd (Option.some.inj hhead) (Nat.ne_of_gt h)
    · have hfront := ih (m / 10) (by omega) (by omega)
      rwa [List.head?_append, Option.or_of_isSome]
      rw [List.isSome_head?]
      exact decimals_ne_nil _

theorem ofDigits_decimals (m : Nat) : Numeral.ofDigits (decimals m) = m := by
  rw [Numeral.ofDigits, decimals, List.foldl_map]
  have hvalue := @Nat.ofDigitChars_toDigits 10 m (by decide) (by decide)
  simpa only [Nat.ofDigitChars, Nat.mul_comm 10] using hvalue

theorem le_foldl_digits (m : Nat) (ds : List Nat) :
    m ≤ ds.foldl (fun n d => n * 10 + d) m := by
  induction ds generalizing m with
  | nil => exact Nat.le_refl m
  | cons d ds ih =>
    have hmore := ih (m * 10 + d)
    rw [List.foldl_cons]
    omega

/-- Digits that stay within 64 bits are all appended. -/
theorem appendDigits_of_le {m taken : Nat} {ds : List Nat}
    (h : ds.foldl (fun n d => n * 10 + d) m ≤ Numeral.wordLimit) :
    Numeral.appendDigits m taken ds =
      (ds.foldl (fun n d => n * 10 + d) m, taken + ds.length, 0) := by
  induction ds generalizing m taken with
  | nil => rfl
  | cons d ds ih =>
    rw [List.foldl_cons] at h
    have hfirst := le_foldl_digits (m * 10 + d) ds
    rw [Numeral.appendDigits, if_neg (by omega), ih h, List.foldl_cons, List.length_cons]
    congr 2
    omega

def integer (minus : Bool) (m : Nat) : Numeral :=
  ⟨minus, decimals m, none, none⟩

theorem value?_integer {m : Nat} (h : m ≤ Numeral.wordLimit) (minus : Bool) :
    (integer minus m).value? =
      if minus = false then some (.natural m)
      else if m = 0 then some (.real true Decimal.Binary64.zero)
      else if m ≤ negativeLimit then some (.negative m)
      else (Decimal.Binary64.ofNat? m).map (.real true) := by
  have happend : Numeral.appendDigits 0 0 (decimals m) = (m, 0 + (decimals m).length, 0) := by
    have hdigits := ofDigits_decimals m
    rw [Numeral.ofDigits] at hdigits
    have hall := @appendDigits_of_le 0 0 (decimals m) (hdigits.symm ▸ h)
    rw [hall, hdigits]
  rw [Numeral.value?, integer]
  simp only [happend]
  cases minus <;> rfl

theorem magnitudeSpelling_integer (minus : Bool) (m : Nat) :
    MagnitudeSpelling (integer minus m) (toString m).toList := by
  have hspelling : MagnitudeSpelling (integer minus m) (digitChars (decimals m) ++ ([] ++ [])) := by
    refine .digits (isDigits_decimals m) (decimals_ne_nil m) ?_ .absent .absent
    rintro ⟨hhead, hlength⟩
    rcases Nat.eq_zero_or_pos m with rfl | hpos
    · exact Nat.lt_irrefl 1 hlength
    · exact head?_decimals hpos hhead
  rw [List.append_nil, List.append_nil, digitChars_decimals] at hspelling
  exact hspelling

/-- An integer that can be stored is spelled by its text. -/
theorem tokenSpelling_toText (hstored : n.IsStored) (hinteger : n.isInteger = true) :
    TokenSpelling (.number n) n.toText.toList := by
  cases n with
  | natural m =>
    exact .positive rfl (magnitudeSpelling_integer false m) (value?_integer hstored false)
  | negative m =>
    obtain ⟨hpos, hlimit⟩ := hstored
    have hvalue := @value?_integer m (Nat.le_trans hlimit (by decide)) true
    rw [if_neg (by decide), if_neg (Nat.ne_of_gt hpos), if_pos hlimit] at hvalue
    have hspelling := TokenSpelling.negative rfl (magnitudeSpelling_integer true m) hvalue
    rw [Number.toText, String.toList_append]
    exact hspelling
  | real minus x => cases hinteger

end WireBench.Json
