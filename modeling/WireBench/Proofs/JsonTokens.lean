import WireBench.Proofs.JsonNumerals
import WireBench.Proofs.JsonTexts

/-!
# Tokens of JSON

The tokens that are read of some characters are those that the characters spell.
-/

namespace WireBench.Json

open WireBench.Json.Token

variable {c : Char} {cs rest spelling : List Char} {t : Token} {ts done : List Token}

/-! ### One token -/

theorem read_of_isDigit (h : c.isDigit = true) (cs : List Char) :
    Token.read c cs = (readNumeral false (c :: cs)).map fun (n, rest) => (.number n, rest) := by
  rw [read.eq_def]
  split <;> first | rfl | exact absurd h (by decide)

theorem isGap_of_isDigit (h : c.isDigit = true) : isGap c = false := by
  rw [← Bool.not_eq_true]
  intro hgap
  simp only [isGap, Bool.or_eq_true, beq_iff_eq] at hgap
  rcases hgap with ((rfl | rfl) | rfl) | rfl <;> exact absurd h (by decide)

theorem TokenSpelling.read_append (h : TokenSpelling t spelling)
    (hnumber : ∀ n, t = .number n → EndsNumber rest) :
    ∃ c cs, spelling ++ rest = c :: cs ∧ isGap c = false ∧ read c cs = some (t, rest) := by
  cases h with
  | openArray => exact ⟨_, _, rfl, by decide, rfl⟩
  | closeArray => exact ⟨_, _, rfl, by decide, rfl⟩
  | openObject => exact ⟨_, _, rfl, by decide, rfl⟩
  | closeObject => exact ⟨_, _, rfl, by decide, rfl⟩
  | colon => exact ⟨_, _, rfl, by decide, rfl⟩
  | comma => exact ⟨_, _, rfl, by decide, rfl⟩
  | nullWord => exact ⟨_, _, rfl, by decide, rfl⟩
  | trueWord => exact ⟨_, _, rfl, by decide, rfl⟩
  | falseWord => exact ⟨_, _, rfl, by decide, rfl⟩
  | text htext =>
    refine ⟨_, _, rfl, by decide, ?_⟩
    have hread := readText_spelling htext [] rest
    rw [List.append_eq, List.append_assoc, List.singleton_append, Token.read, hread]
    simp
  | positive hminus hspelling hvalue =>
    have hread := readNumeral_append hspelling hvalue (hnumber _ rfl)
    obtain ⟨c, cs, hcs, hdigit⟩ := hspelling.head_isDigit
    rw [hminus, hcs, List.cons_append] at hread
    refine ⟨c, cs ++ rest, by rw [hcs, List.cons_append], isGap_of_isDigit hdigit, ?_⟩
    rw [read_of_isDigit hdigit, hread]
    rfl
  | negative hminus hspelling hvalue =>
    refine ⟨_, _, rfl, by decide, ?_⟩
    have hread := readNumeral_append hspelling hvalue (hnumber _ rfl)
    rw [hminus] at hread
    rw [List.append_eq, Token.read, hread]
    rfl

/-- What is read as a token is spelled, and no digit follows a number. -/
theorem spelling_of_read (h : read c cs = some (t, rest)) :
    ∃ spelling, TokenSpelling t spelling ∧ c :: cs = spelling ++ rest ∧
      ∀ n, t = .number n → EndsDigits rest := by
  rw [read.eq_def] at h
  split at h
  · cases h; exact ⟨_, .openArray, rfl, nofun⟩
  · cases h; exact ⟨_, .closeArray, rfl, nofun⟩
  · cases h; exact ⟨_, .openObject, rfl, nofun⟩
  · cases h; exact ⟨_, .closeObject, rfl, nofun⟩
  · cases h; exact ⟨_, .colon, rfl, nofun⟩
  · cases h; exact ⟨_, .comma, rfl, nofun⟩
  · next cs =>
    obtain ⟨⟨text, rest'⟩, hread, htext⟩ := Option.map_eq_some_iff.1 h
    obtain ⟨rfl, rfl⟩ := Prod.mk.inj htext
    obtain ⟨s, spelling, hspelling, rfl, rfl⟩ := spelling_of_readText hread
    rw [← @String.toList_ofList s] at hspelling
    exact ⟨_, .text hspelling, by simp, nofun⟩
  · cases h; exact ⟨_, .nullWord, rfl, nofun⟩
  · cases h; exact ⟨_, .trueWord, rfl, nofun⟩
  · cases h; exact ⟨_, .falseWord, rfl, nofun⟩
  · next cs =>
    obtain ⟨⟨n, rest'⟩, hread, hn⟩ := Option.map_eq_some_iff.1 h
    obtain ⟨rfl, rfl⟩ := Prod.mk.inj hn
    obtain ⟨numeral, spelling, hminus, hspelling, hvalue, rfl, hends⟩ :=
      spelling_of_readNumeral hread
    exact ⟨_, .negative hminus hspelling hvalue, rfl, fun _ _ => hends⟩
  · obtain ⟨⟨n, rest'⟩, hread, hn⟩ := Option.map_eq_some_iff.1 h
    obtain ⟨rfl, rfl⟩ := Prod.mk.inj hn
    obtain ⟨numeral, spelling, hminus, hspelling, hvalue, hcs, hends⟩ :=
      spelling_of_readNumeral hread
    exact ⟨_, .positive hminus hspelling hvalue, hcs, fun _ _ => hends⟩

/-! ### All tokens -/

theorem goesOn_of_isGap (h : isGap c = true) : goesOn c = false := by
  simp only [isGap, Bool.or_eq_true, beq_iff_eq] at h
  rcases h with ((rfl | rfl) | rfl) | rfl <;> decide

theorem TokenSpelling.head (h : TokenSpelling t spelling) :
    ∃ c cs, spelling = c :: cs ∧ (c.isDigit = true ∨ goesOn c = false) := by
  cases h with
  | positive _ hspelling _ =>
    obtain ⟨c, cs, hcs, hdigit⟩ := hspelling.head_isDigit
    exact ⟨c, cs, hcs, .inl hdigit⟩
  | _ => exact ⟨_, _, rfl, .inr (by decide)⟩

/-- What starts no number that is read already goes on with no number. -/
theorem Spelled.endsNumber (h : Spelled ts cs) (hcs : EndsDigits cs) : EndsNumber cs := by
  cases h with
  | nil => nofun
  | gap hgap =>
    intro c hc
    obtain rfl := Option.some.inj hc
    exact goesOn_of_isGap hgap
  | token htoken =>
    obtain ⟨c, cs, rfl, hhead⟩ := htoken.head
    intro c' hc'
    obtain rfl := Option.some.inj hc'
    rcases hhead with hdigit | hstop
    · rw [hcs c rfl] at hdigit
      cases hdigit
    · exact hstop

theorem readAllFrom_gap (h : isGap c = true) :
    readAllFrom done (c :: cs) = readAllFrom done cs := by
  rw [readAllFrom, if_pos h]

theorem readAllFrom_token (hgap : isGap c = false) (hread : Token.read c cs = some (t, rest)) :
    readAllFrom done (c :: cs) = readAllFrom (t :: done) rest := by
  rw [readAllFrom, if_neg (by simp [hgap])]
  split
  · next h =>
    rw [hread] at h
    cases h
  · next h =>
    rw [hread] at h
    obtain ⟨rfl, rfl⟩ := Prod.mk.inj (Option.some.inj h)
    rfl

theorem Spelled.readAllFrom_eq (h : Spelled ts cs) (done : List Token) :
    readAllFrom done cs = some (done.reverse ++ ts) := by
  induction h generalizing done with
  | nil => rw [readAllFrom, List.append_nil]
  | gap hgap _ ih => rw [readAllFrom_gap hgap, ih]
  | token htoken hnumber _ ih =>
    obtain ⟨c, more, hcs, hgap, hread⟩ := htoken.read_append hnumber
    rw [hcs, readAllFrom_token hgap hread, ih]
    simp

theorem spelled_of_readAllFrom {all : List Token} (h : readAllFrom done cs = some all) :
    ∃ ts, all = done.reverse ++ ts ∧ Spelled ts cs := by
  fun_induction readAllFrom done cs with
  | case1 done => exact ⟨[], by simpa using h.symm, .nil⟩
  | case2 done c cs hgap ih =>
    obtain ⟨ts, hall, hts⟩ := ih h
    exact ⟨ts, hall, .gap hgap hts⟩
  | case3 => cases h
  | case4 done c cs hgap t rest hread ih =>
    obtain ⟨ts, hall, hts⟩ := ih h
    obtain ⟨spelling, hspelling, hcs, hends⟩ := spelling_of_read hread
    refine ⟨t :: ts, by simpa using hall, ?_⟩
    rw [hcs]
    exact .token hspelling (fun n hn => hts.endsNumber (hends n hn)) hts

/-- The tokens of some characters are those that the characters spell. -/
theorem readAll_eq_some_iff : readAll cs = some ts ↔ Spelled ts cs := by
  constructor
  · intro h
    obtain ⟨ts', hall, hts⟩ := spelled_of_readAllFrom h
    obtain rfl : ts = ts' := hall
    exact hts
  · intro h
    exact h.readAllFrom_eq []

def Token.IsStored : Token → Prop
  | .number n => n.IsStored
  | _ => True

theorem TokenSpelling.isStored (h : TokenSpelling t spelling) : t.IsStored := by
  cases h with
  | positive _ _ hvalue => exact isStored_of_value? hvalue
  | negative _ _ hvalue => exact isStored_of_value? hvalue
  | _ => trivial

theorem Spelled.isStored (h : Spelled ts cs) : ∀ t ∈ ts, t.IsStored := by
  induction h with
  | nil => exact List.forall_mem_nil _
  | gap _ _ ih => exact ih
  | token htoken _ _ ih => exact List.forall_mem_cons.2 ⟨htoken.isStored, ih⟩

end WireBench.Json
