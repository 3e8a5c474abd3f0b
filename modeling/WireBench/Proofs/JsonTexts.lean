import WireBench.Proofs.JsonGrammar

/-!
# Texts in JSON

What stands between two quotes is read as a text exactly if it spells the text.
-/

namespace WireBench.Json

open WireBench.Json.Token

variable {c e : Char} {s done cs spelling rest : List Char} {text : String}

theorem mem_shortEscapes : (e, c) ∈ shortEscapes ↔ escaped? e = some c := by
  rw [escaped?.eq_def]
  split <;> simp_all [shortEscapes, eq_comm]

theorem ne_u_of_escaped? (h : escaped? e = some c) : e ≠ 'u' := by
  rintro rfl
  cases h

theorem readText_char (h : CharSpelling c spelling) (done cs : List Char) :
    readText done (spelling ++ cs) = readText (c :: done) cs := by
  cases h with
  | plain hcontrol hquote hbackslash =>
    rw [List.singleton_append, readText, if_neg]
    · simp [hbackslash, Nat.not_lt.2 hcontrol]
    · exact hquote
    · exact fun _ _ _ _ _ h => absurd h hbackslash
    · exact fun _ _ h => absurd h hbackslash
  | short hmem =>
    have hescape := mem_shortEscapes.1 hmem
    rw [List.cons_append, List.singleton_append, readText, hescape]
    exact fun _ _ _ _ _ h => absurd h (ne_u_of_escaped? hescape)
  | number hhex hsurrogate =>
    rw [List.cons_append, List.cons_append, List.cons_append, List.cons_append, List.cons_append,
      List.singleton_append, readText, hhex]
    simp only
    rw [if_neg (by omega), if_neg (by omega)]
  | pair hhigh hhigh1 hhigh2 hlow hlow1 hlow2 =>
    simp only [List.cons_append, List.nil_append]
    rw [readText, hhigh]
    simp only
    rw [if_neg (by omega), if_pos ⟨hhigh1, hhigh2⟩, hlow]
    simp only
    rw [if_pos ⟨hlow1, hlow2⟩]

theorem readText_spelling (h : TextSpelling s spelling) (done rest : List Char) :
    readText done (spelling ++ '"' :: rest) = some (String.ofList (done.reverse ++ s), rest) := by
  induction h generalizing done with
  | nil => simp [readText]
  | cons hchar _ ih =>
    rw [List.append_assoc, readText_char hchar, ih]
    simp

/-- What is read as a text is spelled in front of its closing quote. -/
theorem spelling_of_readText (h : readText done cs = some (text, rest)) :
    ∃ s spelling, TextSpelling s spelling ∧ cs = spelling ++ '"' :: rest ∧
      text = String.ofList (done.reverse ++ s) := by
  have hcons : ∀ {c : Char} {done spelling cs : List Char}, CharSpelling c spelling →
      (∃ s spelling, TextSpelling s spelling ∧ cs = spelling ++ '"' :: rest ∧
        text = String.ofList ((c :: done).reverse ++ s)) →
      ∃ s spelling', TextSpelling s spelling' ∧ spelling ++ cs = spelling' ++ '"' :: rest ∧
        text = String.ofList (done.reverse ++ s) := by
    rintro c done spelling cs hchar ⟨s, more, hmore, rfl, rfl⟩
    exact ⟨c :: s, spelling ++ more, .cons hchar hmore, by simp, by simp⟩
  fun_induction readText done cs with
  | case1 => cases h
  | case2 done cs =>
    obtain ⟨rfl, rfl⟩ := Prod.mk.inj (Option.some.inj h)
    exact ⟨[], [], .nil, rfl, by simp⟩
  | case3 => cases h
  | case4 => cases h
  | case5 => cases h
  | case6 done a b c d high hhigh hlone hpair a' b' c' d' cs low hlow hrange ih =>
    exact hcons (.pair hhigh hpair.1 hpair.2 hlow hrange.1 hrange.2) (ih h)
  | case7 => cases h
  | case8 => cases h
  | case9 done a b c d cs n hhex hlow hhigh ih =>
    exact hcons (.number hhex (by omega)) (ih h)
  | case10 => cases h
  | case11 done e cs hu c hescape ih =>
    exact hcons (.short (mem_shortEscapes.2 hescape)) (ih h)
  | case12 => cases h
  | case13 done c cs hquote hu hescape hplain ih =>
    obtain ⟨hcontrol, hbackslash⟩ := not_or.1 hplain
    exact hcons (.plain (Nat.le_of_not_lt hcontrol) hquote hbackslash) (ih h)

end WireBench.Json
