import Mathlib.Data.List.TakeWhile
import Mathlib.Tactic.MkIffOfInductiveProp
import WireBench.Text.Blank

/-!
# Trimming and words

Blanks around a text change nothing for the trimmed text, which neither begins nor ends with one, and
a text that does neither is trimmed already. Words hold no blanks, and words set apart by blanks are
found again.
-/

namespace WireBench.Text

theorem dropBlankEnd_append {back : List Char} (hb : ∀ c ∈ back, isBlank c = true)
    (cs : List Char) : dropBlankEnd (cs ++ back) = dropBlankEnd cs := by
  have hrev : ∀ c ∈ back.reverse, isBlank c = true := fun c hc => hb c (List.mem_reverse.1 hc)
  simp only [dropBlankEnd, List.reverse_append]
  rw [List.dropWhile_append_of_pos hrev]

theorem trim_append_blanks {front back : String} (hf : ∀ c ∈ front.toList, isBlank c = true)
    (hb : ∀ c ∈ back.toList, isBlank c = true) (s : String) :
    trim (front ++ s ++ back) = trim s := by
  have hdrop : dropBlankEnd ((s.toList ++ back.toList).dropWhile isBlank) =
      dropBlankEnd (s.toList.dropWhile isBlank) := by
    rw [List.dropWhile_append]
    split
    · next he =>
      rw [List.isEmpty_iff] at he
      have hnil : back.toList.dropWhile isBlank = [] := List.dropWhile_eq_nil_iff.2 hb
      rw [he, hnil]
    · exact dropBlankEnd_append hb _
  simp only [trim, String.toList_append, List.append_assoc]
  rw [List.dropWhile_append_of_pos hf, hdrop]

theorem trim_append_left {front : String} (hf : ∀ c ∈ front.toList, isBlank c = true)
    (s : String) : trim (front ++ s) = trim s := by
  have h : trim (front ++ s ++ "") = trim s := trim_append_blanks hf (by simp) s
  rwa [String.append_empty] at h

/-- Whether a text neither begins nor ends with a blank. -/
@[mk_iff]
structure IsTrimmed (s : String) : Prop where
  front : ∀ c ∈ s.toList.head?, isBlank c = false
  back : ∀ c ∈ s.toList.getLast?, isBlank c = false

instance (s : String) : Decidable (IsTrimmed s) :=
  decidable_of_iff ((s.toList.head?.all fun c => !isBlank c) = true ∧
      (s.toList.getLast?.all fun c => !isBlank c) = true) (by
    simp only [isTrimmed_iff, Option.all_eq_true, Option.mem_def, Bool.not_eq_true'])

theorem dropWhile_isBlank_eq_self {cs : List Char} (h : ∀ c ∈ cs.head?, isBlank c = false) :
    cs.dropWhile isBlank = cs := by
  cases cs with
  | nil => rfl
  | cons c cs => simp [h c rfl]

theorem IsTrimmed.trim_eq {s : String} (h : IsTrimmed s) : trim s = s := by
  have hback : s.toList.reverse.dropWhile isBlank = s.toList.reverse :=
    dropWhile_isBlank_eq_self (by simpa only [List.head?_reverse] using h.back)
  rw [trim, dropWhile_isBlank_eq_self h.front, dropBlankEnd, hback, List.reverse_reverse,
    String.ofList_toList]

theorem trim_eq_self {c d : Char} {s : String} {cs : List Char} (hs : s.toList = c :: (cs ++ [d]))
    (hc : isBlank c = false) (hd : isBlank d = false) : trim s = s :=
  IsTrimmed.trim_eq ⟨by simp [hs, hc], by simp [hs, List.getLast?_cons, hd]⟩

theorem trim_of_no_blank {s : String} (h : ∀ c ∈ s.toList, isBlank c = false) : trim s = s :=
  IsTrimmed.trim_eq ⟨fun c hc => h c (List.mem_of_head? hc),
    fun c hc => h c (List.mem_of_getLast? hc)⟩

theorem trim_append_of_no_blank {s t : String} {c : Char} {cs : List Char}
    (hs : s.toList = c :: cs) (hc : isBlank c = false) (hne : t.toList ≠ [])
    (ht : ∀ d ∈ t.toList, isBlank d = false) : trim (s ++ t) = s ++ t := by
  have hends : (s ++ t).toList =
      c :: (cs ++ t.toList.dropLast ++ [t.toList.getLast hne]) := by
    rw [String.toList_append, hs, List.append_assoc, List.dropLast_concat_getLast]
    rfl
  exact trim_eq_self hends hc (ht _ (List.getLast_mem hne))

theorem dropBlankEnd_isPrefix (cs : List Char) : dropBlankEnd cs <+: cs := by
  rw [← List.reverse_suffix, dropBlankEnd, List.reverse_reverse]
  exact List.dropWhile_suffix isBlank

theorem trim_isInfix (s : String) : (trim s).toList <:+: s.toList := by
  rw [trim, String.toList_ofList]
  exact (dropBlankEnd_isPrefix _).isInfix.trans (List.dropWhile_suffix isBlank).isInfix

theorem isTrimmed_trim (s : String) : IsTrimmed (trim s) := by
  rw [isTrimmed_iff, trim, String.toList_ofList]
  constructor
  · intro c hc
    obtain ⟨back, hback⟩ := dropBlankEnd_isPrefix (s.toList.dropWhile isBlank)
    have hhead : (s.toList.dropWhile isBlank).head? = some c := by
      rw [← hback, List.head?_append, Option.mem_def.1 hc, Option.some_or]
    have hnot := List.head?_dropWhile_not isBlank s.toList
    simpa [hhead] using hnot
  · intro c hc
    rw [dropBlankEnd, List.getLast?_reverse] at hc
    have hnot := List.head?_dropWhile_not isBlank (s.toList.dropWhile isBlank).reverse
    simpa [Option.mem_def.1 hc] using hnot

/-- A blank that trimming leaves is not the last character of the text. -/
theorem mem_dropLast_of_mem_trim {c : Char} {s : String} (hc : c ∈ (trim s).toList)
    (hblank : isBlank c = true) : c ∈ s.toList.dropLast := by
  obtain ⟨front, back, hshape⟩ := trim_isInfix s
  obtain ⟨before, after, htrim⟩ := List.append_of_mem hc
  have hafter : after ≠ [] := by
    rintro rfl
    have hlast := (isTrimmed_trim s).back c (by simp [htrim])
    rw [hblank] at hlast
    cases hlast
  have hsplit : s.toList = (front ++ before ++ [c]) ++ (after ++ back) := by
    rw [← hshape, htrim]
    simp
  rw [hsplit, List.dropLast_append_of_ne_nil (by simp [hafter])]
  simp

/-- Whether a text is one word: it is not empty and has no blanks. -/
@[mk_iff]
structure IsWord (s : String) : Prop where
  ne : s ≠ ""
  not_blank : ∀ c ∈ s.toList, isBlank c = false

instance (s : String) : Decidable (IsWord s) :=
  decidable_of_iff (s ≠ "" ∧ s.toList.all (fun c => !isBlank c) = true) (by
    simp only [isWord_iff, List.all_eq_true, Bool.not_eq_true'])

theorem IsWord.not_mem_lf {s : String} (h : IsWord s) : '\n' ∉ s.toList :=
  fun hm => absurd (h.not_blank _ hm) (by decide)

theorem IsWord.isEmpty_toList {s : String} (h : IsWord s) : s.toList.isEmpty = false := by
  rw [List.isEmpty_eq_false_iff]
  exact fun hnil => h.ne (String.toList_eq_nil_iff.1 hnil)

theorem isWord_of_mem_words {s word : String} (h : word ∈ words s) : IsWord word := by
  obtain ⟨piece, hpiece, rfl⟩ := List.mem_map.1 h
  obtain ⟨hmem, hne⟩ := List.mem_filter.1 hpiece
  refine ⟨?_, ?_⟩
  · intro he
    rw [← String.toList_eq_nil_iff, String.toList_ofList] at he
    simp [he] at hne
  · rw [String.toList_ofList]
    exact eq_false_of_mem_splitWhere hmem

theorem words_append_blank {a : String} (h : IsWord a) (s : String) :
    words (a ++ " " ++ s) = a :: words s := by
  have hshape : (a ++ " " ++ s).toList = a.toList ++ ' ' :: s.toList := by simp
  rw [words, hshape, splitWhere_append h.not_blank (by decide)]
  simp [h.isEmpty_toList, words]

theorem words_of_three {a b c : String} (ha : IsWord a) (hb : IsWord b) (hc : IsWord c) :
    words (a ++ " " ++ b ++ " " ++ c ++ "\r\n") = [a, b, c] := by
  have hlast : words (c ++ "\r\n") = [c] := by
    have hshape : (c ++ "\r\n").toList = c.toList ++ '\r' :: ['\n'] := by simp
    rw [words, hshape, splitWhere_append hc.not_blank (by decide)]
    simp [hc.isEmpty_toList, splitWhere, isBlank]
  have hshape : a ++ " " ++ b ++ " " ++ c ++ "\r\n" =
      a ++ " " ++ (b ++ " " ++ (c ++ "\r\n")) := by
    simp only [String.append_assoc]
  rw [hshape, words_append_blank ha, words_append_blank hb, hlast]

end WireBench.Text
