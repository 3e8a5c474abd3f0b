/-!
# Splitting at separators

The pieces between separators, and the cut at the first separator. Joining the pieces again gives
back the list that was split.
-/

namespace WireBench.Text

variable {α : Type}

/-- The pieces between the elements that satisfy `p`; there is one piece more than there are such
elements, and pieces may be empty. -/
def splitWhere (p : α → Bool) : List α → List (List α)
  | [] => [[]]
  | a :: as =>
    if p a then [] :: splitWhere p as
    else match splitWhere p as with
      | [] => [[a]]
      | piece :: pieces => (a :: piece) :: pieces

def cutWhere (p : α → Bool) (as : List α) : Option (List α × List α) :=
  match as.dropWhile (fun a => !p a) with
  | [] => none
  | _ :: rest => some (as.takeWhile (fun a => !p a), rest)

def cutLastWhere (p : α → Bool) (as : List α) : Option (List α × List α) :=
  (cutWhere p as.reverse).map fun (after, before) => (before.reverse, after.reverse)

theorem splitWhere_ne_nil (p : α → Bool) (as : List α) : splitWhere p as ≠ [] := by
  cases as with
  | nil => simp [splitWhere]
  | cons a as =>
    rw [splitWhere]
    split
    · simp
    · split <;> simp

theorem splitWhere_cons (p : α → Bool) (a : α) (as : List α) :
    ∃ piece pieces, splitWhere p as = piece :: pieces ∧
      splitWhere p (a :: as) =
        if p a then [] :: piece :: pieces else (a :: piece) :: pieces := by
  cases h : splitWhere p as with
  | nil => exact absurd h (splitWhere_ne_nil p as)
  | cons piece pieces => exact ⟨piece, pieces, rfl, by simp [splitWhere, h]⟩

theorem eq_false_of_mem_splitWhere {p : α → Bool} {as piece : List α}
    (h : piece ∈ splitWhere p as) : ∀ x ∈ piece, p x = false := by
  induction as generalizing piece with
  | nil => simp_all [splitWhere]
  | cons a as ih =>
    obtain ⟨first, more, hs, hc⟩ := splitWhere_cons p a as
    rw [hc] at h
    by_cases ha : p a
    · rw [if_pos ha] at h
      rcases List.mem_cons.1 h with rfl | h
      · simp
      · exact ih (hs ▸ h)
    · rw [if_neg ha] at h
      rcases List.mem_cons.1 h with rfl | h
      · intro x hx
        rcases List.mem_cons.1 hx with rfl | hx
        · simpa using ha
        · exact ih (hs ▸ List.mem_cons_self ..) x hx
      · exact ih (hs ▸ List.mem_cons_of_mem _ h)

theorem splitWhere_eq_singleton {p : α → Bool} {as : List α} (h : ∀ a ∈ as, p a = false) :
    splitWhere p as = [as] := by
  induction as with
  | nil => rfl
  | cons a as ih =>
    have ha : p a = false := h a (List.mem_cons_self ..)
    have hs := ih fun b hb => h b (List.mem_cons_of_mem _ hb)
    simp [splitWhere, ha, hs]

theorem splitWhere_append_cons {p : α → Bool} {s : α} (hs : p s = true) (as rest : List α) :
    splitWhere p (as ++ s :: rest) = splitWhere p as ++ splitWhere p rest := by
  induction as with
  | nil => simp [splitWhere, hs]
  | cons a as ih =>
    obtain ⟨first, more, hpieces, hcons⟩ := splitWhere_cons p a as
    rw [hpieces] at ih
    rw [hcons, List.cons_append, splitWhere, ih]
    by_cases ha : p a <;> simp [ha]

theorem splitWhere_append {p : α → Bool} {piece : List α} (h : ∀ a ∈ piece, p a = false)
    {s : α} (hs : p s = true) (rest : List α) :
    splitWhere p (piece ++ s :: rest) = piece :: splitWhere p rest := by
  rw [splitWhere_append_cons hs, splitWhere_eq_singleton h, List.singleton_append]

theorem cutWhere_eq_none_iff (p : α → Bool) (as : List α) :
    cutWhere p as = none ↔ ∀ a ∈ as, p a = false := by
  induction as with
  | nil => simp [cutWhere]
  | cons a as ih =>
    rw [cutWhere] at ih ⊢
    by_cases h : p a
    · simp [h]
    · simp only [List.dropWhile_cons, h, List.takeWhile_cons, List.mem_cons, forall_eq_or_imp]
      simp only [Bool.not_false, ite_true, true_and]
      rw [← ih]
      split <;> simp_all

theorem cutWhere_eq_some {p : α → Bool} {as before after : List α}
    (h : cutWhere p as = some (before, after)) :
    ∃ a, p a = true ∧ as = before ++ a :: after ∧ ∀ x ∈ before, p x = false := by
  rw [cutWhere] at h
  split at h
  · simp at h
  · next c rest hd =>
    simp only [Option.some.injEq, Prod.mk.injEq] at h
    obtain ⟨rfl, rfl⟩ := h
    refine ⟨c, ?_, ?_, ?_⟩
    · have hc := List.head?_dropWhile_not (fun a => !p a) as
      rw [hd] at hc
      simpa using hc
    · rw [← hd, List.takeWhile_append_dropWhile]
    · intro x hx
      have hall := List.all_takeWhile (p := fun a => !p a) (l := as)
      simpa using List.all_eq_true.1 hall x hx

/-- A list is cut at the separator behind a front without one. -/
theorem cutWhere_append {p : α → Bool} {before : List α} (h : ∀ a ∈ before, p a = false)
    {s : α} (hs : p s = true) (after : List α) :
    cutWhere p (before ++ s :: after) = some (before, after) := by
  induction before with
  | nil => simp [cutWhere, hs]
  | cons a as ih =>
    have ha : p a = false := h a (List.mem_cons_self ..)
    have := ih fun b hb => h b (List.mem_cons_of_mem _ hb)
    rw [cutWhere] at this ⊢
    simp only [List.cons_append, List.dropWhile_cons, List.takeWhile_cons, ha, Bool.not_false,
      ite_true]
    split
    · next hd => simp [hd] at this
    · next hd =>
      rw [hd] at this
      simp_all

end WireBench.Text
