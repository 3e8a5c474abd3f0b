import WireBench.Text.Search

/-!
# Occurrences of a run

A run that lacks some element never reaches across it, so that a list with such an element in it is
searched on either side of it alone. From this follow the places of all occurrences and the cut at
the first one.
-/

namespace WireBench.Text

variable {α : Type} {run xs ys : List α} {sep : α}

theorem prefix_append_cons_iff (hs : sep ∉ run) (xs ys : List α) :
    run <+: xs ++ sep :: ys ↔ run <+: xs := by
  constructor
  · intro h
    rcases List.prefix_or_prefix_of_prefix h (List.prefix_append xs (sep :: ys)) with h' | ⟨t, rfl⟩
    · exact h'
    · have ht : t <+: sep :: ys := (List.prefix_append_right_inj xs).1 h
      rcases List.prefix_cons_iff.1 ht with rfl | ⟨t', rfl, -⟩
      · simp
      · exact absurd (by simp) hs
  · exact fun h => h.trans (List.prefix_append xs _)

theorem infix_append_cons_iff (hs : sep ∉ run) (hr : run ≠ []) (xs ys : List α) :
    run <:+: xs ++ sep :: ys ↔ run <:+: xs ∨ run <:+: ys := by
  induction xs with
  | nil =>
    have hp : ¬ run <+: sep :: ys := fun h => hr (by
      simpa using (prefix_append_cons_iff hs [] ys).1 h)
    simp [List.infix_cons_iff, hp, hr]
  | cons x xs ih =>
    have hp := prefix_append_cons_iff hs (x :: xs) ys
    simp only [List.cons_append] at hp
    rw [List.cons_append, List.infix_cons_iff, hp, ih, List.infix_cons_iff, or_assoc]

theorem not_infix_of_not_mem {r : α} {rs : List α} (h : r ∉ xs) : ¬ (r :: rs) <:+: xs :=
  fun hi => h (hi.subset (List.mem_cons_self ..))

/-- A run is not met in front of where its first element is. -/
theorem infix_append_iff_of_not_mem {r : α} {rs : List α} (h : r ∉ xs) (ys : List α) :
    (r :: rs) <:+: xs ++ ys ↔ (r :: rs) <:+: ys := by
  induction xs with
  | nil => rfl
  | cons x xs ih =>
    obtain ⟨hne, hxs⟩ : r ≠ x ∧ r ∉ xs := by simpa using h
    rw [List.cons_append, List.infix_cons_iff, List.cons_prefix_cons, ih hxs]
    exact or_iff_right fun hfront => hne hfront.1

section

variable [BEq α]

/-- The places in a list are the front, if the run stands there, and those behind its first
element. -/
theorem offsets_cons (a : α) (as : List α) :
    offsets run (a :: as) =
      (if run.isPrefixOf (a :: as) then [0] else []) ++ (offsets run as).map (· + 1) := by
  have htail : ∀ i, run.isPrefixOf ((a :: as).drop (i + 1)) = run.isPrefixOf (as.drop i) :=
    fun i => rfl
  have hmap : ((List.range (as.length + 1)).map (· + 1)).filter
      (fun i => run.isPrefixOf ((a :: as).drop i)) = (offsets run as).map (· + 1) := by
    rw [List.filter_map]
    simp only [Function.comp_def, htail]
    rfl
  rw [offsets] at hmap ⊢
  rw [List.length_cons, List.range_succ_eq_map, List.filter_cons]
  simp only [List.drop_zero]
  split
  · rw [hmap]
    rfl
  · rw [hmap]
    rfl

theorem offsets_nil (hr : run ≠ []) : offsets run [] = [] := by
  cases run with
  | nil => exact absurd rfl hr
  | cons r rs => rfl

theorem piecesAt_of_cutAt {before after : List α} (hr : run ≠ [])
    (h : cutAt run xs = some (before, after)) :
    piecesAt run xs = before :: piecesAt run after := by
  rw [piecesAt]
  split
  · next hn => simp [hn] at h
  · next hc =>
    obtain ⟨rfl, rfl⟩ : _ = before ∧ _ = after := by simpa [hc] using h
    simp [hr]

variable [LawfulBEq α]

theorem offsets_eq_nil (hr : run ≠ []) (h : ¬ run <:+: xs) : offsets run xs = [] := by
  induction xs with
  | nil => exact offsets_nil hr
  | cons x xs ih =>
    have hp : ¬ run <+: x :: xs := fun hp => h hp.isInfix
    have ht : ¬ run <:+: xs := fun ht => h (List.infix_cons ht)
    simp [offsets_cons, hp, ih ht]

theorem offsets_self (hr : run ≠ []) : offsets run run = [0] := by
  cases run with
  | nil => exact absurd rfl hr
  | cons r rs =>
    have ht : ¬ (r :: rs) <:+: rs := fun h => by
      have hlen := h.length_le
      rw [List.length_cons] at hlen
      omega
    simp [offsets_cons, offsets_eq_nil hr ht]

/-- Where an element that the run lacks divides a list, the places are those on either side. -/
theorem offsets_append_cons (hs : sep ∉ run) (hr : run ≠ []) (xs ys : List α) :
    offsets run (xs ++ sep :: ys) =
      offsets run xs ++ (offsets run ys).map (· + (xs.length + 1)) := by
  induction xs with
  | nil =>
    have hp : ¬ run <+: sep :: ys := fun h => hr (by
      simpa using (prefix_append_cons_iff hs [] ys).1 h)
    simp [offsets_cons, offsets_nil hr, hp]
  | cons x xs ih =>
    have hp := prefix_append_cons_iff hs (x :: xs) ys
    simp only [List.cons_append] at hp
    have hb : run.isPrefixOf (x :: (xs ++ sep :: ys)) = run.isPrefixOf (x :: xs) := by
      rw [Bool.eq_iff_iff, List.isPrefixOf_iff_prefix, List.isPrefixOf_iff_prefix, hp]
    simp only [List.cons_append, offsets_cons, ih, hb, List.map_append, List.map_map,
      Function.comp_def, List.append_assoc, List.length_cons, Nat.add_assoc]

theorem cutAtFrom_eq (run done as : List α) :
    cutAtFrom run done as =
      (cutAtFrom run [] as).map fun cut => (done.reverse ++ cut.1, cut.2) := by
  induction as generalizing done with
  | nil => by_cases h : run.isEmpty <;> simp [cutAtFrom, h]
  | cons a as ih =>
    by_cases h : run <+: a :: as
    · simp [cutAtFrom, h]
    · have hd := ih (a :: done)
      have ha := ih [a]
      simp only [cutAtFrom, List.isPrefixOf_iff_prefix, h, if_false, hd, ha, Option.map_map]
      congr 1
      funext cut
      simp

theorem cutAt_cons (a : α) (as : List α) :
    cutAt run (a :: as) =
      if run.isPrefixOf (a :: as) then some ([], (a :: as).drop run.length)
      else (cutAt run as).map fun cut => (a :: cut.1, cut.2) := by
  have h := cutAtFrom_eq run [a] as
  simp only [cutAt, cutAtFrom, h]
  rfl

theorem cutAt_append (h : ∀ i < xs.length, ¬ run <+: (xs ++ (run ++ ys)).drop i) :
    cutAt run (xs ++ (run ++ ys)) = some (xs, ys) := by
  induction xs with
  | nil =>
    cases run with
    | nil => cases ys <;> rfl
    | cons r rs =>
      simp [cutAt_cons]
  | cons x xs ih =>
    have h0 : ¬ run <+: x :: (xs ++ (run ++ ys)) := h 0 (by simp)
    have ht := ih fun i hi => h (i + 1) (by simpa using hi)
    simp [cutAt_cons, h0, ht]

theorem cutAt_front (run ys : List α) : cutAt run (run ++ ys) = some ([], ys) := by
  have h : ∀ i < ([] : List α).length, ¬ run <+: ([] ++ (run ++ ys)).drop i := by simp
  exact cutAt_append h

/-- A list without the run up to an element that the run lacks is cut right behind that. -/
theorem cutAt_append_cons (hs : sep ∉ run) (hx : ¬ run <:+: xs) :
    cutAt run (xs ++ sep :: (run ++ ys)) = some (xs ++ [sep], ys) := by
  have hnone : ∀ i < (xs ++ [sep]).length, ¬ run <+: (xs ++ [sep] ++ (run ++ ys)).drop i := by
    intro i hi hp
    have hlen : i ≤ xs.length := by simpa [Nat.lt_succ_iff] using hi
    rw [List.append_assoc, List.drop_append_of_le_length hlen] at hp
    have hd := (prefix_append_cons_iff hs _ _).1 hp
    exact hx (hd.isInfix.trans (List.drop_suffix i xs).isInfix)
  simpa using cutAt_append hnone

/-- A run whose first element does not come again cannot begin in a list and end behind it if it
stands right behind that list. -/
theorem cutAt_append_of_head {r : α} {rs : List α} (hr : r ∉ rs) (hx : ¬ (r :: rs) <:+: xs) :
    cutAt (r :: rs) (xs ++ (r :: rs ++ ys)) = some (xs, ys) := by
  apply cutAt_append
  intro i hi hp
  rw [List.drop_append_of_le_length (Nat.le_of_lt hi)] at hp
  rcases List.prefix_or_prefix_of_prefix hp (List.prefix_append (xs.drop i) _) with h | ⟨t, ht⟩
  · exact hx (h.isInfix.trans (List.drop_suffix i xs).isInfix)
  · have htail : t <+: r :: rs ++ ys := by
      apply (List.prefix_append_right_inj (xs.drop i)).1
      rw [ht]
      exact hp
    cases hd : xs.drop i with
    | nil => simp [List.drop_eq_nil_iff] at hd; omega
    | cons d ds =>
      rw [hd, List.cons_append] at ht
      obtain ⟨-, hrs⟩ := List.cons.inj ht
      cases t with
      | nil =>
        apply hx
        rw [← ht, List.append_nil, ← hd]
        exact (List.drop_suffix i xs).isInfix
      | cons c cs =>
        rw [List.cons_append, List.cons_prefix_cons] at htail
        rw [← hrs, htail.1] at hr
        simp at hr

theorem cutAt_append_of_not_mem {r : α} {rs : List α} (hr : r ∉ xs) (ys : List α) :
    cutAt (r :: rs) (xs ++ ys) =
      (cutAt (r :: rs) ys).map fun cut => (xs ++ cut.1, cut.2) := by
  induction xs with
  | nil => simp
  | cons x xs ih =>
    have hx : ¬ (r :: rs) <+: x :: (xs ++ ys) := fun h => hr (by
      simp [(List.cons_prefix_cons.1 h).1])
    have ht := ih fun h => hr (List.mem_cons_of_mem _ h)
    simp [cutAt_cons, hx, ht, Function.comp_def]

theorem cutAt_eq_none (hr : run ≠ []) (h : ¬ run <:+: xs) : cutAt run xs = none := by
  induction xs with
  | nil => simp [cutAt, cutAtFrom, hr]
  | cons x xs ih =>
    have hp : ¬ run <+: x :: xs := fun hp => h hp.isInfix
    have ht : ¬ run <:+: xs := fun ht => h (List.infix_cons ht)
    simp [cutAt_cons, hp, ih ht]

theorem piecesAt_eq_singleton (hr : run ≠ []) (h : ¬ run <:+: xs) : piecesAt run xs = [xs] := by
  rw [piecesAt]
  split
  · rfl
  · next hc => simp [cutAt_eq_none hr h] at hc

end

end WireBench.Text
