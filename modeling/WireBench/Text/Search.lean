import WireBench.Bytes

/-!
# Searching for a run

The cut of a list at the first occurrence of a run of elements, the pieces between all occurrences
that do not overlap, and the places of all occurrences.
-/

namespace WireBench.Text

variable {α : Type} [BEq α]

/-- What stands before and after the first occurrence of `run`, after the elements `done`, which
are in reverse. -/
def cutAtFrom (run done : List α) : List α → Option (List α × List α)
  | [] => if run.isEmpty then some (done.reverse, []) else none
  | a :: as =>
    if run.isPrefixOf (a :: as) then some (done.reverse, (a :: as).drop run.length)
    else cutAtFrom run (a :: done) as

/-- What stands before and after the first occurrence of `run`. -/
def cutAt (run as : List α) : Option (List α × List α) :=
  cutAtFrom run [] as

/-- The places at which a run occurs, also where occurrences overlap. -/
def offsets (run as : List α) : List Nat :=
  (List.range (as.length + 1)).filter fun i => run.isPrefixOf (as.drop i)

theorem cutAtFrom_length {run done as before after : List α}
    (h : cutAtFrom run done as = some (before, after)) : after.length + run.length ≤ as.length := by
  induction as generalizing done with
  | nil =>
    rw [cutAtFrom] at h
    split at h
    · next he =>
      simp only [Option.some.injEq, Prod.mk.injEq] at h
      simp [← h.2, List.isEmpty_iff.1 he]
    · simp at h
  | cons a as ih =>
    rw [cutAtFrom] at h
    split at h
    · next hp =>
      simp only [Option.some.injEq, Prod.mk.injEq] at h
      have hle : run.length ≤ (a :: as).length := by
        clear h ih
        generalize (a :: as) = bs at hp
        induction run generalizing bs with
        | nil => simp
        | cons r rs ihr =>
          cases bs with
          | nil => simp [List.isPrefixOf] at hp
          | cons b bs =>
            simp only [List.isPrefixOf, Bool.and_eq_true] at hp
            simpa using ihr bs hp.2
      rw [← h.2, List.length_drop]
      omega
    · have := ih h
      simp only [List.length_cons]
      omega

theorem cutAt_length {run as before after : List α} (h : cutAt run as = some (before, after)) :
    after.length + run.length ≤ as.length :=
  cutAtFrom_length h

/-- The pieces between the occurrences of a run; an empty run does not cut. -/
def piecesAt (run as : List α) : List (List α) :=
  match _h : cutAt run as with
  | none => [as]
  | some (before, after) => if run.isEmpty then [as] else before :: piecesAt run after
termination_by as.length
decreasing_by
  have := cutAt_length _h
  have hpos : 0 < run.length := by
    cases run with
    | nil => simp_all
    | cons r rs => simp
  omega

end WireBench.Text
