import Mathlib.Algebra.Order.BigOperators.Group.List
import Mathlib.Data.Set.Card
import Mathlib.SetTheory.Cardinal.NatCard
import WireBench.Proofs.FreshBoundaries

/-!
# Collisions of markers

A marker that stands in a content is one of its windows of 35 bytes, and different draws have
different markers. So at most as many draws collide with some parts as their contents have windows,
which leaves a draw without collision unless the contents are larger than anything in memory.
-/

namespace WireBench.Multipart

/-- The windows of some size in a byte string: what stands at each of its places, for as long as
there is enough of it. -/
def windows (size : Nat) (bs : Bytes) : List Bytes :=
  (List.range (bs.length + 1 - size)).map fun i => (bs.drop i).take size

theorem length_windows (size : Nat) (bs : Bytes) :
    (windows size bs).length = bs.length + 1 - size := by
  rw [windows, List.length_map, List.length_range]

theorem mem_windows {run bs : Bytes} (h : run <:+: bs) : run ∈ windows run.length bs := by
  obtain ⟨before, after, rfl⟩ := h
  refine List.mem_map.2 ⟨before.length, ?_, ?_⟩
  · rw [List.mem_range]
    simp only [List.length_append]
    omega
  · rw [List.append_assoc, List.drop_left, List.take_left]

/-- The windows of all contents in which a marker can stand. -/
def markerWindows (parts : List Part) : List Bytes :=
  parts.flatMap fun part => windows 35 part.content

theorem length_markerWindows (parts : List Part) :
    (markerWindows parts).length = (parts.map fun part => part.content.length - 34).sum := by
  induction parts with
  | nil => rfl
  | cons part parts ih =>
    have hwindows := length_windows 35 part.content
    rw [markerWindows, List.flatMap_cons, List.length_append, ← markerWindows, ih, hwindows,
      List.map_cons, List.sum_cons]
    omega

theorem marker_mem_markerWindows {draw : Draw} {parts : List Part}
    (h : Collides (.ofDraw draw) parts) :
    (Boundary.ofDraw draw).marker ∈ markerWindows parts := by
  obtain ⟨part, hpart, hinfix⟩ := h
  have hmem := mem_windows hinfix
  rw [length_marker] at hmem
  exact List.mem_flatMap.2 ⟨part, hpart, hmem⟩

theorem card_draw : Nat.card Draw = 2 ^ 64 := by
  let words : Draw ≃ (Fin 8 → UInt8) :=
    { toFun := fun draw i => draw[i]
      invFun := Vector.ofFn
      left_inv := fun draw => Vector.ext fun i hi => by simp
      right_inv := fun f => by funext i; simp }
  let bytes : UInt8 ≃ Fin 256 :=
    { toFun := UInt8.toFin
      invFun := UInt8.ofFin
      left_inv := fun b => by simp
      right_inv := fun n => by simp }
  rw [Nat.card_congr words, Nat.card_fun, Nat.card_congr bytes]
  simp

/-- Different draws that collide stand in different windows. -/
theorem encard_collides (parts : List Part) :
    {draw : Draw | Collides (.ofDraw draw) parts}.encard ≤
      ((parts.map fun part => part.content.length - 34).sum : ℕ) := by
  classical
  calc {draw : Draw | Collides (.ofDraw draw) parts}.encard
      ≤ ((markerWindows parts).toFinset : Set Bytes).encard :=
        Set.encard_le_encard_of_injOn
          (fun draw h => List.mem_toFinset.2 (marker_mem_markerWindows h))
          marker_injective.injOn
    _ = ((markerWindows parts).toFinset.card : ℕ) := Set.encard_coe_eq_coe_finsetCard _
    _ ≤ ((markerWindows parts).length : ℕ) := Nat.cast_le.2 (List.toFinset_card_le _)
    _ = ((parts.map fun part => part.content.length - 34).sum : ℕ) := by
        rw [length_markerWindows]

theorem exists_not_collides {parts : List Part}
    (h : (parts.map fun part => part.content.length).sum < 2 ^ 64) :
    ∃ draw, ¬ Collides (.ofDraw draw) parts := by
  by_contra hall
  push Not at hall
  -- If all draws collided, the contents would have as many windows as there are draws.
  have huniv : {draw : Draw | Collides (.ofDraw draw) parts} = Set.univ :=
    Set.eq_univ_of_forall hall
  have hfinite : Finite Draw := Nat.finite_of_card_ne_zero (by rw [card_draw]; decide)
  have hall_le := encard_collides parts
  rw [huniv, Set.encard_univ, ENat.card_eq_coe_natCard, card_draw, Nat.cast_le] at hall_le
  have hsum : (parts.map fun part => part.content.length - 34).sum ≤
      (parts.map fun part => part.content.length).sum :=
    List.sum_le_sum fun part _ => Nat.sub_le _ _
  omega

/-- A marker is always 35 bytes long, and out of all draws, of which there are as many as numbers of
64 bits, at most as many collide with some parts as their contents have bytes from the 35th on; so
some draw collides with none of them if all contents together are shorter than that. -/
theorem encard_collides_le (parts : List Part) :
    Nat.card Draw = 2 ^ 64 ∧
      (∀ draw, (Boundary.ofDraw draw).marker =
          Utf8.encode ("--" ++ ("fixture-boundary-" ++ Bytes.toHex draw.toList)) ∧
        (Boundary.ofDraw draw).marker.length = 35) ∧
      {draw : Draw | Collides (.ofDraw draw) parts}.encard ≤
        ((parts.map fun part => part.content.length - 34).sum : ℕ) ∧
      ((parts.map fun part => part.content.length).sum < 2 ^ 64 →
        ∃ draw, ¬ Collides (.ofDraw draw) parts) :=
  ⟨card_draw, fun draw => ⟨rfl, length_marker draw⟩, encard_collides parts, exists_not_collides⟩

end WireBench.Multipart
