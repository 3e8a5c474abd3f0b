/-!
# Keyed lists

A finite map whose elements carry their own key: no two elements have the same key, and the
elements stand in the order in which their keys first came. Looking up after an insertion finds the
new element under its key and what was there before under every other.
-/

namespace WireBench

/-- A list of elements with pairwise different keys. -/
structure KeyedList (α : Type) (key : α → String) where
  elements : List α
  nodup : (elements.map key).Nodup := by simp

namespace KeyedList

variable {α : Type} {key : α → String}

def empty : KeyedList α key := { elements := [] }

/-- Puts `a` in the place of the element with its key, or at the end. -/
def place (key : α → String) (a : α) : List α → List α
  | [] => [a]
  | b :: bs => if key b = key a then a :: bs else b :: place key a bs

theorem map_key_place (a : α) (as : List α) :
    (place key a as).map key =
      if key a ∈ as.map key then as.map key else as.map key ++ [key a] := by
  induction as with
  | nil => simp [place]
  | cons b bs ih =>
    rw [place]
    by_cases h : key b = key a
    · simp [h]
    · have h' : key a ≠ key b := fun e => h e.symm
      by_cases hm : key a ∈ bs.map key <;> simp_all

theorem nodup_place (a : α) {as : List α} (h : (as.map key).Nodup) :
    ((place key a as).map key).Nodup := by
  rw [map_key_place]
  split
  · exact h
  · next hm =>
    rw [List.nodup_append]
    refine ⟨h, by simp, ?_⟩
    intro x hx y hy
    rw [List.mem_singleton] at hy
    rintro rfl
    exact hm (hy ▸ hx)

/-- Puts an element in, in the place of the one with its key if there is one. -/
def insert (as : KeyedList α key) (a : α) : KeyedList α key where
  elements := place key a as.elements
  nodup := nodup_place a as.nodup

def find? (as : KeyedList α key) (k : String) : Option α :=
  as.elements.find? fun a => key a == k

def contains (as : KeyedList α key) (k : String) : Bool :=
  (as.find? k).isSome

def size (as : KeyedList α key) : Nat :=
  as.elements.length

def isEmpty (as : KeyedList α key) : Bool :=
  as.elements.isEmpty

def keys (as : KeyedList α key) : List String :=
  as.elements.map key

theorem find?_place (k : String) (a : α) (as : List α) :
    (place key a as).find? (fun b => key b == k) =
      if key a = k then some a else as.find? (fun b => key b == k) := by
  induction as with
  | nil => by_cases h : key a = k <;> simp [place, h]
  | cons b bs ih =>
    rw [place]
    by_cases h : key b = key a
    · by_cases hk : key a = k <;> simp_all
    · by_cases hk : key b = k
      · have : key a ≠ k := fun e => h (hk.trans e.symm)
        simp_all
      · simp_all

@[simp] theorem find?_empty (k : String) : (empty : KeyedList α key).find? k = none := rfl

@[simp] theorem find?_insert (as : KeyedList α key) (a : α) (k : String) :
    (as.insert a).find? k = if key a = k then some a else as.find? k :=
  find?_place k a as.elements

theorem place_of_not_mem {a : α} {as : List α} (h : key a ∉ as.map key) :
    place key a as = as ++ [a] := by
  induction as with
  | nil => rfl
  | cons b bs ih =>
    rw [List.map_cons, List.mem_cons, not_or] at h
    rw [place, if_neg fun e => h.1 e.symm, ih h.2, List.cons_append]

theorem elements_insert {as : KeyedList α key} {a : α} (h : key a ∉ as.keys) :
    (as.insert a).elements = as.elements ++ [a] :=
  place_of_not_mem h

theorem key_of_find? {as : KeyedList α key} {k : String} {a : α} (h : as.find? k = some a) :
    key a = k := by
  simpa using List.find?_some h

theorem mem_of_find? {as : KeyedList α key} {k : String} {a : α} (h : as.find? k = some a) :
    a ∈ as.elements :=
  List.mem_of_find?_eq_some h

theorem find?_key {as : List α} (h : (as.map key).Nodup) {a : α} (ha : a ∈ as) :
    as.find? (fun b => key b == key a) = some a := by
  induction as with
  | nil => simp at ha
  | cons b bs ih =>
    rw [List.map_cons, List.nodup_cons] at h
    rw [List.find?_cons]
    rcases List.mem_cons.1 ha with rfl | hb
    · simp
    · have : key b ≠ key a := fun e => h.1 (e ▸ List.mem_map_of_mem hb)
      rw [beq_false_of_ne this]
      exact ih h.2 hb

theorem find?_eq_some_iff {as : KeyedList α key} {k : String} {a : α} :
    as.find? k = some a ↔ a ∈ as.elements ∧ key a = k := by
  constructor
  · exact fun h => ⟨mem_of_find? h, key_of_find? h⟩
  · rintro ⟨ha, rfl⟩
    exact find?_key as.nodup ha

theorem mem_elements_iff {as : KeyedList α key} {a : α} :
    a ∈ as.elements ↔ as.find? (key a) = some a := by
  rw [find?_eq_some_iff, and_iff_left rfl]

/-- An insertion replaces the element with the key of the new one, and no other. -/
theorem mem_insert_iff {as : KeyedList α key} {a b : α} :
    b ∈ (as.insert a).elements ↔ b = a ∨ b ∈ as.elements ∧ key b ≠ key a := by
  rw [mem_elements_iff, mem_elements_iff, find?_insert]
  by_cases h : key a = key b
  · rw [if_pos h, Option.some.injEq, eq_comm, or_iff_left fun hold => hold.2 h.symm]
  · have hne : b ≠ a := fun he => h (he ▸ rfl)
    rw [if_neg h, or_iff_right hne, and_iff_left (Ne.symm h)]

/-- What is found does not depend on the order of the elements. -/
theorem find?_congr {as bs : KeyedList α key} (h : as.elements.Perm bs.elements) (k : String) :
    as.find? k = bs.find? k := by
  apply Option.ext
  intro a
  rw [find?_eq_some_iff, find?_eq_some_iff, h.mem_iff]

theorem mem_keys_iff {as : KeyedList α key} {k : String} : k ∈ as.keys ↔ as.contains k = true := by
  simp [keys, contains, find?]

theorem length_keys (as : KeyedList α key) : as.keys.length = as.size :=
  List.length_map key

theorem isEmpty_iff {as : KeyedList α key} : as.isEmpty = true ↔ as.size = 0 := by
  rw [isEmpty, List.isEmpty_iff, size, List.length_eq_zero_iff]

end KeyedList

end WireBench
