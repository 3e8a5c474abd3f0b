import WireBench.Decimal.Shortest

/-!
# JSON values

Values with exact integers of 64 bits, other numbers in binary floating point, and objects whose
members have different names and stand in the order of these.
-/

namespace WireBench.Json

inductive Number where
  | natural (n : Nat)
  | negative (n : Nat)
  | real (minus : Bool) (magnitude : Decimal.Binary64)
  deriving DecidableEq, Repr

inductive Value where
  | null
  | bool (b : Bool)
  | number (n : Number)
  | text (s : String)
  | array (elements : List Value)
  | object (members : List (String × Value))

abbrev Members := List (String × Value)

/-- Puts a member in its place; it takes the place of one of the same name. -/
def Members.put (name : String) (value : Value) : Members → Members
  | [] => [(name, value)]
  | (other, old) :: members =>
    if name = other then (name, value) :: members
    else if name < other then (name, value) :: (other, old) :: members
    else (other, old) :: Members.put name value members

/-- Members in the order of their names, the last of each name. -/
def Members.ofList (members : List (String × Value)) : Members :=
  members.foldl (fun ms m => Members.put m.1 m.2 ms) []

/-- Whether members have different names and stand in the order of these. -/
def Members.IsOrdered (members : Members) : Prop :=
  members.Pairwise fun a b => a.1 < b.1

theorem Members.mem_put {name : String} {value : Value} {members : Members} {m : String × Value}
    (h : m ∈ members.put name value) : m = (name, value) ∨ m ∈ members := by
  induction members with
  | nil => exact .inl (List.mem_singleton.1 h)
  | cons n ns ih =>
    rw [Members.put] at h
    split at h
    · exact (List.mem_cons.1 h).imp id (List.mem_cons_of_mem n)
    · split at h
      · exact List.mem_cons.1 h
      · rcases List.mem_cons.1 h with rfl | h
        · exact .inr (List.mem_cons_self ..)
        · exact (ih h).imp id (List.mem_cons_of_mem n)

theorem Members.isOrdered_put (name : String) (value : Value) {members : Members}
    (h : members.IsOrdered) : (members.put name value).IsOrdered := by
  rw [Members.IsOrdered] at h ⊢
  induction members with
  | nil => simp [Members.put]
  | cons m ms ih =>
    rw [List.pairwise_cons] at h
    rw [Members.put]
    split
    · next hn =>
      rw [List.pairwise_cons]
      exact ⟨fun b hb => hn ▸ h.1 b hb, h.2⟩
    · next hn =>
      split
      · next hlt =>
        rw [List.pairwise_cons]
        refine ⟨fun b hb => ?_, List.pairwise_cons.2 h⟩
        rcases List.mem_cons.1 hb with rfl | hb
        · exact hlt
        · exact String.lt_trans hlt (h.1 b hb)
      · next hlt =>
        rw [List.pairwise_cons]
        refine ⟨fun b hb => ?_, ih h.2⟩
        rcases Members.mem_put hb with rfl | hb
        · rcases Std.lt_trichotomy name m.1 with hc | hc | hc
          · exact absurd hc hlt
          · exact absurd hc hn
          · exact hc
        · exact h.1 b hb

theorem Members.isOrdered_foldl (members : List (String × Value)) {done : Members}
    (h : done.IsOrdered) : (members.foldl (fun ms m => Members.put m.1 m.2 ms) done).IsOrdered := by
  induction members generalizing done with
  | nil => exact h
  | cons m ms ih => exact ih (Members.isOrdered_put m.1 m.2 h)

theorem Members.isOrdered_ofList (members : List (String × Value)) :
    (Members.ofList members).IsOrdered :=
  Members.isOrdered_foldl members List.Pairwise.nil

def Value.ofMembers (members : List (String × Value)) : Value :=
  .object (Members.ofList members)

end WireBench.Json
