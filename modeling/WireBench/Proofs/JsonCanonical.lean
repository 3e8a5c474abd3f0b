import WireBench.Json.Shape
import WireBench.Proofs.JsonParsing

/-!
# Canonical values

Every value that is parsed is canonical: its integers have 64 bits, and the members of an object
have different names and stand in the order of these, which only forgets the order they were written
in and the members that were overwritten.
-/

namespace WireBench.Json

/-! ### Members in order -/

namespace Members

variable {name : String} {v : Value} {m : String × Value} {ms done : List (String × Value)}

theorem mem_foldl_put (h : m ∈ ms.foldl (fun done m => put m.1 m.2 done) done) :
    m ∈ ms ∨ m ∈ done := by
  induction ms generalizing done with
  | nil => exact .inr h
  | cons n ns ih =>
    rcases ih h with h | h
    · exact .inl (List.mem_cons_of_mem n h)
    · rcases mem_put h with rfl | h
      · exact .inl (List.mem_cons_self ..)
      · exact .inr h

theorem mem_of_mem_ofList (h : m ∈ ofList ms) : m ∈ ms :=
  (mem_foldl_put h).resolve_right List.not_mem_nil

/-- A member comes last behind members with lesser names. -/
theorem put_of_forall_lt (h : ∀ m ∈ ms, m.1 < name) : put name v ms = ms ++ [(name, v)] := by
  induction ms with
  | nil => rfl
  | cons n ns ih =>
    obtain ⟨hn, hns⟩ := List.forall_mem_cons.1 h
    rw [put, if_neg (fun e => String.lt_irrefl _ (e ▸ hn)), if_neg (String.lt_asymm hn), ih hns,
      List.cons_append]

theorem foldl_put_of_isOrdered (h : IsOrdered (done ++ ms)) :
    ms.foldl (fun done m => put m.1 m.2 done) done = done ++ ms := by
  induction ms generalizing done with
  | nil => rw [List.append_nil, List.foldl_nil]
  | cons n ns ih =>
    have hlast : ∀ m ∈ done, m.1 < n.1 := fun m hm =>
      (List.pairwise_append.1 h).2.2 m hm n (List.mem_cons_self ..)
    rw [List.append_cons] at h
    rw [List.foldl_cons, put_of_forall_lt hlast, ih h, List.append_assoc, List.singleton_append]

theorem ofList_of_isOrdered (h : IsOrdered ms) : ofList ms = ms :=
  foldl_put_of_isOrdered h

theorem ofMembers_of_names (h : (ms.map Prod.fst).Pairwise (· < ·)) :
    Value.ofMembers ms = .object ms :=
  congrArg Value.object (ofList_of_isOrdered (List.pairwise_map.1 h))

theorem put_perm (h : name ∉ ms.map Prod.fst) : (put name v ms).Perm ((name, v) :: ms) := by
  induction ms with
  | nil => exact .refl _
  | cons n ns ih =>
    rw [List.map_cons, List.mem_cons, not_or] at h
    rw [put, if_neg h.1]
    split
    · exact .refl _
    · exact ((ih h.2).cons n).trans (.swap (name, v) n ns)

theorem foldl_put_perm (h : ((done ++ ms).map Prod.fst).Nodup) :
    (ms.foldl (fun done m => put m.1 m.2 done) done).Perm (done ++ ms) := by
  induction ms generalizing done with
  | nil => rw [List.append_nil]; exact .refl _
  | cons n ns ih =>
    have hnew : n.1 ∉ done.map Prod.fst := by
      rw [List.map_append, List.nodup_append] at h
      exact fun hmem => h.2.2 n.1 hmem n.1 (List.mem_cons_self ..) rfl
    have hperm : (put n.1 n.2 done ++ ns).Perm (done ++ n :: ns) :=
      ((put_perm hnew).append_right ns).trans List.perm_middle.symm
    exact (ih ((hperm.map Prod.fst).nodup_iff.2 h)).trans hperm

/-- Members with different names are only put in order. -/
theorem ofList_perm (h : (ms.map Prod.fst).Nodup) : (ofList ms).Perm ms :=
  @foldl_put_perm ms [] h

end Members

/-! ### Canonical values -/

/-- A value as it is kept: integers have 64 bits, and the members of an object stand in order. -/
inductive Value.IsCanonical : Value → Prop where
  | null : IsCanonical .null
  | bool {b : Bool} : IsCanonical (.bool b)
  | number {n : Number} : n.IsStored → IsCanonical (.number n)
  | text {s : String} : IsCanonical (.text s)
  | array {vs : List Value} : (∀ v ∈ vs, IsCanonical v) → IsCanonical (.array vs)
  | object {ms : List (String × Value)} : Members.IsOrdered ms → (∀ m ∈ ms, IsCanonical m.2) →
    IsCanonical (.object ms)

theorem Value.isCanonical_ofMembers {ms : List (String × Value)}
    (h : ∀ m ∈ ms, m.2.IsCanonical) : (Value.ofMembers ms).IsCanonical :=
  .object (Members.isOrdered_ofList ms) fun m hm => h m (Members.mem_of_mem_ofList hm)

mutual

theorem Written.isCanonical {room : Nat} {v : Value} {ts : List Token} :
    Written room v ts → (∀ t ∈ ts, t.IsStored) → v.IsCanonical
  | .null, _ => .null
  | .bool, _ => .bool
  | .number, hstored => .number (hstored _ (List.mem_singleton_self _))
  | .text, _ => .text
  | .emptyArray, _ => .array (List.forall_mem_nil _)
  | .array hvs hv, hstored => by
    simp only [List.forall_mem_cons, List.forall_mem_append] at hstored
    obtain ⟨-, hts, hus, -⟩ := hstored
    have hlast := hv.isCanonical hus
    exact .array (List.forall_mem_append.2 ⟨hvs.isCanonical hts, List.forall_mem_singleton.2 hlast⟩)
  | .emptyObject, _ => .object List.Pairwise.nil (List.forall_mem_nil _)
  | .object hms hv, hstored => by
    simp only [List.forall_mem_cons, List.forall_mem_append] at hstored
    obtain ⟨-, hts, -, -, hus, -⟩ := hstored
    have hlast := hv.isCanonical hus
    refine Value.isCanonical_ofMembers ?_
    exact List.forall_mem_append.2 ⟨hms.isCanonical hts, List.forall_mem_singleton.2 hlast⟩

theorem ElementsWritten.isCanonical {room : Nat} {vs : List Value} {ts : List Token} :
    ElementsWritten room vs ts → (∀ t ∈ ts, t.IsStored) → ∀ v ∈ vs, v.IsCanonical
  | .none, _ => List.forall_mem_nil _
  | .more hvs hv, hstored => by
    simp only [List.forall_mem_append] at hstored
    obtain ⟨hts, hus, -⟩ := hstored
    have hlast := hv.isCanonical hus
    exact List.forall_mem_append.2 ⟨hvs.isCanonical hts, List.forall_mem_singleton.2 hlast⟩

theorem MembersWritten.isCanonical {room : Nat} {ms : List (String × Value)} {ts : List Token} :
    MembersWritten room ms ts → (∀ t ∈ ts, t.IsStored) → ∀ m ∈ ms, m.2.IsCanonical
  | .none, _ => List.forall_mem_nil _
  | .more hms hv, hstored => by
    simp only [List.forall_mem_cons, List.forall_mem_append] at hstored
    obtain ⟨hts, -, -, hus, -⟩ := hstored
    have hlast := hv.isCanonical hus
    exact List.forall_mem_append.2 ⟨hms.isCanonical hts, List.forall_mem_singleton.2 hlast⟩

end

/-- The value of a text is canonical. -/
theorem IsText.isCanonical {bs : Bytes} {v : Value} (h : IsText bs v) : v.IsCanonical := by
  obtain ⟨cs, ts, -, hspelled, hwritten⟩ := h
  exact hwritten.isCanonical hspelled.isStored

/-! ### Shapes -/

theorem depthOfElements_le_iff {vs : List Value} {room : Nat} :
    depthOfElements vs ≤ room ↔ ∀ v ∈ vs, v.depth ≤ room := by
  induction vs with
  | nil => simp [depthOfElements]
  | cons v vs ih => rw [depthOfElements, Nat.max_le, ih, List.forall_mem_cons]

theorem depthOfMembers_le_iff {ms : List (String × Value)} {room : Nat} :
    depthOfMembers ms ≤ room ↔ ∀ m ∈ ms, m.2.depth ≤ room := by
  induction ms with
  | nil => simp [depthOfMembers]
  | cons m ms ih => rw [depthOfMembers, Nat.max_le, ih, List.forall_mem_cons]

theorem elementsAreExact_iff {vs : List Value} :
    elementsAreExact vs = true ↔ ∀ v ∈ vs, v.isExact = true := by
  induction vs with
  | nil => simp [elementsAreExact]
  | cons v vs ih => rw [elementsAreExact, Bool.and_eq_true, ih, List.forall_mem_cons]

theorem membersAreExact_iff {ms : List (String × Value)} :
    membersAreExact ms = true ↔ ∀ m ∈ ms, m.2.isExact = true := by
  induction ms with
  | nil => simp [membersAreExact]
  | cons m ms ih => rw [membersAreExact, Bool.and_eq_true, ih, List.forall_mem_cons]

/-- A value that can be written so that it is read back: it is canonical, its numbers are integers,
and at most so many containers stand inside each other. -/
structure Value.IsWritable (room : Nat) (v : Value) : Prop where
  canonical : v.IsCanonical
  exact : v.isExact = true
  depth : v.depth ≤ room

theorem Value.IsWritable.mono {room more : Nat} {v : Value} (h : v.IsWritable room)
    (hle : room ≤ more) : v.IsWritable more :=
  ⟨h.canonical, h.exact, Nat.le_trans h.depth hle⟩

theorem Value.isWritable_text (room : Nat) (s : String) : (Value.text s).IsWritable room :=
  ⟨.text, rfl, Nat.zero_le room⟩

theorem Value.isWritable_ofMembers {room : Nat} {ms : List (String × Value)}
    (h : ∀ m ∈ ms, m.2.IsWritable room) : (Value.ofMembers ms).IsWritable (room + 1) where
  canonical := Value.isCanonical_ofMembers fun m hm => (h m hm).canonical
  exact := membersAreExact_iff.2 fun m hm => (h m (Members.mem_of_mem_ofList hm)).exact
  depth := Nat.succ_le_succ
    (depthOfMembers_le_iff.2 fun m hm => (h m (Members.mem_of_mem_ofList hm)).depth)

end WireBench.Json
