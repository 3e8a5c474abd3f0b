import Mathlib.Data.List.Dedup
import WireBench.Proofs.HeaderSection
import WireBench.Proofs.LowerCase
import WireBench.Proofs.Utf8Order

/-!
# Header fields as a map

Of header fields that are set one after the other the last one of every name remains, with its
spelling and its value. All that is asked of headers agrees with this: looking a name up in any case
of its ASCII letters, counting, and the three ways to list the fields.
-/

namespace WireBench.Http

open WireBench.Text

/-- Whether a field is the last of its name among some. -/
def Field.IsLast (field : Field) (fields : List Field) : Prop :=
  ∃ before after, fields = before ++ field :: after ∧ ∀ other ∈ after, other.key ≠ field.key

/-- Whether this is the value of the last field of a name, which is given in lower case. -/
def Field.IsLastValue (fields : List Field) (name value : String) : Prop :=
  ∃ field : Field, field.IsLast fields ∧ field.key = name ∧ field.value = value

namespace Headers

/-- Whether headers are what remains of fields: of every name the last one, and nothing else. Names
that differ in case only are one name; each is listed once. -/
structure Reflects (headers : Headers) (fields : List Field) : Prop where
  value : ∀ name value, headers.get? name = some value ↔
    Field.IsLastValue fields (lowercase name) value
  no_value : ∀ name, headers.get? name = none ↔ ∀ field ∈ fields, field.key ≠ lowercase name
  has : ∀ name, headers.has name = true ↔ ∃ field ∈ fields, field.key = lowercase name
  case_variant : ∀ name other, asciiLowercase name = asciiLowercase other →
    headers.get? name = headers.get? other ∧ headers.has name = headers.has other
  size : headers.size = (fields.map Field.key).dedup.length
  isEmpty : headers.isEmpty = true ↔ fields = []
  pairs : ∀ name value, (name, value) ∈ headers.pairs ↔ Field.IsLastValue fields name value
  pairs_names : (headers.pairs.map Prod.fst).Perm (fields.map Field.key).dedup
  sorted : headers.sorted.Perm headers.pairs
  sorted_names : (headers.sorted.map fun pair => Utf8.encode pair.1).Pairwise (· < ·)
  asSent : ∀ name value, (name, value) ∈ headers.asSent ↔ Field.IsLast ⟨name, value⟩ fields
  asSent_names : (headers.asSent.map fun pair => lowercase pair.1).Perm
    (fields.map Field.key).dedup

end Headers

theorem Field.isLast_iff {field : Field} {fields : List Field} : field.IsLast fields ↔
    fields.reverse.find? (fun other => other.key == field.key) = some field := by
  rw [List.find?_eq_some_iff_append]
  constructor
  · rintro ⟨before, after, rfl, hafter⟩
    refine ⟨beq_self_eq_true _, after.reverse, before.reverse, by simp, fun other hother => ?_⟩
    simpa using hafter other (List.mem_reverse.1 hother)
  · rintro ⟨-, after, before, hshape, hafter⟩
    refine ⟨before.reverse, after.reverse, ?_, fun other hother => ?_⟩
    · rw [← List.reverse_reverse fields, hshape]
      simp
    · simpa using hafter other (List.mem_reverse.1 hother)

namespace Headers

variable {headers : Headers} {fields : List Field} {field : Field} {name value : String}

/-! ### What is listed -/

theorem get?_eq_some_iff : headers.get? name = some value ↔
    ∃ field ∈ headers.elements, field.key = lowercase name ∧ field.value = value := by
  simp only [get?, Option.map_eq_some_iff, KeyedList.find?_eq_some_iff, and_assoc]

theorem mem_pairs_iff : (name, value) ∈ headers.pairs ↔
    ∃ field ∈ headers.elements, field.key = name ∧ field.value = value := by
  simp only [pairs, List.mem_map, Prod.mk.injEq]

theorem get?_eq_some_iff_mem_pairs :
    headers.get? name = some value ↔ (lowercase name, value) ∈ headers.pairs :=
  get?_eq_some_iff.trans mem_pairs_iff.symm

theorem mem_asSent_iff : (name, value) ∈ headers.asSent ↔ ⟨name, value⟩ ∈ headers.elements := by
  constructor
  · intro h
    obtain ⟨field, hfield, hpair⟩ := List.mem_map.1 h
    obtain ⟨rfl, rfl⟩ := Prod.mk.inj hpair
    exact hfield
  · exact fun h => List.mem_map.2 ⟨_, h, rfl⟩

theorem map_fst_pairs (headers : Headers) : headers.pairs.map Prod.fst = headers.keys := by
  rw [pairs, List.map_map]
  rfl

theorem map_lowercase_asSent (headers : Headers) :
    (headers.asSent.map fun pair => lowercase pair.1) = headers.keys := by
  rw [asSent, List.map_map]
  rfl

theorem sorted_perm (headers : Headers) : headers.sorted.Perm headers.pairs :=
  List.mergeSort_perm _ _

theorem nodup_map_fst_sorted (headers : Headers) : (headers.sorted.map Prod.fst).Nodup := by
  rw [(headers.sorted_perm.map Prod.fst).nodup_iff, map_fst_pairs]
  exact headers.nodup

theorem pairwise_sorted (headers : Headers) : headers.sorted.Pairwise fun a b => a.1 < b.1 := by
  have hle : headers.sorted.Pairwise fun a b => decide (a.1 ≤ b.1) = true := by
    refine List.pairwise_mergeSort (fun a b c hab hbc => ?_) (fun a b => ?_) headers.pairs
    · exact decide_eq_true (String.le_trans (of_decide_eq_true hab) (of_decide_eq_true hbc))
    · rw [Bool.or_eq_true, decide_eq_true_eq, decide_eq_true_eq]
      exact String.le_total a.1 b.1
  have hne := List.pairwise_map.1 headers.nodup_map_fst_sorted
  refine (hle.and hne).imp fun h => ?_
  exact Std.lt_of_le_of_ne (of_decide_eq_true h.1) h.2

/-! ### What remains of fields -/

theorem mem_elements_ofFields : field ∈ (ofFields fields).elements ↔ field.IsLast fields := by
  rw [KeyedList.mem_elements_iff, find?_ofFields, Field.isLast_iff]

theorem contains_ofFields :
    (ofFields fields).contains name = true ↔ ∃ field ∈ fields, field.key = name := by
  simp [KeyedList.contains, find?_ofFields]

theorem keys_ofFields (fields : List Field) :
    (ofFields fields).keys.Perm (fields.map Field.key).dedup := by
  refine (List.perm_ext_iff_of_nodup (ofFields fields).nodup (List.nodup_dedup _)).2 fun name => ?_
  rw [List.mem_dedup]
  exact KeyedList.mem_keys_iff.trans (contains_ofFields.trans List.mem_map.symm)

theorem mem_pairs_ofFields :
    (name, value) ∈ (ofFields fields).pairs ↔ Field.IsLastValue fields name value := by
  simp only [mem_pairs_iff, mem_elements_ofFields, Field.IsLastValue]

/-- After any number of fields that were set, what remains of those fields is found and listed. -/
theorem reflects_ofFields (fields : List Field) (n : Nat) :
    (ofFields (fields.take n)).Reflects (fields.take n) := by
  generalize fields.take n = fields
  have hkeys := keys_ofFields fields
  have hsize : (ofFields fields).size = (fields.map Field.key).dedup.length := by
    rw [← hkeys.length_eq, KeyedList.length_keys]
  constructor
  case value =>
    intro name value
    simp only [get?_eq_some_iff, mem_elements_ofFields, Field.IsLastValue]
  case no_value =>
    intro name
    simp [get?_ofFields, Field.key]
  case has => exact fun name => contains_ofFields
  case case_variant =>
    intro name other h
    have hlower := lowercase_eq_of_asciiLowercase h
    exact ⟨by rw [get?, get?, hlower], by rw [has, has, hlower]⟩
  case size => exact hsize
  case isEmpty =>
    rw [KeyedList.isEmpty_iff, hsize, List.length_eq_zero_iff, List.dedup_eq_nil,
      List.map_eq_nil_iff]
  case pairs => exact fun name value => mem_pairs_ofFields
  case pairs_names => rwa [map_fst_pairs]
  case sorted => exact (ofFields fields).sorted_perm
  case sorted_names =>
    exact List.pairwise_map.2 ((ofFields fields).pairwise_sorted.imp Utf8.encode_lt_encode_iff.2)
  case asSent => exact fun name value => mem_asSent_iff.trans mem_elements_ofFields
  case asSent_names => rwa [map_lowercase_asSent]

example : (ofFields [⟨"X-ΑΣ", "1"⟩, ⟨"Via", "2"⟩, ⟨"x-ας", "3"⟩]).asSent =
    [("x-ας", "3"), ("Via", "2")] := by decide +kernel

end Headers

end WireBench.Http
