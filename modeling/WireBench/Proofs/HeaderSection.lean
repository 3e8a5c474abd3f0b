import Mathlib.Data.List.Induction
import Mathlib.Tactic.MkIffOfInductiveProp
import WireBench.Http.Writing
import WireBench.Http.Reading
import WireBench.Proofs.Literals
import WireBench.Proofs.Trimming
import WireBench.Proofs.Utf8Bytes

/-!
# Header sections read back

A section of header lines is read back field by field, up to the blank line and no further,
whatever follows it.
-/

namespace WireBench

theorem Bytes.cutLine_append_lf {l : Bytes} (h : lf ∉ l) (rest : Bytes) :
    cutLine (l ++ lf :: rest) = (l ++ [lf], rest) := by
  induction l with
  | nil => simp [cutLine]
  | cons b bs ih =>
    have hb : b ≠ lf := fun e => h (by simp [e])
    have hbs := ih fun hm => h (List.mem_cons_of_mem _ hm)
    rw [List.cons_append, cutLine_cons_of_ne hb, hbs]
    rfl

namespace Http

open WireBench.Text WireBench.Transport

variable {ending : Ending}

/-- A text without line feeds is read as a line if it is sent with a line end. -/
theorem Reading.line_encode {s : String} (hs : '\n' ∉ s.toList) (ending : Ending) (rest : Bytes) :
    Reading.line ending (Utf8.encode (s ++ "\r\n") ++ rest) = (.ok (s ++ "\r\n"), rest) := by
  have hmem : Bytes.lf ∉ Utf8.encode (s ++ "\r") := by
    intro h
    have hc := (Utf8.mem_encode_iff (by decide : '\n'.toNat < 128) _).1 h
    simp [hs] at hc
  have hshape : Utf8.encode (s ++ "\r\n") = Utf8.encode (s ++ "\r") ++ [Bytes.lf] := by
    have hend : Utf8.encode "\r\n" = Utf8.encode "\r" ++ [Bytes.lf] := by decide
    rw [Utf8.encode_append, Utf8.encode_append, hend, List.append_assoc]
  have hcut : Bytes.cutLine (Utf8.encode (s ++ "\r\n") ++ rest) =
      (Utf8.encode (s ++ "\r\n"), rest) := by
    rw [hshape, List.append_assoc]
    exact Bytes.cutLine_append_lf hmem rest
  have hended : Bytes.isTerminated (Utf8.encode (s ++ "\r\n")) = true := by
    simp [Bytes.isTerminated, hshape]
  simp only [Reading.line, hcut, hended, Utf8.decode?_encode]

namespace Field

/-- Whether a field keeps to one line with the colon behind its name. -/
@[mk_iff]
structure IsPlain (field : Field) : Prop where
  name_colon : ':' ∉ field.name.toList
  name_end : '\n' ∉ field.name.toList
  value_end : '\n' ∉ field.value.toList

instance (field : Field) : Decidable field.IsPlain :=
  decidable_of_iff _ (isPlain_iff field).symm

def trimmed (field : Field) : Field :=
  ⟨trim field.name, trim field.value⟩

theorem map_trimmed {fields : List Field} (h : ∀ field ∈ fields, field.trimmed = field) :
    fields.map trimmed = fields :=
  (List.map_congr_left h).trans (List.map_id fields)

def sectionBytes (fields : List Field) : Bytes :=
  fields.flatMap (fun field => Utf8.encode field.line) ++ Bytes.crlf

theorem sectionBytes_cons (field : Field) (fields : List Field) :
    sectionBytes (field :: fields) = Utf8.encode field.line ++ sectionBytes fields := by
  rw [sectionBytes, sectionBytes, List.flatMap_cons, List.append_assoc]

theorem toList_line (field : Field) :
    field.line.toList = field.name.toList ++ ':' :: (" " ++ field.value ++ "\r\n").toList := by
  simp [line]

theorem cutWhere_colon {name value : String} (h : ':' ∉ name.toList) :
    cutWhere (· == ':') (name ++ ":" ++ value).toList = some (name.toList, value.toList) := by
  have hname : ∀ c ∈ name.toList, (c == ':') = false :=
    fun c hc => beq_false_of_ne fun he => h (he ▸ hc)
  have hshape : (name ++ ":" ++ value).toList = name.toList ++ ':' :: value.toList := by simp
  rw [hshape]
  exact cutWhere_append hname (by decide) _

theorem ofText_line {field : Field} (h : ':' ∉ field.name.toList) :
    ofText field.line = .ok field.trimmed := by
  have hshape : field.line = field.name ++ ":" ++ (" " ++ field.value ++ "\r\n") := by
    apply String.toList_inj.1
    simp [line]
  have hvalue : trim (" " ++ field.value ++ "\r\n") = trim field.value :=
    trim_append_blanks (forall_mem_ofList rfl) (forall_mem_ofList rfl) _
  simp only [ofText, hshape, cutWhere_colon h, String.ofList_toList, hvalue, trimmed]

theorem endsSection_line (field : Field) : endsSection field.line = false := by
  have hcolon : ':' ∈ field.line.toList := by simp [toList_line]
  have hne : ∀ s : String, ':' ∉ s.toList → (field.line == s) = false := by
    intro s hs
    apply beq_false_of_ne
    rintro rfl
    exact hs hcolon
  rw [endsSection, hne _ (by decide), hne _ (by decide), hne _ (by decide)]
  rfl

end Field

namespace Headers

/-- One header line is read, and reading goes on behind it. -/
theorem readFrom_field {headers : Headers} {bs rest : Bytes} {line : String} {field : Field}
    (hline : Reading.line ending bs = (.ok line, rest)) (hends : endsSection line = false)
    (hfield : Field.ofText line = .ok field) :
    readFrom ending headers bs = readFrom ending (headers.insert field) rest := by
  rw [readFrom]
  split
  · next h => simp [hline] at h
  · next h =>
    obtain ⟨rfl, rfl⟩ : line = _ ∧ rest = _ := by simpa [hline] using h
    simp [hends, hfield]

theorem readFrom_blank {headers : Headers} {bs rest : Bytes} {line : String}
    (hline : Reading.line ending bs = (.ok line, rest)) (hends : endsSection line = true) :
    readFrom ending headers bs = (.ok headers, rest) := by
  rw [readFrom]
  split
  · next h => simp [hline] at h
  · next h =>
    obtain ⟨rfl, rfl⟩ : line = _ ∧ rest = _ := by simpa [hline] using h
    simp [hends]

/-- Header lines and a blank line are read as the fields, set one after the other. -/
theorem readFrom_section {fields : List Field} (h : ∀ field ∈ fields, field.IsPlain)
    (headers : Headers) (ending : Ending) (rest : Bytes) :
    readFrom ending headers (Field.sectionBytes fields ++ rest) =
      (.ok ((fields.map Field.trimmed).foldl (fun headers field => headers.insert field) headers),
        rest) := by
  induction fields generalizing headers with
  | nil =>
    have hline : Reading.line ending (Bytes.crlf ++ rest) = (.ok ("" ++ "\r\n"), rest) := by
      rw [← Utf8.encode_crlf]
      exact @Reading.line_encode "" (by decide) ending rest
    exact readFrom_blank hline (by decide)
  | cons field fields ih =>
    obtain ⟨hfield, hfields⟩ := List.forall_mem_cons.1 h
    have htext : '\n' ∉ (field.name ++ ": " ++ field.value).toList := by
      simp [hfield.name_end, hfield.value_end]
    have hline : Reading.line ending (Utf8.encode field.line ++ (Field.sectionBytes fields ++ rest)) =
        (.ok field.line, Field.sectionBytes fields ++ rest) :=
      Reading.line_encode htext ending _
    rw [Field.sectionBytes_cons, List.append_assoc,
      readFrom_field hline field.endsSection_line (Field.ofText_line hfield.name_colon)]
    exact ih hfields _

theorem ofFields_concat (fields : List Field) (field : Field) :
    ofFields (fields ++ [field]) = (ofFields fields).insert field := by
  rw [ofFields, List.foldl_append]
  rfl

theorem elements_ofFields {fields : List Field} (h : (fields.map Field.key).Nodup) :
    (ofFields fields).elements = fields := by
  induction fields using List.reverseRecOn with
  | nil => rfl
  | append_singleton fields field ih =>
    rw [List.map_append, List.map_singleton, List.nodup_append] at h
    obtain ⟨hnodup, -, hapart⟩ := h
    have hfields := ih hnodup
    have hnew : field.key ∉ (ofFields fields).keys := by
      rw [KeyedList.keys, hfields]
      exact fun hm => hapart _ hm _ (List.mem_singleton_self _) rfl
    rw [ofFields_concat, KeyedList.elements_insert hnew, hfields]

/-- Of the fields of a name, the last one set is found. -/
theorem find?_ofFields (fields : List Field) (k : String) :
    (ofFields fields).find? k = fields.reverse.find? fun field => field.key == k := by
  induction fields using List.reverseRecOn with
  | nil => rfl
  | append_singleton fields field ih =>
    rw [ofFields_concat, KeyedList.find?_insert, ih, List.reverse_append, List.reverse_singleton,
      List.singleton_append, List.find?_cons]
    by_cases h : field.key = k
    · rw [if_pos h, beq_iff_eq.2 h]
    · rw [if_neg h, beq_false_of_ne h]

theorem get?_ofFields (fields : List Field) (name : String) :
    (ofFields fields).get? name =
      (fields.reverse.find? fun field => lowercase field.name == lowercase name).map
        Field.value := by
  rw [get?, find?_ofFields]
  rfl

end Headers

end Http

end WireBench
