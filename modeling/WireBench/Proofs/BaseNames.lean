import Mathlib.Data.List.Forall2
import WireBench.MediaType.Extensions
import WireBench.Multipart.FormData
import WireBench.Proofs.LossyText

/-!
# Base names whatever the directory

The base name of a path depends neither on the directories before it nor on slashes and single dots
behind it. So files are framed alike whatever directories they were named through, and no directory
shows in a message.
-/

namespace WireBench

namespace Path

/-- Whether a byte string names an entry of a directory, other than the directory itself and the one
above it. -/
structure IsName (name : Bytes) : Prop where
  ne_nil : name ≠ []
  slash_not_mem : slash ∉ name
  ne_dot : name ≠ [dot]
  ne_dots : name ≠ [dot, dot]

/-- What may stand in front of a name: nothing, or anything that ends in a slash. -/
def IsDirectory (front : Bytes) : Prop :=
  front = [] ∨ ∃ directory, front = directory ++ [slash]

/-- What may follow a name without naming something else: slashes, each perhaps with a dot. -/
inductive IsTrailing : Bytes → Prop where
  | nil : IsTrailing []
  | cons {behind : Bytes} (h : IsTrailing behind) : IsTrailing (slash :: behind)
  | consDot {behind : Bytes} (h : IsTrailing behind) : IsTrailing (slash :: dot :: behind)

/-- Whether a path leads to an entry of this name, through whatever directories. -/
def LeadsTo (path name : Bytes) : Prop :=
  IsName name ∧ ∃ front behind, IsDirectory front ∧ IsTrailing behind ∧
    path = front ++ name ++ behind

variable {path other name front behind : Bytes}

theorem steps_append_slash (front behind : Bytes) :
    steps slash dot (front ++ slash :: behind) =
      steps slash dot front ++ steps slash dot behind := by
  have hslash : (slash == slash) = true := beq_self_eq_true slash
  rw [steps, @Text.splitWhere_append_cons _ (· == slash) _ hslash, List.filter_append]
  rfl

theorem steps_nil : steps slash dot [] = [] := rfl

theorem steps_dot : steps slash dot [dot] = [] := by decide

theorem steps_slash (behind : Bytes) :
    steps slash dot (slash :: behind) = steps slash dot behind :=
  steps_append_slash [] behind

theorem IsName.steps_eq (h : IsName name) : steps slash dot name = [name] := by
  have hsplit : Text.splitWhere (· == slash) name = [name] :=
    Text.splitWhere_eq_singleton fun b hb => beq_false_of_ne fun he => h.slash_not_mem (he ▸ hb)
  simp [steps, hsplit, h.ne_nil, h.ne_dot]

theorem IsTrailing.steps_eq (h : IsTrailing behind) :
    steps slash dot behind = [] ∧ steps slash dot (dot :: behind) = [] := by
  have hdot : ∀ bs : Bytes, steps slash dot (dot :: slash :: bs) = steps slash dot bs := by
    intro bs
    have happend := steps_append_slash [dot] bs
    rwa [steps_dot, List.nil_append] at happend
  induction h with
  | nil => exact ⟨steps_nil, steps_dot⟩
  | cons h ih =>
    rw [steps_slash, hdot]
    exact ⟨ih.1, ih.1⟩
  | consDot h ih =>
    rw [steps_slash, hdot]
    exact ⟨ih.2, ih.2⟩

/-- A single step stays the only one whatever trails behind it. -/
theorem steps_append_trailing (hname : steps slash dot name = [name])
    (hbehind : IsTrailing behind) : steps slash dot (name ++ behind) = [name] := by
  cases hbehind with
  | nil => rw [List.append_nil, hname]
  | cons h => rw [steps_append_slash, hname, h.steps_eq.1, List.append_nil]
  | consDot h => rw [steps_append_slash, hname, h.steps_eq.2, List.append_nil]

theorem getLast?_steps (hfront : IsDirectory front) (hname : steps slash dot name = [name])
    (hbehind : IsTrailing behind) :
    (steps slash dot (front ++ name ++ behind)).getLast? = some name := by
  rcases hfront with rfl | ⟨directory, rfl⟩
  · rw [List.nil_append, steps_append_trailing hname hbehind]
    rfl
  · have hshape : directory ++ [slash] ++ name ++ behind =
        directory ++ slash :: (name ++ behind) := by simp
    rw [hshape, steps_append_slash, steps_append_trailing hname hbehind, List.getLast?_concat]

theorem LeadsTo.baseName?_eq (h : LeadsTo path name) : baseName? path = some name := by
  obtain ⟨hname, front, behind, hfront, hbehind, rfl⟩ := h
  have hlast := getLast?_steps hfront hname.steps_eq hbehind
  have hdots : (name == [dot, dot]) = false := beq_false_of_ne hname.ne_dots
  rw [baseName?, lastName?]
  simp only [hlast, hdots, Bool.false_eq_true, if_false]

end Path

namespace Part

open WireBench.Path

variable {path other name : Bytes}

theorem ofPath_eq_of_leadsTo (types : MediaType.Lookup) (h : LeadsTo path name)
    (content : Bytes) :
    ofPath types path content = ofName types (Utf8.decodeLossy name) content := by
  rw [ofPath, h.baseName?_eq, Option.getD_some]

theorem slash_not_mem_name (types : MediaType.Lookup) (h : LeadsTo path name) (content : Bytes) :
    '/' ∉ (ofPath types path content).name.toList := by
  have hslash : '/'.toNat < 128 := by decide
  rw [ofPath_eq_of_leadsTo types h content, ofName_name, Utf8.mem_decodeLossy_iff hslash]
  exact h.1.slash_not_mem

theorem ofPath_of_slash_not_mem (types : MediaType.Lookup) (h : slash ∉ path) (content : Bytes) :
    ofPath types path content = ofName types (Utf8.decodeLossy path) content := by
  by_cases hname : IsName path
  · refine ofPath_eq_of_leadsTo types ⟨hname, [], [], .inl rfl, .nil, ?_⟩ content
    rw [List.nil_append, List.append_nil]
  · have hnone : baseName? path = none := by
      by_cases hnil : path = []
      · exact hnil ▸ rfl
      · by_cases hdot : path = [dot]
        · exact hdot ▸ rfl
        · by_cases hdots : path = [dot, dot]
          · exact hdots ▸ rfl
          · exact absurd ⟨hnil, h, hdot, hdots⟩ hname
    rw [ofPath, hnone, Option.getD_none]

theorem ofPath_congr (types : MediaType.Lookup) (h : LeadsTo path name) (h' : LeadsTo other name)
    (content : Bytes) :
    ofPath types path content = ofPath types other content := by
  rw [ofPath_eq_of_leadsTo types h, ofPath_eq_of_leadsTo types h']

end Part

namespace Multipart

open WireBench.Path

/-- Whether two files, each a path with its content, have the same content and their paths lead to
entries of the same name. -/
def SameFile (file other : Bytes × Bytes) : Prop :=
  file.2 = other.2 ∧ ∃ name, LeadsTo file.1 name ∧ LeadsTo other.1 name

/-- A file is made the same part whatever directories it is named through and whatever slashes and
dots stand behind its name: its name in the part is the text of the name alone, with no slash in it.
So a message is the same, byte for byte, whatever directories its files are named through. -/
theorem bytes_of_directories (types : MediaType.Lookup) :
    (∀ name front front' behind behind' content : Bytes, IsName name → IsDirectory front →
      IsDirectory front' → IsTrailing behind → IsTrailing behind' →
        let part := Part.ofPath types (front ++ name ++ behind) content
        let part' := Part.ofPath types (front' ++ name ++ behind') content
        part.name = part'.name ∧ part.mediaType = part'.mediaType ∧
          part.content = part'.content ∧ part.content = content ∧
            part.name = Utf8.decodeLossy name ∧ '/' ∉ part.name.toList) ∧
      ∀ (boundary : Boundary) (files others : List (Bytes × Bytes)),
        List.Forall₂ SameFile files others →
          FormData.bytes ⟨boundary, files.map fun file => Part.ofPath types file.1 file.2⟩ =
            FormData.bytes ⟨boundary, others.map fun file => Part.ofPath types file.1 file.2⟩ := by
  constructor
  · intro name front front' behind behind' content hname hfront hfront' hbehind hbehind'
    have hleads : LeadsTo (front ++ name ++ behind) name :=
      ⟨hname, front, behind, hfront, hbehind, rfl⟩
    have hleads' : LeadsTo (front' ++ name ++ behind') name :=
      ⟨hname, front', behind', hfront', hbehind', rfl⟩
    have hpart := Part.ofPath_eq_of_leadsTo types hleads content
    have hslash := Part.slash_not_mem_name types hleads content
    intro part part'
    have hsame : part = part' := Part.ofPath_congr types hleads hleads' content
    exact ⟨congrArg Part.name hsame, congrArg Part.mediaType hsame, congrArg Part.content hsame,
      rfl, congrArg Part.name hpart, hslash⟩
  · intro boundary files others h
    have hparts : (files.map fun file => Part.ofPath types file.1 file.2) =
        others.map fun file => Part.ofPath types file.1 file.2 := by
      induction h with
      | nil => rfl
      | cons hfile _ ih =>
        obtain ⟨hcontent, name, hleads, hleads'⟩ := hfile
        rw [List.map_cons, List.map_cons, ih, hcontent, Part.ofPath_congr types hleads hleads']
    rw [hparts]

/-- A hidden file with an ill-formed name is sent alike from here and through other directories. -/
theorem bytes_of_roundabout_path :
    let name : Bytes := [46, 195, 46, 46, 103, 122]
    let path := Utf8.encode "//home/./user/.." ++ [slash] ++ name ++ [slash, dot, slash, slash]
    let types := MediaType.byExtension
    SameFile (path, [1, 2]) (name, [1, 2]) ∧
      (Part.ofPath types path [1, 2]).name = Utf8.decodeLossy name ∧
        ∀ boundary : Boundary, FormData.bytes ⟨boundary, [Part.ofPath types path [1, 2]]⟩ =
          FormData.bytes ⟨boundary, [Part.ofPath types name [1, 2]]⟩ := by
  intro name path types
  have hname : IsName name := ⟨by decide, by decide, by decide, by decide⟩
  have hfront : IsDirectory (Utf8.encode "//home/./user/.." ++ [slash]) := .inr ⟨_, rfl⟩
  have hbehind : IsTrailing [slash, dot, slash, slash] := .consDot (.cons (.cons .nil))
  have hfile : SameFile (path, [1, 2]) (name, [1, 2]) :=
    ⟨rfl, name, ⟨hname, _, _, hfront, hbehind, rfl⟩, ⟨hname, [], [], .inl rfl, .nil, by simp⟩⟩
  obtain ⟨hpart, hform⟩ := bytes_of_directories types
  have htext := (hpart name _ [] _ [] [1, 2] hname hfront (.inl rfl) hbehind .nil).2.2.2.2.1
  have hforms := fun boundary => hform boundary [(path, [1, 2])] [(name, [1, 2])] (.cons hfile .nil)
  simp only [List.map_cons, List.map_nil] at hforms
  exact ⟨hfile, htext, hforms⟩

end Multipart

end WireBench
