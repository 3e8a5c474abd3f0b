import WireBench.Proofs.FileNames

/-!
# Paths without a base name

A path leads to an entry of a directory, leads up out of one, or is slashes and single dots alone.
Only in the first case it has a base name; in the others a part is named by the whole path, with all
slashes that are in it, and so it is sent.
-/

namespace WireBench

namespace Path

/-- Whether a path leads up out of a directory at its end. -/
def LeadsUp (path : Bytes) : Prop :=
  ∃ front behind, IsDirectory front ∧ IsTrailing behind ∧ path = front ++ [dot, dot] ++ behind

/-- Whether a path is slashes and single dots alone. -/
def LeadsNowhere (path : Bytes) : Prop :=
  IsTrailing (slash :: path)

variable {path name front behind trail : Bytes}

theorem IsTrailing.append (h : IsTrailing behind) (h' : IsTrailing trail) :
    IsTrailing (behind ++ trail) := by
  induction h with
  | nil => exact h'
  | cons _ ih => exact .cons ih
  | consDot _ ih => exact .consDot ih

theorem isName_or (h : slash ∉ name) :
    IsName name ∨ name = [dot, dot] ∨ IsTrailing (slash :: name) := by
  by_cases hnil : name = []
  · exact .inr (.inr (hnil ▸ .cons .nil))
  · by_cases hdot : name = [dot]
    · exact .inr (.inr (hdot ▸ .consDot .nil))
    · by_cases hdots : name = [dot, dot]
      · exact .inr (.inl hdots)
      · exact .inl ⟨hnil, h, hdot, hdots⟩

/-! ### Where a path leads -/

theorem leads_append_trailing (htrail : IsTrailing trail)
    (h : (∃ name, LeadsTo path name) ∨ LeadsUp path ∨ LeadsNowhere path) :
    (∃ name, LeadsTo (path ++ trail) name) ∨ LeadsUp (path ++ trail) ∨
      LeadsNowhere (path ++ trail) := by
  rcases h with ⟨name, hname, front, behind, hfront, hbehind, rfl⟩ |
    ⟨front, behind, hfront, hbehind, rfl⟩ | h
  · left
    exact ⟨name, hname, front, behind ++ trail, hfront, hbehind.append htrail,
      List.append_assoc ..⟩
  · right; left
    exact ⟨front, behind ++ trail, hfront, hbehind.append htrail, List.append_assoc ..⟩
  · right; right
    exact h.append htrail

theorem exists_last_piece (path : Bytes) :
    ∃ front piece, IsDirectory front ∧ slash ∉ piece ∧ path = front ++ piece := by
  by_cases h : slash ∈ path
  · obtain ⟨back, rest, hreverse, hback⟩ := List.eq_append_cons_of_mem (List.mem_reverse.2 h)
    refine ⟨rest.reverse ++ [slash], back.reverse, .inr ⟨_, rfl⟩, by simpa using hback, ?_⟩
    rw [← List.reverse_reverse path, hreverse]
    simp
  · exact ⟨[], path, .inl rfl, h, rfl⟩

/-- Every path leads to an entry, leads up or leads nowhere. -/
theorem leadsTo_or_leadsUp_or_leadsNowhere (path : Bytes) :
    (∃ name, LeadsTo path name) ∨ LeadsUp path ∨ LeadsNowhere path := by
  obtain ⟨front, piece, hfront, hslash, hpath⟩ := exists_last_piece path
  rcases isName_or hslash with hname | rfl | htrail
  · exact .inl ⟨piece, hname, front, [], hfront, .nil, by rw [hpath, List.append_nil]⟩
  · exact .inr (.inl ⟨front, [], hfront, .nil, by rw [hpath, List.append_nil]⟩)
  · rcases hfront with rfl | ⟨directory, rfl⟩
    · exact .inr (.inr (hpath ▸ htrail))
    · have hshape : path = directory ++ slash :: piece := by simpa using hpath
      have hdirectory := leadsTo_or_leadsUp_or_leadsNowhere directory
      exact hshape ▸ leads_append_trailing htrail hdirectory
termination_by path.length
decreasing_by simp [hshape]

/-! ### Base names -/

theorem LeadsUp.baseName?_eq (h : LeadsUp path) : baseName? path = none := by
  obtain ⟨front, behind, hfront, hbehind, rfl⟩ := h
  have hdots : steps slash dot [dot, dot] = [[dot, dot]] := by decide
  have hlast := getLast?_steps hfront hdots hbehind
  rw [baseName?, lastName?]
  simp only [hlast, beq_self_eq_true, if_true]

theorem LeadsNowhere.baseName?_eq (h : LeadsNowhere path) : baseName? path = none := by
  have hsteps : steps slash dot path = [] := by
    have hslash := IsTrailing.steps_eq h
    rw [steps_slash] at hslash
    exact hslash.1
  rw [baseName?, lastName?, hsteps]
  rfl

theorem baseName?_eq_none (h : LeadsUp path ∨ LeadsNowhere path) : baseName? path = none :=
  h.elim LeadsUp.baseName?_eq LeadsNowhere.baseName?_eq

end Path

namespace Part

open WireBench.Path

variable {types : MediaType.Lookup} {path : Bytes}

theorem name_ofPath (h : baseName? path = none) (content : Bytes) :
    (ofPath types path content).name = Utf8.decodeLossy path := by
  rw [ofPath, h, Option.getD_none, ofName_name]

/-- The name of a part has no slash exactly if its path leads to an entry or has none. -/
theorem slash_not_mem_name_iff (types : MediaType.Lookup) (path content : Bytes) :
    '/' ∉ (ofPath types path content).name.toList ↔
      (∃ entry, LeadsTo path entry) ∨ slash ∉ path := by
  have hslash : '/'.toNat < 128 := by decide
  rcases leadsTo_or_leadsUp_or_leadsNowhere path with ⟨entry, h⟩ | h
  · exact iff_of_true (slash_not_mem_name types h content) (.inl ⟨entry, h⟩)
  · have hnone : ¬ ∃ entry, LeadsTo path entry := by
      rintro ⟨entry, hentry⟩
      exact nomatch hentry.baseName?_eq.symm.trans (baseName?_eq_none h)
    rw [name_ofPath (baseName?_eq_none h), Utf8.mem_decodeLossy_iff hslash, or_iff_right hnone]
    rfl

end Part

namespace Multipart

open WireBench.Path

/-- A file is sent under the name of the entry that its path leads to, in whose name there is no
slash, and if the path leads up or nowhere, under the whole path. So a slash stands between the
quotes in the header block of a file exactly if its path leads to no entry and has one. -/
theorem slashes_in_file_names (types : MediaType.Lookup) (boundary : Boundary)
    (files : List (Bytes × Bytes)) :
    FormData.bytes ⟨boundary, files.map fun file => Part.ofPath types file.1 file.2⟩ =
        (files.flatMap fun file => boundary.marker ++ Bytes.crlf ++
          headerOfName types (Part.ofPath types file.1 file.2).name ++ Bytes.crlf ++ file.2 ++
            Bytes.crlf) ++ closing boundary ∧
      ∀ file ∈ files,
        let name := (Part.ofPath types file.1 file.2).name
        ((∃ entry, LeadsTo file.1 entry ∧ name = Utf8.decodeLossy entry) ∨
            (LeadsUp file.1 ∨ LeadsNowhere file.1) ∧ name = Utf8.decodeLossy file.1) ∧
          ('/' ∉ name.toList ↔ (∃ entry, LeadsTo file.1 entry) ∨ slash ∉ file.1) ∧
            (slash ∈ Utf8.encode name ↔ '/' ∈ name.toList) := by
  refine ⟨bytes_of_files types boundary files, fun file _ => ?_⟩
  intro name
  refine ⟨?_, Part.slash_not_mem_name_iff types file.1 file.2, ?_⟩
  · rcases leadsTo_or_leadsUp_or_leadsNowhere file.1 with ⟨entry, h⟩ | h
    · exact .inl ⟨entry, h, congrArg Part.name (Part.ofPath_eq_of_leadsTo types h file.2)⟩
    · exact .inr ⟨h, Part.name_ofPath (baseName?_eq_none h) file.2⟩
  · exact Utf8.mem_encode_iff (by decide : '/'.toNat < 128) name

/-- Whatever the types, it is not so that no name of a part has a slash: that of a path that leads
up has its directory in it. -/
theorem not_forall_slash_not_mem_name :
    ¬ ∃ types : MediaType.Lookup, ∀ path content : Bytes,
      '/' ∉ (Part.ofPath types path content).name.toList := by
  rintro ⟨types, h⟩
  have hup : LeadsUp (Utf8.encode "private/..") :=
    ⟨Utf8.encode "private" ++ [slash], [], .inr ⟨_, rfl⟩, .nil, by decide⟩
  have hname := h (Utf8.encode "private/..") []
  rw [Part.name_ofPath hup.baseName?_eq, Utf8.mem_decodeLossy_iff (by decide)] at hname
  exact hname (by decide)

end Multipart

end WireBench
