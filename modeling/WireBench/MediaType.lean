/-!
# Media types

The media type of a file is that of its name. Which types there are is left to a lookup; where it
knows none, a file is a sequence of bytes.
-/

namespace WireBench.MediaType

/-- What tells the media types of files by their names, as far as it knows them. -/
abbrev Lookup := String → Option String

def unknown : String := "application/octet-stream"

def ofName (types : Lookup) (name : String) : String :=
  (types name).getD unknown

/-- Whether every type that a lookup knows can stand in a line: none has a carriage return in it. -/
def Lookup.IsUnbroken (types : Lookup) : Prop :=
  ∀ name mediaType, types name = some mediaType → '\r' ∉ mediaType.toList

theorem cr_not_mem_ofName {types : Lookup} (h : types.IsUnbroken) (name : String) :
    '\r' ∉ (ofName types name).toList := by
  rw [ofName]
  cases htype : types name with
  | none => decide
  | some mediaType => exact h name mediaType htype

end WireBench.MediaType
