import WireBench.KeyedList
import WireBench.Text.LetterCase

/-!
# Header fields

Header fields are looked up by name whatever its letter case, and setting a field replaces both the
value and the spelling that an earlier one of that name had. Written out, fields are in the order of
their names in lower case, so that what is written depends on the fields alone.
-/

namespace WireBench.Http

structure Field where
  name : String
  value : String
  deriving DecidableEq, Repr

/-- The name under which a field is found: its lower case. -/
def Field.key (field : Field) : String :=
  Text.lowercase field.name

/-- The header fields of a message, at most one of each name. -/
abbrev Headers := KeyedList Field Field.key

namespace Headers

def empty : Headers := KeyedList.empty

def set (headers : Headers) (name value : String) : Headers :=
  headers.insert ⟨name, value⟩

def get? (headers : Headers) (name : String) : Option String :=
  (headers.find? (Text.lowercase name)).map Field.value

def has (headers : Headers) (name : String) : Bool :=
  headers.contains (Text.lowercase name)

def ofFields (fields : List Field) : Headers :=
  fields.foldl (fun headers field => headers.insert field) empty

/-- The names in lower case with the values, in the order in which the names first came. -/
def pairs (headers : Headers) : List (String × String) :=
  headers.elements.map fun field => (field.key, field.value)

/-- The names in lower case with the values, by ascending name. -/
def sorted (headers : Headers) : List (String × String) :=
  headers.pairs.mergeSort fun a b => decide (a.1 ≤ b.1)

def asSent (headers : Headers) : List (String × String) :=
  headers.elements.map fun field => (field.name, field.value)

@[simp] theorem get?_empty (name : String) : empty.get? name = none := rfl

theorem get?_set (headers : Headers) (name value other : String) :
    (headers.set name value).get? other =
      if Text.lowercase name = Text.lowercase other then some value else headers.get? other := by
  unfold get? set
  rw [KeyedList.find?_insert]
  by_cases h : Text.lowercase name = Text.lowercase other <;> simp [Field.key, h]

end Headers

end WireBench.Http
