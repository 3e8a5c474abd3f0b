import WireBench.Bytes
import WireBench.Text.Split

/-!
# Base names and extensions

A path is a byte string cut into pieces by slashes. The base name is the last piece that is neither
empty nor a single dot, unless that is the double dot; the extension is what follows the last dot of
the base name, if something stands before that dot.
-/

namespace WireBench.Path

open WireBench.Text

variable {α : Type} [BEq α]

/-- The pieces of a path that name something: neither the empty ones nor the single dots. -/
def steps (slash dot : α) (path : List α) : List (List α) :=
  (splitWhere (· == slash) path).filter fun piece => !(piece.isEmpty || piece == [dot])

/-- The last step of a path, unless there is none or it leads back up. -/
def lastName? (slash dot : α) (path : List α) : Option (List α) :=
  match (steps slash dot path).getLast? with
  | some name => if name == [dot, dot] then none else some name
  | none => none

def slash : UInt8 := 47

def dot : UInt8 := 46

def baseName? (path : Bytes) : Option Bytes :=
  lastName? slash dot path

def extension? (name : String) : Option String :=
  match lastName? '/' '.' name.toList with
  | none => none
  | some base =>
    match cutLastWhere (· == '.') base with
    | some (before, after) => if before.isEmpty then none else some (String.ofList after)
    | none => none

end WireBench.Path
