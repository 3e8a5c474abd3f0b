import WireBench.Multipart.FormData
import WireBench.Text.Search

/-!
# Places of markers

Where the frames of the parts start in a message, counted from the lengths of the frames alone. A
reader that looks for markers finds them there, and elsewhere only if a part brings one along.
-/

namespace WireBench.Multipart

/-- Whether a part brings no marker along, neither in its content nor in its name. -/
def IsFree (boundary : Boundary) (part : Part) : Prop :=
  ¬ boundary.marker <:+: part.content ∧ ¬ boundary.marker <:+: Utf8.encode part.name

instance (boundary : Boundary) (part : Part) : Decidable (IsFree boundary part) :=
  inferInstanceAs (Decidable (_ ∧ _))

def Collides (boundary : Boundary) (parts : List Part) : Prop :=
  ∃ part ∈ parts, boundary.marker <:+: part.content

/-- The places at which the frames of some parts start if the first starts at `place`, and the place
after the last. -/
def startsFrom (boundary : Boundary) (place : Nat) : List Part → List Nat
  | [] => [place]
  | part :: parts => place :: startsFrom boundary (place + frameLength boundary part) parts

def FormData.starts (form : FormData) : List Nat :=
  startsFrom form.boundary 0 form.parts

theorem length_startsFrom (boundary : Boundary) (place : Nat) (parts : List Part) :
    (startsFrom boundary place parts).length = parts.length + 1 := by
  induction parts generalizing place with
  | nil => rfl
  | cons part parts ih => simp [startsFrom, ih]

theorem FormData.length_starts (form : FormData) : form.starts.length = form.parts.length + 1 :=
  length_startsFrom form.boundary 0 form.parts

end WireBench.Multipart
