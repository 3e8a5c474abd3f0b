import WireBench.Text.Utf8

/-!
# Boundaries

A boundary is the token that separates the parts of one message. A fresh one is a fixed word
followed by eight random bytes in hexadecimal, so that it is always 33 characters long.
-/

namespace WireBench.Multipart

abbrev Draw := Vector UInt8 8

/-- A random source: what it will give, and how much of that has been taken. -/
structure Draws where
  draw : Nat → Draw
  taken : Nat

def Draws.next (draws : Draws) : Draw × Draws :=
  (draws.draw draws.taken, { draws with taken := draws.taken + 1 })

structure Boundary where
  token : String
  deriving DecidableEq, Repr

namespace Boundary

def stem : String := "fixture-boundary-"

def ofDraw (draw : Draw) : Boundary :=
  ⟨stem ++ Bytes.toHex draw.toList⟩

def delimiter (boundary : Boundary) : String :=
  "--" ++ boundary.token

def marker (boundary : Boundary) : Bytes :=
  Utf8.encode boundary.delimiter

/-- The length of a marker, told by that of its token. -/
def markerLength (boundary : Boundary) : Nat :=
  (Utf8.encode boundary.token).length + 2

theorem length_marker_eq (boundary : Boundary) :
    boundary.marker.length = boundary.markerLength := by
  have hdashes : (Utf8.encode "--").length = 2 := by decide
  rw [marker, delimiter, Utf8.encode_append, List.length_append, hdashes, markerLength,
    Nat.add_comm]

end Boundary

end WireBench.Multipart
