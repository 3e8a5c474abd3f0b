import WireBench.Json.Value

/-!
# Shapes of JSON values

How deep a value is nested, and whether all its numbers are integers, which are kept exactly.
-/

namespace WireBench.Json

mutual

def Value.depth : Value → Nat
  | .array vs => depthOfElements vs + 1
  | .object ms => depthOfMembers ms + 1
  | _ => 0

def depthOfElements : List Value → Nat
  | [] => 0
  | v :: vs => max v.depth (depthOfElements vs)

def depthOfMembers : List (String × Value) → Nat
  | [] => 0
  | (_, v) :: ms => max v.depth (depthOfMembers ms)

end

def Number.isInteger : Number → Bool
  | .natural _ => true
  | .negative _ => true
  | .real _ _ => false

mutual

/-- Whether all numbers in a value are integers. -/
def Value.isExact : Value → Bool
  | .number n => n.isInteger
  | .array vs => elementsAreExact vs
  | .object ms => membersAreExact ms
  | _ => true

def elementsAreExact : List Value → Bool
  | [] => true
  | v :: vs => v.isExact && elementsAreExact vs

def membersAreExact : List (String × Value) → Bool
  | [] => true
  | (_, v) :: ms => v.isExact && membersAreExact ms

end

end WireBench.Json
