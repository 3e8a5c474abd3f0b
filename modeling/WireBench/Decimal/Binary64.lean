/-!
# Binary floating point of 64 bits

Magnitudes of the format with 53 bits of precision, held as a natural number times a power of two.
A quotient of natural numbers is rounded to the nearest magnitude, a half to the even one, and
products and quotients of magnitudes are rounded quotients of natural numbers.
-/

namespace WireBench.Decimal

/-- The magnitude `mantissa · 2 ^ (scale - 1074)`. A mantissa is below `2 ^ 53`, and below `2 ^ 52`
only at scale zero, so that equal magnitudes are equal. -/
structure Binary64 where
  mantissa : Nat
  scale : Nat
  deriving DecidableEq, Repr

namespace Binary64

def zero : Binary64 := ⟨0, 0⟩

def mantissaLimit : Nat := Nat.pow 2 53

def grain : Nat := Nat.pow 2 1074

def maxScale : Nat := 2045

def toQuotient (x : Binary64) : Nat × Nat :=
  (x.mantissa * Nat.pow 2 x.scale, grain)

/-- The quotient of two natural numbers rounded to the nearest natural number, a half to the even
one. -/
def roundDiv (num den : Nat) : Nat :=
  let q := num / den
  let r := num % den
  if 2 * r < den then q
  else if 2 * r = den then q + q % 2
  else q + 1

/-- The scale of a quotient: the least one at which the mantissa is below `2 ^ 53`. It is found
from an estimate that is at most one too small. -/
def scaleOf (num den : Nat) : Nat :=
  let estimate := num.log2 + 1074 - 53 - den.log2
  if num = 0 then 0
  else if num * grain / (den * Nat.pow 2 estimate) < mantissaLimit then estimate
  else estimate + 1

/-- The magnitude nearest to a quotient; none if it is infinite. -/
def round? (num den : Nat) : Option Binary64 :=
  let scale := scaleOf num den
  let mantissa := roundDiv (num * grain) (den * Nat.pow 2 scale)
  let x : Binary64 :=
    if mantissa = mantissaLimit then ⟨mantissaLimit / 2, scale + 1⟩ else ⟨mantissa, scale⟩
  if maxScale < x.scale then none else some x

def ofNat? (n : Nat) : Option Binary64 :=
  round? n 1

def mul? (x y : Binary64) : Option Binary64 :=
  round? (x.toQuotient.1 * y.toQuotient.1) (x.toQuotient.2 * y.toQuotient.2)

def div? (x y : Binary64) : Option Binary64 :=
  round? (x.toQuotient.1 * y.toQuotient.2) (x.toQuotient.2 * y.toQuotient.1)

/-- The quotients between which a magnitude is the nearest one: a half of the distance to the
neighbour on either side. Below a power of two the distance is half of that above it. -/
def interval (x : Binary64) : (Nat × Nat) × (Nat × Nat) :=
  let low :=
    if x.mantissa = mantissaLimit / 2 ∧ 0 < x.scale then 4 * x.mantissa - 1
    else 4 * x.mantissa - 2
  let step := Nat.pow 2 x.scale
  ((low * step, 4 * grain), ((4 * x.mantissa + 2) * step, 4 * grain))

/-- Whether a quotient is rounded to the magnitude. The ends of the interval are if the mantissa is
even. -/
def holds (x : Binary64) (num den : Nat) : Bool :=
  match x.interval with
  | ((lowNum, lowDen), (highNum, highDen)) =>
    if x.mantissa % 2 = 0 then lowNum * den ≤ num * lowDen && num * highDen ≤ highNum * den
    else lowNum * den < num * lowDen && num * highDen < highNum * den

end Binary64

end WireBench.Decimal
