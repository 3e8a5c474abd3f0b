import WireBench.Json.Value

/-!
# Numbers as they are written

A written number has an integer part, perhaps a fraction and perhaps an exponent. Integers of 64
bits are read exactly. Everything else goes through at most twenty digits of precision and a
multiplication or division by a power of ten in floating point, so that the result is not always
the nearest magnitude.
-/

namespace WireBench.Json

open WireBench.Decimal

/-- A number taken apart: the digits before the point, those behind it if there is one, and the
sign and the digits of the exponent if there is one. -/
structure Numeral where
  minus : Bool
  whole : List Nat
  fraction : Option (List Nat)
  exponent : Option (Bool × List Nat)
  deriving DecidableEq, Repr

namespace Numeral

def wordLimit : Nat := 18446744073709551615

def exponentLimit : Nat := 2147483647

/-- Appends digits to a number as long as it stays within 64 bits, and counts the digits that were
appended and those that were not. -/
def appendDigits (n taken : Nat) : List Nat → Nat × Nat × Nat
  | [] => (n, taken, 0)
  | d :: ds =>
    if wordLimit < n * 10 + d then (n, taken, ds.length + 1)
    else appendDigits (n * 10 + d) (taken + 1) ds

def ofDigits (ds : List Nat) : Nat :=
  ds.foldl (fun n d => n * 10 + d) 0

def tenTo? (k : Nat) : Option Binary64 :=
  Binary64.ofNat? (Nat.pow 10 k)

def longStep : Nat := 308

def shiftLong (x : Binary64) : Nat → Option Binary64
  | 0 => some x
  | steps + 1 =>
    if x.mantissa = 0 then some x
    else ((tenTo? longStep).bind x.div?).bind fun y => shiftLong y steps

/-- Divides a magnitude by a power of ten: by the greatest one as often as needed, then by what is
left. -/
def shiftDown (x : Binary64) (places : Nat) : Option Binary64 :=
  let steps := (places - 1) / longStep
  (shiftLong x steps).bind fun y => (tenTo? (places - steps * longStep)).bind y.div?

def shiftUp (x : Binary64) (places : Nat) : Option Binary64 :=
  if places ≤ longStep then (tenTo? places).bind x.mul?
  else if x.mantissa = 0 then some x
  else none

/-- The magnitude of an integer moved by some decimal places. -/
def scaled? (significand : Nat) (exponent : Int) : Option Binary64 :=
  (Binary64.ofNat? significand).bind fun x =>
    if 0 ≤ exponent then shiftUp x exponent.toNat else shiftDown x exponent.natAbs

/-- The magnitude of a significand with a written exponent. An exponent beyond 32 bits makes
everything zero or infinite. -/
def withExponent? (significand : Nat) (places : Int) : Option (Bool × List Nat) → Option Binary64
  | none => scaled? significand places
  | some (minus, ds) =>
    if exponentLimit < ofDigits ds then
      if significand = 0 ∨ minus then some Binary64.zero else none
    else scaled? significand (if minus then places - ofDigits ds else places + ofDigits ds)

def value? (numeral : Numeral) : Option Number :=
  match appendDigits 0 0 numeral.whole with
  | (n, _, dropped) =>
    match numeral.fraction, numeral.exponent, dropped, numeral.minus with
    | none, none, 0, false => some (.natural n)
    | none, none, 0, true =>
      if n = 0 then some (.real true Binary64.zero)
      else if n ≤ 9223372036854775808 then some (.negative n)
      else (Binary64.ofNat? n).map (.real true)
    | none, exponent, _, minus => (withExponent? n dropped exponent).map (.real minus)
    | some ds, exponent, _, minus =>
      match appendDigits n 0 ds with
      | (m, taken, _) => (withExponent? m (dropped - taken) exponent).map (.real minus)

end Numeral

def Number.toText : Number → String
  | .natural n => toString n
  | .negative n => "-" ++ toString n
  | .real minus x => (if minus then "-" else "") ++ x.toText

end WireBench.Json
