import WireBench.Decimal.Binary64

/-!
# The shortest decimal

Of the decimals that are rounded to a given magnitude, those with the fewest digits are sought, and
of these the nearest. With a given number of digits only the two neighbours of the magnitude on the
decimal grid need to be tried: if any point of the grid is rounded to it, so is one of these.
-/

namespace WireBench.Decimal

/-- The decimal `digits · 10 ^ exponent`, or `digits / 10 ^ below` when that is negative: the value
is `digits · 10 ^ up / 10 ^ down`. -/
structure Scaled where
  digits : Nat
  up : Nat
  down : Nat
  deriving DecidableEq, Repr

def Scaled.toQuotient (d : Scaled) : Nat × Nat :=
  (d.digits * Nat.pow 10 d.up, Nat.pow 10 d.down)

def digitCount (n : Nat) : Nat :=
  (Nat.toDigits 10 n).length

/-- The exponent of the first digit of a quotient that is not zero, as a difference of two natural
numbers of which one is zero. -/
def leadingPlace (num den : Nat) : Nat × Nat :=
  if den ≤ num then (digitCount (num / den) - 1, 0)
  else
    let estimate := digitCount den - digitCount num
    if den ≤ num * Nat.pow 10 estimate then (0, estimate) else (0, estimate + 1)

/-- The grid of decimals with `n` digits in which a quotient lies, as the power of ten to multiply
by and the one to divide by. -/
def grid (place : Nat × Nat) (n : Nat) : Nat × Nat :=
  let up := place.1 + 1
  let down := place.2 + n
  (up - down, down - up)

def neighbours (num den : Nat) (g : Nat × Nat) : Scaled × Scaled :=
  let q := num * Nat.pow 10 g.2 / (den * Nat.pow 10 g.1)
  (⟨q, g.1, g.2⟩, ⟨q + 1, g.1, g.2⟩)

/-- Which of its two neighbours on a grid a quotient is nearer to; a tie goes to the even one. -/
def nearer (num den : Nat) (g : Nat × Nat) (low high : Scaled) : Scaled :=
  let r := num * Nat.pow 10 g.2 % (den * Nat.pow 10 g.1)
  if 2 * r < den * Nat.pow 10 g.1 then low
  else if 2 * r = den * Nat.pow 10 g.1 then (if low.digits % 2 = 0 then low else high)
  else high

def withDigits? (x : Binary64) (n : Nat) : Option Scaled :=
  let num := x.toQuotient.1
  let den := x.toQuotient.2
  let g := grid (leadingPlace num den) n
  match neighbours num den g with
  | (low, high) =>
    let lowHolds := x.holds low.toQuotient.1 low.toQuotient.2
    let highHolds := x.holds high.toQuotient.1 high.toQuotient.2
    if lowHolds && highHolds then some (nearer num den g low high)
    else if lowHolds then some low
    else if highHolds then some high
    else none

def shortest (x : Binary64) : Scaled :=
  ((List.range' 1 17).findSome? (withDigits? x)).getD ⟨0, 0, 0⟩

/-- The text of a shortest decimal: plain from five places behind the point to sixteen before it,
with at least one digit behind the point, and otherwise with an exponent, whose sign is always
written. -/
def render (d : Scaled) : String :=
  let all := Nat.toDigits 10 d.digits
  let digits := (all.reverse.dropWhile (· == '0')).reverse
  let exponent : Int := (d.up : Int) - d.down + all.length - 1
  if exponent < -5 ∨ 15 < exponent then
    let fraction := if digits.length ≤ 1 then [] else '.' :: digits.drop 1
    String.ofList (digits.take 1 ++ fraction ++ 'e' :: (if exponent < 0 then '-' else '+') ::
      Nat.toDigits 10 exponent.natAbs)
  else if exponent < 0 then
    String.ofList ('0' :: '.' :: (List.replicate (exponent.natAbs - 1) '0' ++ digits))
  else
    let places := exponent.toNat + 1
    let whole := digits.take places ++ List.replicate (places - digits.length) '0'
    let fraction := if digits.length ≤ places then ['0'] else digits.drop places
    String.ofList (whole ++ '.' :: fraction)

def Binary64.toText (x : Binary64) : String :=
  if x.mantissa = 0 then "0.0" else render (shortest x)

end WireBench.Decimal
