import WireBench.Text.Digit

/-!
# Bounded decimal numerals

A numeral is an optional plus sign and at least one ASCII digit. It is read from left to right
against a limit; the first character that is no digit, or the first digit that exceeds the limit,
decides the error.
-/

namespace WireBench

/-- Why a text is no numeral within its limit. -/
inductive NumeralError where
  | empty
  | invalidDigit
  | tooLarge
  deriving DecidableEq, Repr

def NumeralError.message : NumeralError → String
  | .empty => "cannot parse integer from empty string"
  | .invalidDigit => "invalid digit found in string"
  | .tooLarge => "number too large to fit in target type"

namespace Numeral

def readDigits (limit : Nat) : Nat → List Char → Except NumeralError Nat
  | value, [] => .ok value
  | value, c :: cs =>
    match Text.digit? c with
    | none => .error .invalidDigit
    | some d =>
      if limit < value * 10 + d then .error .tooLarge else readDigits limit (value * 10 + d) cs

/-- Reads a numeral of value at most `limit`. A lone sign is an invalid digit. -/
def read (limit : Nat) (s : String) : Except NumeralError Nat :=
  match s.toList with
  | [] => .error .empty
  | ['+'] => .error .invalidDigit
  | '+' :: cs => readDigits limit 0 cs
  | cs => readDigits limit 0 cs

def readDecimal? (s : String) : Option Nat :=
  if s.isEmpty then none
  else s.toList.foldlM (fun value c => (Text.digit? c).map fun d => value * 10 + d) 0

def portLimit : Nat := 65535

def wordLimit : Nat := 4294967295

def sizeLimit : Nat := 18446744073709551615

end Numeral

end WireBench
