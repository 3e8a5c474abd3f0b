import WireBench.Http.Query
import WireBench.Text.LetterCase

/-!
# Spellings of query strings

The ways in which keys and values may be written in a query string: every character literally where
it has no meaning of its own, or as escapes of all its bytes, or a space as a plus sign.
-/

namespace WireBench.Http.Query

def hexDigits (n : Nat) : List Char :=
  [Bytes.hexDigit n, Text.asciiUpper (Bytes.hexDigit n)]

inductive HexSpelling : UInt8 → List Char → Prop where
  | digits {b : UInt8} {high low : Char} :
    high ∈ hexDigits (b.toNat / 16) → low ∈ hexDigits (b.toNat % 16) → HexSpelling b [high, low]

inductive EscapeSpelling : Bytes → List Char → Prop where
  | nil : EscapeSpelling [] []
  | cons {b : UInt8} {bs : Bytes} {digits cs : List Char} :
    HexSpelling b digits → EscapeSpelling bs cs →
    EscapeSpelling (b :: bs) ('%' :: (digits ++ cs))

/-- The ways to write a character; an equals sign stands for itself in a value only. -/
inductive CharSpelling (inKey : Bool) : Char → List Char → Prop where
  | literal {c : Char} :
    c ≠ '%' → c ≠ '+' → c ≠ '&' → (inKey = true → c ≠ '=') → CharSpelling inKey c [c]
  | escapes {c : Char} {cs : List Char} :
    EscapeSpelling (Utf8.encodeChar c) cs → CharSpelling inKey c cs
  | plus : CharSpelling inKey ' ' ['+']

inductive TextSpelling (inKey : Bool) : List Char → List Char → Prop where
  | nil : TextSpelling inKey [] []
  | cons {c : Char} {cs one more : List Char} :
    CharSpelling inKey c one → TextSpelling inKey cs more →
    TextSpelling inKey (c :: cs) (one ++ more)

/-- The ways to write a pair of a key and a value; an empty value needs no equals sign. -/
inductive PairSpelling : String × String → List Char → Prop where
  | bare {key : String} {cs : List Char} :
    TextSpelling true key.toList cs → PairSpelling (key, "") cs
  | full {key value : String} {ks vs : List Char} :
    TextSpelling true key.toList ks → TextSpelling false value.toList vs →
    PairSpelling (key, value) (ks ++ '=' :: vs)

inductive PairsSpelling : List (String × String) → List Char → Prop where
  | one {pair : String × String} {cs : List Char} :
    PairSpelling pair cs → PairsSpelling [pair] cs
  | cons {pair : String × String} {pairs : List (String × String)} {cs more : List Char} :
    PairSpelling pair cs → PairsSpelling pairs more →
    PairsSpelling (pair :: pairs) (cs ++ '&' :: more)

end WireBench.Http.Query
