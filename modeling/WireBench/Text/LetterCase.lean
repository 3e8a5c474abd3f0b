import WireBench.Text.CaseTable

/-!
# Letter case

Lower case follows the full mapping of Unicode, with one character that grows to two and a sigma
whose form depends on its place in the word. Upper case and case folding are needed only to
recognise words in ASCII, and a single character can stand for one of their letters or for two or
three of them.
-/

namespace WireBench.Text

def inRanges (ranges : List (Nat × Nat)) (c : Char) : Bool :=
  ranges.any fun r => r.1 ≤ c.toNat && c.toNat ≤ r.2

def isCaseIgnorable (c : Char) : Bool :=
  inRanges caseIgnorableRanges c

/-- The property Cased, of characters that are not case-ignorable. -/
def isCased (c : Char) : Bool :=
  inRanges casedRanges c

def lowerChar (c : Char) : List Char :=
  let n := c.toNat
  if n < 0x80 then
    if 0x41 ≤ n ∧ n ≤ 0x5A then [Char.ofNat (n + 0x20)] else [c]
  else if n = 0x130 then ['i', Char.ofNat 0x307]
  else match lowerRanges.find? (·.contains n) with
    | some r => [Char.ofNat (n - r.first + r.image)]
    | none => [c]

/-- Whether the nearest character that is not case-ignorable is cased. -/
def meetsCased (cs : List Char) : Bool :=
  (cs.dropWhile isCaseIgnorable).head?.any isCased

/-- The lower case of a capital sigma between the characters `before`, nearest first, and `after`:
the final form at the end of a word. -/
def lowerSigma (before after : List Char) : Char :=
  if meetsCased before && !meetsCased after then 'ς' else 'σ'

/-- The lower case of the characters that follow `before`, which is nearest first. -/
def lowerAfter (before : List Char) : List Char → List Char
  | [] => []
  | c :: cs =>
    (if c = 'Σ' then [lowerSigma before cs] else lowerChar c) ++ lowerAfter (c :: before) cs

def lowercase (s : String) : String :=
  String.ofList (lowerAfter [] s.toList)

/-- The small ASCII letters that a single character joins, if it joins two or three of them: the
sharp s and the Latin ligatures. -/
def joined? (c : Char) : Option (List Char) :=
  let n := c.toNat
  if n = 0xDF then some ['s', 's']
  else if n = 0xFB00 then some ['f', 'f']
  else if n = 0xFB01 then some ['f', 'i']
  else if n = 0xFB02 then some ['f', 'l']
  else if n = 0xFB03 then some ['f', 'f', 'i']
  else if n = 0xFB04 then some ['f', 'f', 'l']
  else if n = 0xFB05 ∨ n = 0xFB06 then some ['s', 't']
  else none

def asciiUpper (c : Char) : Char :=
  if 0x61 ≤ c.toNat ∧ c.toNat ≤ 0x7A then Char.ofNat (c.toNat - 0x20) else c

/-- The ASCII letters that are the upper case of a character. A character whose upper case is not
made of ASCII letters stands for itself. -/
def capitals (c : Char) : List Char :=
  if c.toNat = 0x131 then ['I']
  else if c.toNat = 0x17F then ['S']
  else match joined? c with
    | some letters => letters.map asciiUpper
    | none => [asciiUpper c]

def inCapitals (s : String) : String :=
  String.ofList (s.toList.flatMap capitals)

def asciiLower (c : Char) : Char :=
  if 0x41 ≤ c.toNat ∧ c.toNat ≤ 0x5A then Char.ofNat (c.toNat + 0x20) else c

def asciiLowercase (s : String) : String :=
  String.ofList (s.toList.map asciiLower)

/-- What full case folding makes of a character, as far as that is ASCII: ASCII in lower case, an s
of the long s, a k of the Kelvin sign, two of either sharp s, the letters of a ligature. Other
characters stand for themselves. -/
def foldedChar (c : Char) : List Char :=
  if c.toNat = 0x17F then ['s']
  else if c.toNat = 0x212A then ['k']
  else if c.toNat = 0x1E9E then ['s', 's']
  else (joined? c).getD [asciiLower c]

def folded (s : String) : String :=
  String.ofList (s.toList.flatMap foldedChar)

end WireBench.Text
