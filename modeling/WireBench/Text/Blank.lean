import WireBench.Text.Split

/-!
# Blank characters

The characters with the Unicode property White_Space, trimming of them, and the words between them.
-/

namespace WireBench.Text

/-- The property White_Space. The zero-width space, the byte order mark and the information
separators do not have it. -/
def isBlank (c : Char) : Bool :=
  let n := c.toNat
  (9 ≤ n && n ≤ 13) || n == 0x20 || n == 0x85 || n == 0xA0 || n == 0x1680 ||
    (0x2000 ≤ n && n ≤ 0x200A) || n == 0x2028 || n == 0x2029 || n == 0x202F || n == 0x205F ||
    n == 0x3000

def dropBlankEnd (cs : List Char) : List Char :=
  (cs.reverse.dropWhile isBlank).reverse

def trimEnd (s : String) : String :=
  String.ofList (dropBlankEnd s.toList)

def trim (s : String) : String :=
  String.ofList (dropBlankEnd (s.toList.dropWhile isBlank))

/-- The maximal runs of characters that are not blank, in order. -/
def words (s : String) : List String :=
  ((splitWhere isBlank s.toList).filter (fun piece => !piece.isEmpty)).map String.ofList

end WireBench.Text
