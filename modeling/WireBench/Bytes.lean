/-!
# Byte strings

Everything that crosses a socket or lies in a file is a list of bytes. This module holds the line
ends, the cut of a byte string after its first line and into all its lines, and hexadecimal digits.
-/

namespace WireBench

abbrev Bytes := List UInt8

namespace Bytes

def cr : UInt8 := 13

def lf : UInt8 := 10

def crlf : Bytes := [cr, lf]

def space : UInt8 := 32

/-- The first line with its line feed, and what follows it; a text without line feed is one
line, and nothing follows. -/
def cutLine (bs : Bytes) : Bytes × Bytes :=
  match bs.dropWhile (· != lf) with
  | [] => (bs, [])
  | c :: rest => (bs.takeWhile (· != lf) ++ [c], rest)

def isTerminated (bs : Bytes) : Bool :=
  bs.any (· == lf)

theorem cutLine_append (bs : Bytes) : (cutLine bs).1 ++ (cutLine bs).2 = bs := by
  rw [cutLine]
  split
  · simp
  · next c rest h =>
    have := List.takeWhile_append_dropWhile (p := (· != lf)) (l := bs)
    rw [h] at this
    simpa using this

theorem cutLine_fst_ne_nil {bs : Bytes} (h : bs ≠ []) : (cutLine bs).1 ≠ [] := by
  rw [cutLine]
  split <;> simp [h]

theorem cutLine_snd_length_lt {bs : Bytes} (h : bs ≠ []) :
    (cutLine bs).2.length < bs.length := by
  have hlen := congrArg List.length (cutLine_append bs)
  have hpos := List.length_pos_iff.2 (cutLine_fst_ne_nil h)
  rw [List.length_append] at hlen
  omega

theorem cutLine_snd_length_le (bs : Bytes) : (cutLine bs).2.length ≤ bs.length := by
  have hlen := congrArg List.length (cutLine_append bs)
  rw [List.length_append] at hlen
  omega

/-- The lines of a byte string, each with its line feed if it has one. -/
def lines : Bytes → List Bytes
  | [] => []
  | b :: bs =>
    if b = lf then [b] :: lines bs
    else match lines bs with
      | [] => [[b]]
      | l :: ls => (b :: l) :: ls

theorem flatten_lines (bs : Bytes) : (lines bs).flatten = bs := by
  induction bs with
  | nil => rfl
  | cons b bs ih =>
    rw [lines]
    split
    · simp [ih]
    · split
      · next h => simpa [h] using ih
      · next l ls h =>
        rw [h] at ih
        simpa using ih

theorem cutLine_cons_of_ne {b : UInt8} (h : b ≠ lf) (bs : Bytes) :
    cutLine (b :: bs) = (b :: (cutLine bs).1, (cutLine bs).2) := by
  have hb : (b != lf) = true := by simpa using h
  simp only [cutLine, List.dropWhile_cons, List.takeWhile_cons, hb, ite_true]
  split <;> rfl

theorem lines_of_ne_nil {bs : Bytes} (h : bs ≠ []) :
    lines bs = (cutLine bs).1 :: lines (cutLine bs).2 := by
  induction bs with
  | nil => exact absurd rfl h
  | cons b bs ih =>
    by_cases hb : b = lf
    · subst hb
      simp [lines, cutLine]
    · rw [cutLine_cons_of_ne hb]
      conv => lhs; unfold lines
      rw [if_neg hb]
      cases bs with
      | nil => simp [lines, cutLine]
      | cons c cs => rw [ih (by simp)]

/-- The lower-case hexadecimal digit of a number below sixteen. -/
def hexDigit (n : Nat) : Char :=
  if n < 10 then Char.ofNat (48 + n) else Char.ofNat (87 + n)

def hexPair (b : UInt8) : List Char :=
  [hexDigit (b.toNat / 16), hexDigit (b.toNat % 16)]

def toHex (bs : Bytes) : String :=
  String.ofList (bs.flatMap hexPair)

def hexValue? (b : UInt8) : Option UInt8 :=
  if 48 ≤ b ∧ b ≤ 57 then some (b - 48)
  else if 97 ≤ b ∧ b ≤ 102 then some (b - 87)
  else if 65 ≤ b ∧ b ≤ 70 then some (b - 55)
  else none

end Bytes

end WireBench
