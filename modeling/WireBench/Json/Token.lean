import WireBench.Json.Number
import WireBench.Text.Digit

/-!
# Tokens

The tokens of a JSON text: six marks, the three words, texts and numbers, with blanks between them.
A token is as long as it can be; what no token starts with ends the reading.
-/

namespace WireBench.Json

inductive Token where
  | openArray
  | closeArray
  | openObject
  | closeObject
  | colon
  | comma
  | null
  | bool (b : Bool)
  | number (n : Number)
  | text (s : String)
  deriving DecidableEq, Repr

namespace Token

def isGap (c : Char) : Bool :=
  c == ' ' || c == '\n' || c == '\t' || c == '\r'

def hexFour? (a b c d : Char) : Option Nat :=
  match Text.hexDigit? a, Text.hexDigit? b, Text.hexDigit? c, Text.hexDigit? d with
  | some x, some y, some z, some w => some (((x * 16 + y) * 16 + z) * 16 + w)
  | _, _, _, _ => none

def escaped? : Char → Option Char
  | '"' => some '"'
  | '\\' => some '\\'
  | '/' => some '/'
  | 'b' => some (Char.ofNat 8)
  | 'f' => some (Char.ofNat 12)
  | 'n' => some '\n'
  | 'r' => some '\r'
  | 't' => some '\t'
  | _ => none

/-- Reads the rest of a text after the characters `done`, which are in reverse, up to its closing
quote. A pair of surrogates stands for one character, and a surrogate stands nowhere else. -/
def readText (done : List Char) : List Char → Option (String × List Char)
  | [] => none
  | '"' :: cs => some (String.ofList done.reverse, cs)
  | '\\' :: 'u' :: a :: b :: c :: d :: cs =>
    match hexFour? a b c d with
    | none => none
    | some n =>
      if 0xDC00 ≤ n ∧ n ≤ 0xDFFF then none
      else if 0xD800 ≤ n ∧ n ≤ 0xDBFF then
        match cs with
        | '\\' :: 'u' :: a' :: b' :: c' :: d' :: cs' =>
          match hexFour? a' b' c' d' with
          | none => none
          | some m =>
            if 0xDC00 ≤ m ∧ m ≤ 0xDFFF then
              readText (Char.ofNat (0x10000 + (n - 0xD800) * 0x400 + (m - 0xDC00)) :: done) cs'
            else none
        | _ => none
      else readText (Char.ofNat n :: done) cs
  | '\\' :: e :: cs =>
    match escaped? e with
    | none => none
    | some c => readText (c :: done) cs
  | c :: cs => if c.toNat < 0x20 ∨ c = '\\' then none else readText (c :: done) cs

def readDigits (done : List Nat) : List Char → List Nat × List Char
  | [] => (done.reverse, [])
  | c :: cs =>
    match Text.digit? c with
    | some d => readDigits (d :: done) cs
    | none => (done.reverse, c :: cs)

def readSign : List Char → Bool × List Char
  | '+' :: rest => (false, rest)
  | '-' :: rest => (true, rest)
  | rest => (false, rest)

def readExponent (cs : List Char) : Option (Option (Bool × List Nat) × List Char) :=
  match cs with
  | e :: rest =>
    if e = 'e' ∨ e = 'E' then
      match readDigits [] (readSign rest).2 with
      | ([], _) => none
      | (ds, rest') => some (some ((readSign rest).1, ds), rest')
    else some (none, e :: rest)
  | [] => some (none, [])

def readFraction (cs : List Char) : Option (Option (List Nat) × List Char) :=
  match cs with
  | '.' :: rest =>
    match readDigits [] rest with
    | ([], _) => none
    | (ds, rest) => some (some ds, rest)
  | cs => some (none, cs)

/-- Reads a number without its sign. A zero in front is the only digit before the point. -/
def readNumeral (minus : Bool) (cs : List Char) : Option (Number × List Char) :=
  match readDigits [] cs with
  | ([], _) => none
  | (ds, rest) =>
    if ds.head? = some 0 ∧ 1 < ds.length then none
    else match readFraction rest with
      | none => none
      | some (fraction, rest) =>
        match readExponent rest with
        | none => none
        | some (exponent, rest) =>
          (Numeral.value? ⟨minus, ds, fraction, exponent⟩).map fun n => (n, rest)

def read (c : Char) (cs : List Char) : Option (Token × List Char) :=
  match c, cs with
  | '[', cs => some (.openArray, cs)
  | ']', cs => some (.closeArray, cs)
  | '\x7b', cs => some (.openObject, cs)
  | '\x7d', cs => some (.closeObject, cs)
  | ':', cs => some (.colon, cs)
  | ',', cs => some (.comma, cs)
  | '"', cs => (readText [] cs).map fun (s, rest) => (.text s, rest)
  | 'n', 'u' :: 'l' :: 'l' :: cs => some (.null, cs)
  | 't', 'r' :: 'u' :: 'e' :: cs => some (.bool true, cs)
  | 'f', 'a' :: 'l' :: 's' :: 'e' :: cs => some (.bool false, cs)
  | '-', cs => (readNumeral true cs).map fun (n, rest) => (.number n, rest)
  | c, cs => (readNumeral false (c :: cs)).map fun (n, rest) => (.number n, rest)

theorem length_readText {done cs rest : List Char} {s : String}
    (h : readText done cs = some (s, rest)) : rest.length ≤ cs.length := by
  fun_induction readText done cs <;> simp_all <;> omega

theorem length_readDigits (done : List Nat) (cs : List Char) :
    (readDigits done cs).2.length ≤ cs.length := by
  fun_induction readDigits done cs with
  | case1 => exact Nat.le_refl _
  | case2 done c cs d hd ih => exact Nat.le_succ_of_le ih
  | case3 => exact Nat.le_refl _

theorem length_readSign (cs : List Char) : (readSign cs).2.length ≤ cs.length := by
  unfold readSign
  split <;> simp

theorem length_readExponent {cs rest : List Char} {e : Option (Bool × List Nat)}
    (h : readExponent cs = some (e, rest)) : rest.length ≤ cs.length := by
  unfold readExponent at h
  split at h
  · next c cs' =>
    split at h
    · split at h
      · simp at h
      · next ds rest' _ hr =>
        simp only [Option.some.injEq, Prod.mk.injEq] at h
        have h1 := length_readDigits [] (readSign cs').2
        have h2 := length_readSign cs'
        rw [hr] at h1
        simp only [List.length_cons, ← h.2]
        simp only at h1
        omega
    · simp_all
  · simp_all

theorem length_readFraction {cs rest : List Char} {f : Option (List Nat)}
    (h : readFraction cs = some (f, rest)) : rest.length ≤ cs.length := by
  unfold readFraction at h
  split at h
  · next cs' =>
    split at h
    · simp at h
    · next ds rest' _ hr =>
      simp only [Option.some.injEq, Prod.mk.injEq] at h
      have hle := length_readDigits [] cs'
      rw [hr] at hle
      simp only [List.length_cons, ← h.2]
      simp only at hle
      omega
  · simp_all

theorem length_readDigits_lt {cs rest : List Char} {d : Nat} {ds : List Nat}
    (h : readDigits [] cs = (d :: ds, rest)) : rest.length < cs.length := by
  cases cs with
  | nil => simp [readDigits] at h
  | cons c cs =>
    rw [readDigits] at h
    split at h
    · next x _ =>
      have := length_readDigits [x] cs
      rw [h] at this
      simp only [List.length_cons]
      simp only at this
      omega
    · simp at h

theorem length_readNumeral {minus : Bool} {cs rest : List Char} {n : Number}
    (h : readNumeral minus cs = some (n, rest)) : rest.length < cs.length := by
  rw [readNumeral] at h
  split at h
  · simp at h
  · next ds rest1 hne hd =>
    have h1 : rest1.length < cs.length := by
      cases ds with
      | nil => exact absurd rfl hne
      | cons d ds => exact length_readDigits_lt hd
    split at h
    · simp at h
    · split at h
      · simp at h
      · next hf =>
        split at h
        · simp at h
        · next he =>
          have h2 := length_readFraction hf
          have h3 := length_readExponent he
          rw [Option.map_eq_some_iff] at h
          obtain ⟨_, _, h⟩ := h
          simp only [Prod.mk.injEq] at h
          rw [← h.2]
          omega

theorem length_read {c : Char} {cs rest : List Char} {t : Token}
    (h : read c cs = some (t, rest)) : rest.length ≤ cs.length := by
  unfold read at h
  split at h
  case h_7 =>
    simp only [Option.map_eq_some_iff, Prod.mk.injEq, Prod.exists] at h
    obtain ⟨s, r, hr, -, rfl⟩ := h
    exact length_readText hr
  case h_11 =>
    simp only [Option.map_eq_some_iff, Prod.mk.injEq, Prod.exists] at h
    obtain ⟨n, r, hr, -, rfl⟩ := h
    exact Nat.le_of_lt (length_readNumeral hr)
  case h_12 =>
    simp only [Option.map_eq_some_iff, Prod.mk.injEq, Prod.exists] at h
    obtain ⟨n, r, hr, -, rfl⟩ := h
    exact Nat.le_of_lt_succ (length_readNumeral hr)
  all_goals
    simp only [Option.some.injEq, Prod.mk.injEq] at h
    simp only [← h.2, List.length_cons]
    omega

def readAllFrom (done : List Token) : List Char → Option (List Token)
  | [] => some done.reverse
  | c :: cs =>
    if isGap c then readAllFrom done cs
    else
      match _h : read c cs with
      | none => none
      | some (t, rest) => readAllFrom (t :: done) rest
termination_by cs => cs.length
decreasing_by
  · simp
  · exact Nat.lt_succ_of_le (length_read _h)

def readAll (cs : List Char) : Option (List Token) :=
  readAllFrom [] cs

end Token

end WireBench.Json
