import WireBench.Json.Parse

/-!
# The grammar of JSON

What JSON texts are, said without reading them: how tokens are spelled and may follow each other,
and which tokens make up which value. A character between quotes has several spellings, gaps may
stand around every token, the members of an object may come in any order, and of members with the
same name the last one counts.
-/

namespace WireBench.Json

/-! ### Texts -/

/-- What may follow a backslash, with the character that both stand for. -/
def shortEscapes : List (Char × Char) := [
  ('"', '"'), ('\\', '\\'), ('/', '/'), ('b', Char.ofNat 8), ('f', Char.ofNat 12), ('n', '\n'),
  ('r', '\r'), ('t', '\t')]

/-- The spellings of a character between quotes: itself, unless it is a quote, a backslash or a
control character; a short escape; its number in four hexadecimal digits; or a pair of such numbers,
for a character beyond them. -/
inductive CharSpelling : Char → List Char → Prop where
  | plain {c : Char} : 0x20 ≤ c.toNat → c ≠ '"' → c ≠ '\\' → CharSpelling c [c]
  | short {c e : Char} : (e, c) ∈ shortEscapes → CharSpelling c ['\\', e]
  | number {w x y z : Char} {n : Nat} : Token.hexFour? w x y z = some n →
    ¬ (0xD800 ≤ n ∧ n ≤ 0xDFFF) → CharSpelling (Char.ofNat n) ['\\', 'u', w, x, y, z]
  | pair {w x y z w' x' y' z' : Char} {high low : Nat} : Token.hexFour? w x y z = some high →
    0xD800 ≤ high → high ≤ 0xDBFF → Token.hexFour? w' x' y' z' = some low →
    0xDC00 ≤ low → low ≤ 0xDFFF →
    CharSpelling (Char.ofNat (0x10000 + (high - 0xD800) * 0x400 + (low - 0xDC00)))
      ['\\', 'u', w, x, y, z, '\\', 'u', w', x', y', z']

inductive TextSpelling : List Char → List Char → Prop where
  | nil : TextSpelling [] []
  | cons {c : Char} {s spelling cs : List Char} : CharSpelling c spelling → TextSpelling s cs →
    TextSpelling (c :: s) (spelling ++ cs)

/-! ### Numbers -/

def IsDigits (ds : List Nat) : Prop :=
  ∀ d ∈ ds, d < 10

def digitChars (ds : List Nat) : List Char :=
  ds.map Nat.digitChar

inductive FractionSpelling : Option (List Nat) → List Char → Prop where
  | absent : FractionSpelling none []
  | digits {ds : List Nat} : IsDigits ds → ds ≠ [] →
    FractionSpelling (some ds) ('.' :: digitChars ds)

/-- The spellings of a sign, true for minus; a plus sign need not be written. -/
inductive SignSpelling : Bool → List Char → Prop where
  | absent : SignSpelling false []
  | plus : SignSpelling false ['+']
  | minus : SignSpelling true ['-']

inductive ExponentSpelling : Option (Bool × List Nat) → List Char → Prop where
  | absent : ExponentSpelling none []
  | digits {e : Char} {minus : Bool} {sign : List Char} {ds : List Nat} : e = 'e' ∨ e = 'E' →
    SignSpelling minus sign → IsDigits ds → ds ≠ [] →
    ExponentSpelling (some (minus, ds)) (e :: (sign ++ digitChars ds))

/-- The spellings of a number without its sign. Only a lone zero may start with a zero. -/
inductive MagnitudeSpelling (numeral : Numeral) : List Char → Prop where
  | digits {fraction exponent : List Char} : IsDigits numeral.whole → numeral.whole ≠ [] →
    ¬ (numeral.whole.head? = some 0 ∧ 1 < numeral.whole.length) →
    FractionSpelling numeral.fraction fraction → ExponentSpelling numeral.exponent exponent →
    MagnitudeSpelling numeral (digitChars numeral.whole ++ (fraction ++ exponent))

/-! ### Tokens -/

inductive TokenSpelling : Token → List Char → Prop where
  | openArray : TokenSpelling .openArray ['[']
  | closeArray : TokenSpelling .closeArray [']']
  | openObject : TokenSpelling .openObject ['\x7b']
  | closeObject : TokenSpelling .closeObject ['\x7d']
  | colon : TokenSpelling .colon [':']
  | comma : TokenSpelling .comma [',']
  | nullWord : TokenSpelling .null ['n', 'u', 'l', 'l']
  | trueWord : TokenSpelling (.bool true) ['t', 'r', 'u', 'e']
  | falseWord : TokenSpelling (.bool false) ['f', 'a', 'l', 's', 'e']
  | text {s : String} {cs : List Char} : TextSpelling s.toList cs →
    TokenSpelling (.text s) ('"' :: (cs ++ ['"']))
  | positive {numeral : Numeral} {n : Number} {cs : List Char} : numeral.minus = false →
    MagnitudeSpelling numeral cs → numeral.value? = some n → TokenSpelling (.number n) cs
  | negative {numeral : Numeral} {n : Number} {cs : List Char} : numeral.minus = true →
    MagnitudeSpelling numeral cs → numeral.value? = some n → TokenSpelling (.number n) ('-' :: cs)

def goesOn (c : Char) : Bool :=
  c.isDigit || c == '.' || c == 'e' || c == 'E'

def EndsNumber (rest : List Char) : Prop :=
  ∀ c ∈ rest.head?, goesOn c = false

/-- A text is some tokens, with gaps anywhere between them. A number is as long as it can be. -/
inductive Spelled : List Token → List Char → Prop where
  | nil : Spelled [] []
  | gap {c : Char} {ts : List Token} {cs : List Char} : Token.isGap c = true → Spelled ts cs →
    Spelled ts (c :: cs)
  | token {t : Token} {ts : List Token} {spelling cs : List Char} : TokenSpelling t spelling →
    (∀ n, t = .number n → EndsNumber cs) → Spelled ts cs →
    Spelled (t :: ts) (spelling ++ cs)

/-! ### Values -/

mutual

/-- The tokens of a value in which at most so many containers stand inside each other. -/
inductive Written : Nat → Value → List Token → Prop where
  | null {room : Nat} : Written room .null [.null]
  | bool {room : Nat} {b : Bool} : Written room (.bool b) [.bool b]
  | number {room : Nat} {n : Number} : Written room (.number n) [.number n]
  | text {room : Nat} {s : String} : Written room (.text s) [.text s]
  | emptyArray {room : Nat} : Written (room + 1) (.array []) [.openArray, .closeArray]
  | array {room : Nat} {vs : List Value} {v : Value} {ts us : List Token} :
    ElementsWritten room vs ts → Written room v us →
    Written (room + 1) (.array (vs ++ [v])) (.openArray :: (ts ++ (us ++ [.closeArray])))
  | emptyObject {room : Nat} : Written (room + 1) (.object []) [.openObject, .closeObject]
  | object {room : Nat} {ms : List (String × Value)} {name : String} {v : Value}
      {ts us : List Token} : MembersWritten room ms ts → Written room v us →
    Written (room + 1) (.ofMembers (ms ++ [(name, v)]))
      (.openObject :: (ts ++ (.text name :: .colon :: (us ++ [.closeObject]))))

/-- The tokens of values that are each followed by a comma. -/
inductive ElementsWritten : Nat → List Value → List Token → Prop where
  | none {room : Nat} : ElementsWritten room [] []
  | more {room : Nat} {vs : List Value} {v : Value} {ts us : List Token} :
    ElementsWritten room vs ts → Written room v us →
    ElementsWritten room (vs ++ [v]) (ts ++ (us ++ [.comma]))

inductive MembersWritten : Nat → List (String × Value) → List Token → Prop where
  | none {room : Nat} : MembersWritten room [] []
  | more {room : Nat} {ms : List (String × Value)} {name : String} {v : Value}
      {ts us : List Token} : MembersWritten room ms ts → Written room v us →
    MembersWritten room (ms ++ [(name, v)])
      (ts ++ (.text name :: .colon :: (us ++ [.comma])))

end

/-- Some bytes are a JSON text of a value: they encode characters that spell its tokens, and not too
many containers stand inside each other. -/
def IsText (bs : Bytes) (v : Value) : Prop :=
  ∃ cs ts, bs = Utf8.encodeChars cs ∧ Spelled ts cs ∧ Written Expecting.depthLimit v ts

end WireBench.Json
