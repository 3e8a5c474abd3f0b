import WireBench.Text.Split
import WireBench.Text.Utf8

/-!
# Query strings

A query string is a list of pairs joined by ampersands, a pair is a key and a value joined by an
equals sign, and both are percent-encoded with plus signs for spaces.
-/

namespace WireBench.Http.Query

def plus : UInt8 := 43

def percent : UInt8 := 37

def escaped? (high low : UInt8) : Option UInt8 :=
  match Bytes.hexValue? high, Bytes.hexValue? low with
  | some h, some l => some (h * 16 + l)
  | _, _ => none

/-- Resolves plus signs and escapes after the bytes `done`, which are in reverse. A percent sign
without two hexadecimal digits stands for itself. -/
def unescapeFrom (done : Bytes) : Bytes → Bytes
  | [] => done.reverse
  | [b] => ((if b = plus then Bytes.space else b) :: done).reverse
  | [b, b'] =>
    ((if b' = plus then Bytes.space else b') :: (if b = plus then Bytes.space else b) :: done).reverse
  | b :: high :: low :: bs =>
    if b = percent then
      match escaped? high low with
      | some e => unescapeFrom (e :: done) bs
      | none => unescapeFrom (b :: done) (high :: low :: bs)
    else unescapeFrom ((if b = plus then Bytes.space else b) :: done) (high :: low :: bs)

/-- A percent-encoded text read; one whose escapes do not make up a text is left as it is. -/
def decode (s : String) : String :=
  (Utf8.decode? (unescapeFrom [] (Utf8.encode s))).getD s

/-- The key and the value of one pair, still encoded; a pair without an equals sign has the empty
value. -/
def keyValue (pair : List Char) : String × String :=
  match Text.cutWhere (· == '=') pair with
  | some (key, value) => (String.ofList key, String.ofList value)
  | none => (String.ofList pair, "")

def param? (query name : String) : Option String :=
  ((Text.splitWhere (· == '&') query.toList).map keyValue).findSome? fun pair =>
    if decode pair.1 = name then some (decode pair.2) else none

end WireBench.Http.Query
