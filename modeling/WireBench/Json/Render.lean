import WireBench.Json.Value
import WireBench.Json.Number
import WireBench.Text.Utf8

/-!
# Writing JSON

A value is written over several lines, two spaces for every level of nesting, and an empty container
in one piece. In a text only the quote, the backslash and the control characters are escaped.
-/

namespace WireBench.Json

def unicodeEscape (c : Char) : List Char :=
  ['\\', 'u', '0', '0', Bytes.hexDigit (c.toNat / 16), Bytes.hexDigit (c.toNat % 16)]

def escapeChar (c : Char) : List Char :=
  if c = '"' then ['\\', '"']
  else if c = '\\' then ['\\', '\\']
  else if c.toNat < 0x20 then
    if c.toNat = 8 then ['\\', 'b']
    else if c.toNat = 12 then ['\\', 'f']
    else if c = '\n' then ['\\', 'n']
    else if c = '\r' then ['\\', 'r']
    else if c = '\t' then ['\\', 't']
    else unicodeEscape c
  else [c]

def quote (s : String) : List Char :=
  '"' :: (s.toList.flatMap escapeChar ++ ['"'])

def newline (level : Nat) : List Char :=
  '\n' :: List.replicate (2 * level) ' '

mutual

def Value.render (level : Nat) : Value → List Char
  | .null => ['n', 'u', 'l', 'l']
  | .bool true => ['t', 'r', 'u', 'e']
  | .bool false => ['f', 'a', 'l', 's', 'e']
  | .number n => n.toText.toList
  | .text s => quote s
  | .array [] => ['[', ']']
  | .array (v :: vs) =>
    '[' :: (newline (level + 1) ++ (Value.render (level + 1) v ++
      (renderElements (level + 1) vs ++ (newline level ++ [']']))))
  | .object [] => ['\x7b', '\x7d']
  | .object ((name, v) :: ms) =>
    '\x7b' :: (newline (level + 1) ++ (quote name ++ (':' :: ' ' :: (Value.render (level + 1) v ++
      (renderMembers (level + 1) ms ++ (newline level ++ ['\x7d']))))))

/-- Elements after the first, each behind a comma. -/
def renderElements (level : Nat) : List Value → List Char
  | [] => []
  | v :: vs =>
    ',' :: (newline level ++ (Value.render level v ++ renderElements level vs))

def renderMembers (level : Nat) : List (String × Value) → List Char
  | [] => []
  | (name, v) :: ms =>
    ',' :: (newline level ++ (quote name ++ (':' :: ' ' :: (Value.render level v ++
      renderMembers level ms))))

end

def Value.toBytes (value : Value) : Bytes :=
  Utf8.encodeChars (value.render 0)

end WireBench.Json
