import WireBench.Bytes
import WireBench.Text.Numeral
import WireBench.Text.Split

/-!
# Addresses

Internet addresses of both families and the socket addresses that add a port. The written form is
the canonical one: the longest run of zero groups is shortened, and an address of the older family
inside one of the newer is written with dots.
-/

namespace WireBench.Net

open WireBench.Text

structure Ipv4 where
  a : UInt8
  b : UInt8
  c : UInt8
  d : UInt8
  deriving DecidableEq, Repr

/-- An address of the newer family: eight groups of sixteen bits. -/
structure Ipv6 where
  groups : List UInt16
  length_groups : groups.length = 8 := by decide
  deriving DecidableEq

inductive IpAddress where
  | v4 (ip : Ipv4)
  | v6 (ip : Ipv6)
  deriving DecidableEq

/-- An address with a port; in the newer family the scope says which link is meant, zero if any. -/
inductive SocketAddress where
  | v4 (ip : Ipv4) (port : UInt16)
  | v6 (ip : Ipv6) (port : UInt16) (scope : UInt32)
  deriving DecidableEq

namespace Ipv4

def unspecified : Ipv4 := ⟨0, 0, 0, 0⟩

def localhost : Ipv4 := ⟨127, 0, 0, 1⟩

def toText (ip : Ipv4) : String :=
  toString ip.a.toNat ++ "." ++ toString ip.b.toNat ++ "." ++ toString ip.c.toNat ++ "." ++
    toString ip.d.toNat

def isMulticast (ip : Ipv4) : Bool :=
  224 ≤ ip.a.toNat && ip.a.toNat ≤ 239

def isLoopback (ip : Ipv4) : Bool :=
  ip.a == 127

def isBroadcast (ip : Ipv4) : Bool :=
  ip == ⟨255, 255, 255, 255⟩

/-- Reads one number of an address: at most three digits, and no zero before another digit. -/
def readOctet? (cs : List Char) : Option UInt8 :=
  if cs.length = 0 ∨ 3 < cs.length ∨ (1 < cs.length ∧ cs.head? = some '0') then none
  else match Numeral.readDigits 255 0 cs with
    | .ok n => some (UInt8.ofNat n)
    | .error _ => none

def ofChars? (cs : List Char) : Option Ipv4 :=
  match (splitWhere (· == '.') cs).map readOctet? with
  | [some a, some b, some c, some d] => some ⟨a, b, c, d⟩
  | _ => none

end Ipv4

namespace Ipv6

def unspecified : Ipv6 := { groups := [0, 0, 0, 0, 0, 0, 0, 0] }

def localhost : Ipv6 := { groups := [0, 0, 0, 0, 0, 0, 0, 1] }

def isMulticast (ip : Ipv6) : Bool :=
  match ip.groups with
  | g :: _ => 0xFF00 ≤ g.toNat
  | [] => false

def isLinkLocal (ip : Ipv6) : Bool :=
  match ip.groups with
  | g :: _ => 0xFE80 ≤ g.toNat && g.toNat ≤ 0xFEBF
  | [] => false

/-- The address of the older family that the address stands for, if it does. -/
def mapped? (ip : Ipv6) : Option Ipv4 :=
  match ip.groups with
  | [0, 0, 0, 0, 0, 0xFFFF, g, h] =>
    some ⟨UInt8.ofNat (g.toNat / 256), UInt8.ofNat (g.toNat % 256), UInt8.ofNat (h.toNat / 256),
      UInt8.ofNat (h.toNat % 256)⟩
  | _ => none

def groupText (g : UInt16) : String :=
  String.ofList (Nat.toDigits 16 g.toNat)

def groupsText (gs : List UInt16) : String :=
  String.intercalate ":" (gs.map groupText)

def zeroRun (gs : List UInt16) : Nat :=
  (gs.takeWhile (· == 0)).length

/-- Where the longest run of zero groups starts and how long it is, the first of equally long ones;
`i` is the place of the first group. -/
def longestZeroRun (i : Nat) : List UInt16 → Nat × Nat
  | [] => (i, 0)
  | g :: gs =>
    if (longestZeroRun (i + 1) gs).2 ≤ zeroRun (g :: gs) then (i, zeroRun (g :: gs))
    else longestZeroRun (i + 1) gs

def toText (ip : Ipv6) : String :=
  match ip.mapped? with
  | some v4 => "::ffff:" ++ v4.toText
  | none =>
    match longestZeroRun 0 ip.groups with
    | (start, size) =>
      if 1 < size then
        groupsText (ip.groups.take start) ++ "::" ++ groupsText (ip.groups.drop (start + size))
      else groupsText ip.groups

/-- Reads one group: one to four hexadecimal digits. -/
def readGroup? (cs : List Char) : Option UInt16 :=
  if cs.length = 0 ∨ 4 < cs.length then none
  else (cs.mapM hexDigit?).map fun ds => UInt16.ofNat (ds.foldl (fun v d => v * 16 + d) 0)

/-- Reads groups with colons between them. The empty text holds no group; where `dotted` allows
it, the last two groups may be written as an address of the older family. -/
def readGroups? (dotted : Bool) (cs : List Char) : Option (List UInt16) :=
  if cs.isEmpty then some []
  else
    let pieces := splitWhere (· == ':') cs
    match (if dotted then Ipv4.ofChars? (pieces.getLastD []) else none) with
    | some ip =>
      (pieces.dropLast.mapM readGroup?).map fun gs =>
        gs ++ [UInt16.ofNat (ip.a.toNat * 256 + ip.b.toNat),
          UInt16.ofNat (ip.c.toNat * 256 + ip.d.toNat)]
    | none => pieces.mapM readGroup?

def cutDoubleColon? : List Char → Option (List Char × List Char)
  | [] => none
  | c :: cs =>
    match c, cs with
    | ':', ':' :: after => some ([], after)
    | _, _ => (cutDoubleColon? cs).map fun (before, after) => (c :: before, after)

def ofGroups? (gs : List UInt16) : Option Ipv6 :=
  if h : gs.length = 8 then some ⟨gs, h⟩ else none

/-- Reads an address. Two colons in a row stand for at least one group of zeros. -/
def ofChars? (cs : List Char) : Option Ipv6 :=
  match cutDoubleColon? cs with
  | none => (readGroups? true cs).bind ofGroups?
  | some (before, after) =>
    match readGroups? false before, readGroups? true after with
    | some front, some back =>
      if front.length + back.length ≤ 7 then
        ofGroups? (front ++ List.replicate (8 - (front.length + back.length)) 0 ++ back)
      else none
    | _, _ => none

end Ipv6

namespace IpAddress

def toText : IpAddress → String
  | .v4 ip => ip.toText
  | .v6 ip => ip.toText

def isMulticast : IpAddress → Bool
  | .v4 ip => ip.isMulticast
  | .v6 ip => ip.isMulticast

def ofText? (s : String) : Option IpAddress :=
  match Ipv4.ofChars? s.toList with
  | some ip => some (.v4 ip)
  | none => (Ipv6.ofChars? s.toList).map .v6

end IpAddress

namespace SocketAddress

def ofIp (ip : IpAddress) (port : UInt16) : SocketAddress :=
  match ip with
  | .v4 ip => .v4 ip port
  | .v6 ip => .v6 ip port 0

def ip : SocketAddress → IpAddress
  | .v4 ip _ => .v4 ip
  | .v6 ip _ _ => .v6 ip

def port : SocketAddress → UInt16
  | .v4 _ port => port
  | .v6 _ port _ => port

def withPort (address : SocketAddress) (port : UInt16) : SocketAddress :=
  match address with
  | .v4 ip _ => .v4 ip port
  | .v6 ip _ scope => .v6 ip port scope

def scopeText (scope : UInt32) : String :=
  if scope = 0 then "" else "%" ++ toString scope.toNat

def toText : SocketAddress → String
  | .v4 ip port => ip.toText ++ ":" ++ toString port.toNat
  | .v6 ip port scope => "[" ++ ip.toText ++ scopeText scope ++ "]:" ++ toString port.toNat

/-- Reads digits of a value within a limit; zeros may stand before them. -/
def readNumber? (limit : Nat) (cs : List Char) : Option Nat :=
  if cs.isEmpty then none
  else match Numeral.readDigits limit 0 cs with
    | .ok n => some n
    | .error _ => none

def readBracketed? (cs : List Char) : Option (Ipv6 × UInt32) :=
  match cutWhere (· == '%') cs with
  | none => (Ipv6.ofChars? cs).map fun ip => (ip, 0)
  | some (address, scope) =>
    match Ipv6.ofChars? address, readNumber? Numeral.wordLimit scope with
    | some ip, some n => some (ip, UInt32.ofNat n)
    | _, _ => none

/-- Reads a socket address of the newer family, whose address stands in brackets. -/
def readV6? (cs : List Char) : Option SocketAddress :=
  match cs with
  | '[' :: cs =>
    match cutWhere (· == ']') cs with
    | some (inside, ':' :: port) =>
      match readBracketed? inside, readNumber? Numeral.portLimit port with
      | some (ip, scope), some n => some (.v6 ip (UInt16.ofNat n) scope)
      | _, _ => none
    | _ => none
  | _ => none

def readV4? (cs : List Char) : Option SocketAddress :=
  match cutWhere (· == ':') cs with
  | some (address, port) =>
    match Ipv4.ofChars? address, readNumber? Numeral.portLimit port with
    | some ip, some n => some (.v4 ip (UInt16.ofNat n))
    | _, _ => none
  | none => none

def ofText? (s : String) : Option SocketAddress :=
  match readV4? s.toList with
  | some address => some address
  | none => readV6? s.toList

end SocketAddress

end WireBench.Net
