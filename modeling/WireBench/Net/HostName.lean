import WireBench.Net.Address
import WireBench.Text.LetterCase
import WireBench.Text.Utf8

/-!
# Host names

What may stand for a host in an endpoint: an address of the older family in one to four numbers, an
address of the newer one with the link on which it is valid, or a name about which somebody has to
be asked. `lookupAlone` says what is known where nobody can be asked.
-/

namespace WireBench.Net

open WireBench.Text

inductive EndpointError where
  | noPort
  | badPort
  | nul
  | unknownName
  | noAnswer
  deriving DecidableEq, Repr

def EndpointError.message : EndpointError → String
  | .noPort => "invalid socket address"
  | .badPort => "invalid port value"
  | .nul => "file name contained an unexpected NUL byte"
  | .unknownName => "failed to lookup address information: Name or service not known"
  | .noAnswer => "failed to lookup address information: Temporary failure in name resolution"

/-- Reads digits of some base, at most sixteen; at least one is needed. -/
def readBase? (base : Nat) (cs : List Char) : Option Nat :=
  if cs.isEmpty then none
  else (cs.mapM fun c => (hexDigit? c).filter (· < base)).map fun digits =>
    digits.foldl (fun value digit => value * base + digit) 0

/-- Reads a number that is hexadecimal after `0x`, octal after another zero and decimal otherwise. -/
def readAnyBase? : List Char → Option Nat
  | '0' :: 'x' :: digits => readBase? 16 digits
  | '0' :: 'X' :: digits => readBase? 16 digits
  | '0' :: digit :: digits => readBase? 8 (digit :: digits)
  | digits => readBase? 10 digits

namespace Ipv4

def ofNat (n : Nat) : Ipv4 :=
  ⟨UInt8.ofNat (n / 16777216), UInt8.ofNat (n / 65536), UInt8.ofNat (n / 256), UInt8.ofNat n⟩

/-- Reads an address of one to four numbers with dots between them. Each number is one byte, but the
last one stands for all bytes that remain. -/
def ofNumbers? (cs : List Char) : Option Ipv4 :=
  match (splitWhere (· == '.') cs).mapM readAnyBase? with
  | none => none
  | some numbers =>
    let front := numbers.dropLast
    let last := numbers.getLastD 0
    let room := Nat.pow 256 (4 - front.length)
    if 3 < front.length ∨ front.any (255 < ·) ∨ room ≤ last then none
    else some (ofNat (front.foldl (fun value n => value * 256 + n) 0 * room + last))

end Ipv4

def Ipv6.isLinkMulticast (ip : Ipv6) : Bool :=
  match ip.groups with
  | g :: _ => ip.isMulticast && (g.toNat % 16 == 1 || g.toNat % 16 == 2)
  | [] => false

def loopbackScope : UInt32 := 1

/-- Reads the link on which an address is valid: a number, or the name of the link of the machine
itself where the address belongs to one link. -/
def readScope? (ip : Ipv6) (scope : List Char) : Option UInt32 :=
  if (ip.isLinkLocal || ip.isLinkMulticast) && scope == ['l', 'o'] then some loopbackScope
  else (SocketAddress.readNumber? Numeral.wordLimit scope).map UInt32.ofNat

/-- Whether somebody can be asked about a name: it consists of labels of 1 to 63 bytes with dots
between them and perhaps one at the end, 255 bytes in all with one for the length of each label. The
dot alone is such a name. -/
def isAskable (name : String) : Bool :=
  let labels := splitWhere (· == 46) (Utf8.encode name)
  let labels := if labels.getLast? = some [] then labels.dropLast else labels
  labels == [[]] ||
    (!labels.isEmpty && labels.all (fun label => 1 ≤ label.length && label.length ≤ 63) &&
      labels.flatten.length + labels.length < 255)

/-- The address of a host, at port zero, where nobody can be asked: written addresses are known, and
the name of the machine itself in any letter case. -/
def lookupAlone (name : String) : Except EndpointError SocketAddress :=
  match Ipv4.ofNumbers? name.toList with
  | some ip => .ok (.v4 ip 0)
  | none =>
    let (address, scope?) := match cutWhere (· == '%') name.toList with
      | some (address, scope) => (address, some scope)
      | none => (name.toList, none)
    match Ipv6.ofChars? address, scope? with
    | some ip, none => .ok (.v6 ip 0 0)
    | some ip, some scope =>
      match readScope? ip scope with
      | some scope => .ok (.v6 ip 0 scope)
      | none => .error .unknownName
    | none, _ =>
      if asciiLowercase name = "localhost" then .ok (.v4 .localhost 0)
      else if isAskable name && name != "*" then .error .noAnswer
      else .error .unknownName

end WireBench.Net
