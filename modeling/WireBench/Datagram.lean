import WireBench.Net.Network
import WireBench.Text.LetterCase

/-!
# Datagrams

A datagram goes to one receiver, to all of a link or to a group. How it is addressed decides which
socket is opened for it, and whether the target fits is checked before anything is sent.
-/

namespace WireBench

open WireBench.Net

/-- How a datagram is addressed; in a group, how many steps it may take. -/
inductive Delivery where
  | unicast
  | broadcast
  | multicast (hops : Nat)
  deriving DecidableEq, Repr

namespace Delivery

def defaultHops : Nat := 1

def ofText? (word : String) : Option Delivery :=
  match Text.lowercase word with
  | "unicast" => some .unicast
  | "broadcast" => some .broadcast
  | "multicast" => some (.multicast defaultHops)
  | _ => none

def unknownMessage (word : String) : String :=
  "Unknown delivery mode: " ++ word

def toText : Delivery → String
  | .unicast => "unicast"
  | .broadcast => "broadcast"
  | .multicast hops => "multicast (ttl " ++ toString hops ++ ")"

def withHops (delivery : Delivery) (hops : Nat) : Delivery :=
  match delivery with
  | .multicast _ => .multicast hops
  | mode => mode

end Delivery

inductive DatagramError where
  | broadcastIsV4
  | notMulticast (ip : IpAddress)
  | hops (ip : IpAddress) (error : SystemError)
  | send (target : SocketAddress) (error : SystemError)
  deriving DecidableEq

def DatagramError.message : DatagramError → String
  | .broadcastIsV4 => "Broadcast is IPv4 only; use multicast for IPv6"
  | .notMulticast ip => ip.toText ++ " is not a multicast address"
  | .hops (.v4 _) error => "Failed to set multicast TTL: " ++ error.message
  | .hops (.v6 _) error => "Failed to set multicast hop limit: " ++ error.message
  | .send target error =>
    "Failed to send datagram to " ++ target.toText ++ ": " ++ error.message

/-- A socket from which datagrams are sent: its own address, whether it may address a whole link,
and how many steps its datagrams to a group may take. -/
structure DatagramSocket where
  localIp : IpAddress
  broadcast : Bool
  hops : Nat
  deriving DecidableEq

structure Datagram where
  target : SocketAddress
  payload : Bytes
  deriving DecidableEq

namespace Datagram

def anyIp : IpAddress → IpAddress
  | .v4 _ => .v4 .unspecified
  | .v6 _ => .v6 .unspecified

/-- Opens a socket for datagrams to a target. Only the older family knows datagrams to a whole link,
and a group must have the address of one. -/
def openSocket (network : Network) (target : SocketAddress) (delivery : Delivery) :
    Except DatagramError DatagramSocket :=
  let ip := target.ip
  match delivery, ip with
  | .unicast, _ => .ok ⟨anyIp ip, false, Delivery.defaultHops⟩
  | .broadcast, .v4 _ => .ok ⟨anyIp ip, true, Delivery.defaultHops⟩
  | .broadcast, .v6 _ => .error .broadcastIsV4
  | .multicast hops, ip =>
    if ip.isMulticast then
      match network.setHops hops with
      | some e => .error (.hops ip e)
      | none => .ok ⟨anyIp ip, false, effectiveHops hops⟩
    else .error (.notMulticast ip)

def send (network : Network) (target : SocketAddress) (delivery : Delivery) (payload : Bytes) :
    Except DatagramError Datagram :=
  match openSocket network target delivery with
  | .error e => .error e
  | .ok _ =>
    match network.send target payload.length with
    | some e => .error (.send target e)
    | none => .ok ⟨target, payload⟩

end Datagram

end WireBench
