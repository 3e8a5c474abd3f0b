import WireBench.Net.HostName
import WireBench.Transport.Fault

/-!
# Networks

What a network grants and refuses: listening at an address, reaching one, sending a datagram and
setting how far multicast goes. Three networks are described: one that grants everything, a machine
that reaches itself alone, and a machine cut off even from itself.
-/

namespace WireBench.Net

open WireBench.Transport

inductive SystemError where
  | inputOutput
  | noSuchDevice
  | invalidArgument
  | messageTooLong
  | addressInUse
  | addressNotAvailable
  | networkUnreachable
  | connectionRefused
  deriving DecidableEq, Repr

namespace SystemError

def number : SystemError → Nat
  | .inputOutput => 5
  | .noSuchDevice => 19
  | .invalidArgument => 22
  | .messageTooLong => 90
  | .addressInUse => 98
  | .addressNotAvailable => 99
  | .networkUnreachable => 101
  | .connectionRefused => 111

def text : SystemError → String
  | .inputOutput => "Input/output error"
  | .noSuchDevice => "No such device"
  | .invalidArgument => "Invalid argument"
  | .messageTooLong => "Message too long"
  | .addressInUse => "Address already in use"
  | .addressNotAvailable => "Cannot assign requested address"
  | .networkUnreachable => "Network is unreachable"
  | .connectionRefused => "Connection refused"

def message (error : SystemError) : String :=
  error.text ++ " (os error " ++ toString error.number ++ ")"

def kind : SystemError → FaultKind
  | .inputOutput => .other
  | .noSuchDevice => .other
  | .invalidArgument => .invalidInput
  | .messageTooLong => .other
  | .addressInUse => .addressInUse
  | .addressNotAvailable => .addressNotAvailable
  | .networkUnreachable => .networkUnreachable
  | .connectionRefused => .connectionRefused

end SystemError

/-- A network, as far as a program notices: why it refuses to listen at an address, to reach one
(given whether something listens there), to set how far multicast goes, or to send so many bytes;
and the address of a name, at port zero. -/
structure Network where
  bind : SocketAddress → Option SystemError
  connect : SocketAddress → Bool → Option SystemError
  setHops : Nat → Option SystemError
  send : SocketAddress → Nat → Option SystemError
  lookup : String → Except EndpointError SocketAddress

/-- How far multicast may go: up to 255 steps, or as far as it does by default, which is asked for
by the greatest word. -/
def refuseHops (hops : Nat) : Option SystemError :=
  if hops ≤ 255 ∨ hops = Numeral.wordLimit then none else some .invalidArgument

def effectiveHops (hops : Nat) : Nat :=
  if hops = Numeral.wordLimit then 1 else hops

namespace Network

def granting : Network where
  bind _ := none
  connect _ _ := none
  setHops _ := none
  send _ _ := none
  lookup := lookupAlone

/-- A machine that reaches itself at its own addresses and nothing else. -/
def loopback : Network where
  bind
    | .v4 ip _ =>
      if ip.isLoopback || ip == .unspecified || ip.isMulticast || ip.isBroadcast then none
      else some .addressNotAvailable
    | .v6 ip _ scope =>
      if ip == .localhost || ip == .unspecified || ip.mapped?.isSome then none
      else if (ip.isLinkLocal && scope == 0) || ip.isMulticast then some .invalidArgument
      else if ip.isLinkLocal && scope != loopbackScope then some .noSuchDevice
      else some .addressNotAvailable
  connect
    | .v4 ip _, listening =>
      if ip.isLoopback || ip == .unspecified then
        if listening then none else some .connectionRefused
      else some .networkUnreachable
    | .v6 ip _ _, listening =>
      if ip == .localhost || ip == .unspecified || ip.mapped?.any Ipv4.isLoopback then
        if listening then none else some .connectionRefused
      else some .networkUnreachable
  setHops := refuseHops
  send
    | .v4 ip port, size =>
      if port = 0 then some .invalidArgument
      else if 65507 < size then some .messageTooLong
      else if ip.isLoopback || ip == .unspecified then none
      else some .networkUnreachable
    | .v6 ip port _, size =>
      if port = 0 then some .invalidArgument
      else if 65527 < size then some .messageTooLong
      else if ip == .localhost || ip == .unspecified then none
      else some .networkUnreachable
  lookup := lookupAlone

/-- A machine that reaches nothing, not even itself. Listening is granted, and so is sending to no
address in particular. -/
def isolated : Network where
  bind
    | .v4 _ _ => none
    | .v6 ip _ scope =>
      if ip == .unspecified || ip.mapped?.isSome then none
      else if (ip.isLinkLocal && scope == 0) || ip.isMulticast then some .invalidArgument
      else if ip.isLinkLocal && scope != loopbackScope then some .noSuchDevice
      else some .addressNotAvailable
  connect
    | .v4 _ _, _ => some .networkUnreachable
    | .v6 ip _ scope, _ =>
      if ip.mapped?.isSome || ip.isMulticast then some .networkUnreachable
      else if ip.isLinkLocal && scope == 0 then some .invalidArgument
      else some .addressNotAvailable
  setHops := refuseHops
  send
    | .v4 ip port, size =>
      if 65535 < size then some .messageTooLong
      else if port = 0 then some .invalidArgument
      else if ip == .unspecified then none
      else some .networkUnreachable
    | .v6 ip port _, size =>
      if ip.mapped?.isSome then
        if 65535 < size then some .messageTooLong
        else if port = 0 then some .invalidArgument
        else some .networkUnreachable
      else if port = 0 then some .invalidArgument
      else some .addressNotAvailable
  lookup := lookupAlone

def resolve (network : Network) (endpoint : String) : Except EndpointError SocketAddress :=
  match SocketAddress.ofText? endpoint with
  | some address => .ok address
  | none =>
    match Text.cutLastWhere (· == ':') endpoint.toList with
    | none => .error .noPort
    | some (host, port) =>
      match Numeral.read Numeral.portLimit (String.ofList port) with
      | .error _ => .error .badPort
      | .ok n =>
        if '\x00' ∈ host then .error .nul
        else (network.lookup (String.ofList host)).map fun address =>
          address.withPort (UInt16.ofNat n)

end Network

inductive ListenError where
  | endpoint (error : EndpointError)
  | system (error : SystemError)
  deriving DecidableEq, Repr

def ListenError.reason : ListenError → String
  | .endpoint error => error.message
  | .system error => error.message

def ListenError.summary : String := "Failed to bind to address"

def ListenError.message (error : ListenError) : String :=
  summary ++ ": " ++ error.reason

def Network.listenAt (network : Network) (address : SocketAddress) :
    Except ListenError SocketAddress :=
  match network.bind address with
  | some e => .error (.system e)
  | none => .ok address

def Network.listen (network : Network) (endpoint : String) : Except ListenError SocketAddress :=
  match network.resolve endpoint with
  | .error e => .error (.endpoint e)
  | .ok address => network.listenAt address

end WireBench.Net
