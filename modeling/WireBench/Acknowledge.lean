import WireBench.Clock
import WireBench.Http.Sending
import WireBench.Net.Network
import WireBench.Text.Utf8

/-!
# Acknowledged messages

A server that answers every piece of a message with the time at which it received it, and a client
that sends one message and takes one answer.
-/

namespace WireBench.Acknowledge

open WireBench.Net

def receiveLimit : Nat := 1024

/-- The answers to a message: one for every piece in which it is received. -/
def answers (now : Clock.Moment) (message : Bytes) : List Bytes :=
  (Http.piecesOf receiveLimit message).map fun _ => Utf8.encode (Clock.acknowledgment now)

def received (reply : Bytes) : String :=
  Utf8.decodeLossy (reply.take receiveLimit)

/-- What listens at an address: its reply to a message. -/
abbrev Listener := Bytes → Bytes

def exchange (network : Network) (target : SocketAddress) (listener : Option Listener)
    (message : Bytes) : Except SystemError String :=
  match network.connect target listener.isSome, listener with
  | some e, _ => .error e
  | none, some reply => .ok (received (reply message))
  | none, none => .error .connectionRefused

def unreachableMessage (error : SystemError) : String :=
  "Failed to connect: " ++ error.message

end WireBench.Acknowledge
