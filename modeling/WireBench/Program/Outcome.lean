import WireBench.Acknowledge
import WireBench.Datagram
import WireBench.Server.Connection

/-!
# What a program run comes to

A run ends with an exit code and what it has written and sent, or goes on serving.
-/

namespace WireBench.Program

open WireBench.Net

structure Report where
  code : Nat
  out : String
  err : String
  sent : List Datagram

inductive Work where
  | http (plan : Server.Plan) (address : SocketAddress) (notices : List String)
  | acknowledge (address : SocketAddress) (notices : List String)

inductive Outcome where
  | ended (report : Report)
  | serving (work : Work)

/-- What surrounds a run: the network, the time, and what listens at other addresses. -/
structure World where
  network : Network
  now : Clock.Moment
  listener : SocketAddress → Option Acknowledge.Listener

def Outcome.failed (code : Nat) (message : String) : Outcome :=
  .ended ⟨code, "", message ++ "\n", []⟩

def Outcome.succeeded (message : String) (sent : List Datagram) : Outcome :=
  .ended ⟨0, message ++ "\n", "", sent⟩

def listeningNotice (address : SocketAddress) : String :=
  "Server listening on " ++ address.toText

end WireBench.Program
