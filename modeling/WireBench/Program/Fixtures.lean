import WireBench.CommandLine
import WireBench.Program.Outcome
import WireBench.Settings

/-!
# The smaller fixtures

A program with four commands: a server and a client of acknowledged messages, a sender of datagrams
and the HTTP echo. A command is read completely before anything is done, so that a mistake anywhere
in it has no effect but its message.
-/

namespace WireBench.Program.Fixtures

open WireBench.Net

def rules : List OptionRule := [
  ⟨"ttl", ["t"], false⟩,
  ⟨"host", ["H"], false⟩,
  ⟨"port", ["p"], false⟩]

def usage : String :=
  "Usage:\n" ++
  "  fixtures tcp-server <ip> <port>\n" ++
  "  fixtures tcp-client <ip> <port> [message]\n" ++
  "  fixtures udp-send <unicast|broadcast|multicast> <ip> <port> [message] [--ttl n]\n" ++
  "  fixtures http-echo [--host h] [--port p]"

inductive Command where
  | acknowledge (address : SocketAddress)
  | exchange (target : SocketAddress) (message : String)
  | datagram (delivery : Delivery) (target : SocketAddress) (message : String)
  | echo (address : SocketAddress)
  deriving DecidableEq

inductive CommandError where
  | noCommand
  | unknownCommand (word : String)
  | noMode
  | unknownMode (word : String)
  | noTarget
  | badIp (text : String)
  | badPort (text : String) (error : NumeralError)
  | badHops (text : String) (error : NumeralError)
  deriving DecidableEq, Repr

def CommandError.message : CommandError → String
  | .noCommand => usage
  | .unknownCommand word => "Unknown fixture '" ++ word ++ "'\n" ++ usage
  | .noMode => "Expected a delivery mode\n" ++ usage
  | .unknownMode word => Delivery.unknownMessage word
  | .noTarget => "Expected <ip> <port>\n" ++ usage
  | .badIp text => "Invalid IP address '" ++ text ++ "': invalid IP address syntax"
  | .badPort text error => "Invalid port '" ++ text ++ "': " ++ error.message
  | .badHops text error => "Invalid TTL '" ++ text ++ "': " ++ error.message

def defaultMessage : String := "Hello, TCP Server!"

def defaultPayload : String := "Hello UDP!"

def echoHost : String := "127.0.0.1"

def echoPort : Nat := 50010

def readPort (text : String) : Except CommandError Nat :=
  match Numeral.read Numeral.portLimit text with
  | .ok port => .ok port
  | .error e => .error (.badPort text e)

def readIp (text : String) : Except CommandError IpAddress :=
  match IpAddress.ofText? text with
  | some ip => .ok ip
  | none => .error (.badIp text)

/-- Reads an address and a port from the front of the arguments. -/
def readTarget : List String → Except CommandError SocketAddress
  | ip :: port :: _ =>
    match readIp ip with
    | .error e => .error e
    | .ok ip => (readPort port).map fun port => .ofIp ip (UInt16.ofNat port)
  | _ => .error .noTarget

/-- Reads a mode of addressing, with the steps that the options tell for a group. -/
def readDelivery (inv : Invocation) (word : String) : Except CommandError Delivery :=
  match Delivery.ofText? word with
  | none => .error (.unknownMode word)
  | some (.multicast hops) =>
    match inv.get? "ttl" with
    | none => .ok (.multicast hops)
    | some text =>
      match Numeral.read Numeral.wordLimit text with
      | .ok n => .ok (.multicast n)
      | .error e => .error (.badHops text e)
  | some mode => .ok mode

def readEcho (inv : Invocation) : Except CommandError SocketAddress :=
  match (inv.get? "port").elim (.ok echoPort) readPort with
  | .error e => .error e
  | .ok port =>
    (readIp ((inv.get? "host").getD echoHost)).map fun ip => .ofIp ip (UInt16.ofNat port)

def Command.ofInvocation (inv : Invocation) : Except CommandError Command :=
  match inv.positionals with
  | [] => .error .noCommand
  | "tcp-server" :: args => (readTarget args).map .acknowledge
  | "tcp-client" :: args =>
    (readTarget args).map fun target => .exchange target (args[2]?.getD defaultMessage)
  | ["udp-send"] => .error .noMode
  | "udp-send" :: word :: args =>
    match readDelivery inv word with
    | .error e => .error e
    | .ok delivery =>
      (readTarget args).map fun target => .datagram delivery target (args[2]?.getD defaultPayload)
  | "http-echo" :: _ => (readEcho inv).map .echo
  | word :: _ => .error (.unknownCommand word)

def failure (message : String) : Outcome :=
  .failed 1 ("Error: " ++ message)

def Command.run (world : World) : Command → Outcome
  | .acknowledge address =>
    match world.network.listenAt address with
    | .error e => failure e.message
    | .ok address => .serving (.acknowledge address ["TCP server started at " ++ address.toText])
  | .exchange target message =>
    match Acknowledge.exchange world.network target (world.listener target)
        (Utf8.encode message) with
    | .error e => failure (Acknowledge.unreachableMessage e)
    | .ok reply => .succeeded ("Received: " ++ reply) []
  | .datagram delivery target message =>
    let payload := Clock.stamped message world.now
    match Datagram.send world.network target delivery (Utf8.encode payload) with
    | .error e => failure e.message
    | .ok sent => .succeeded ("Sent: " ++ payload) [sent]
  | .echo address =>
    match world.network.listenAt address with
    | .error e => failure e.message
    | .ok address =>
      .serving (.http ⟨.echo, Settings.defaultChunk⟩ address
        [listeningNotice address, "Serving HTTP echo on " ++ address.toText])

def run (world : World) (args : List String) : Outcome :=
  match CommandLine.parse rules args with
  | .error e => .failed 2 (e.message ++ "\n" ++ usage)
  | .ok inv =>
    match Command.ofInvocation inv with
    | .error e => failure e.message
    | .ok command => command.run world

end WireBench.Program.Fixtures
