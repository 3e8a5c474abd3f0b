import Std.Async.DNS
import Std.Async.TCP
import Std.Async.Timer
import Std.Async.UDP
import Std.Time.Zoned
import WireBench.MediaType.Extensions
import WireBench.Program.Fixtures
import WireBench.Program.FormServer

/-!
# The command line

Two programs, of which the first argument names the one to run: `server` serves form data, and
`fixtures` has the smaller ones. What they do is decided elsewhere; here files are read, sockets
opened, and bytes moved.
-/

namespace WireBench.Main

open WireBench.Net WireBench.Server WireBench.Transport
open Std.Async

/-! ## Files -/

def inspect (path : String) : IO FileStatus := do
  let entry : IO.FS.DirEntry := { root := path, fileName := "" }
  try
    let found ← entry.root.metadata
    match found.type with
    | .file =>
      try
        return .content (← IO.FS.readBinFile path).toList
      catch e => return .unreadable (toString e)
    | _ => return .noFile
  catch _ => return .noFile

def inspectAll (args : List String) : IO FileSystem := do
  let paths := match CommandLine.parse Settings.rules args with
    | .ok inv => inv.values "files"
    | .error _ => []
  let found ← paths.mapM fun path => do return (Utf8.encode path, ← inspect path)
  return fun path => match found.find? fun entry => entry.1 == path with
    | some entry => entry.2
    | none => .noFile

/-! ## Addresses -/

def toSystem : SocketAddress → Std.Net.SocketAddress
  | .v4 ip port => .v4 ⟨⟨#v[ip.a, ip.b, ip.c, ip.d]⟩, port⟩
  | .v6 ip port _ => .v6 ⟨⟨⟨ip.groups.toArray, by simpa using ip.length_groups⟩⟩, port⟩

def ofSystemIp : Std.Net.IPAddr → IpAddress
  | .v4 addr => .v4 ⟨addr.octets[0], addr.octets[1], addr.octets[2], addr.octets[3]⟩
  | .v6 addr => .v6 ⟨addr.segments.toList, by simp⟩

def ofSystem : Std.Net.SocketAddress → SocketAddress
  | .v4 a => .ofIp (ofSystemIp (.v4 a.addr)) a.port
  | .v6 a => .ofIp (ofSystemIp (.v6 a.addr)) a.port

/-- The address that a text of a host and a port names, asking for the address of a name. -/
def resolve (endpoint : String) : IO (Except EndpointError SocketAddress) := do
  match Network.granting.resolve endpoint with
  | .error .noAnswer =>
    match Text.cutLastWhere (· == ':') endpoint.toList with
    | none => return .error .noPort
    | some (host, _) =>
      try
        let found ← (DNS.getAddrInfo (String.ofList host) "").block
        match found.toList with
        | [] => return .error .unknownName
        | ip :: _ =>
          let network := { Network.granting with lookup := fun _ => .ok (.ofIp (ofSystemIp ip) 0) }
          return network.resolve endpoint
      catch _ => return .error .noAnswer
  | known => return known

def errorCode : IO.Error → Nat
  | .alreadyExists _ code _ | .otherError code _ | .resourceBusy code _
  | .resourceVanished code _ | .unsupportedOperation code _ | .hardwareFault code _
  | .unsatisfiedConstraints code _ | .illegalOperation code _ | .protocolError code _
  | .timeExpired code _ | .interrupted _ code _ | .noFileOrDirectory _ code _
  | .invalidArgument _ code _ | .permissionDenied _ code _ | .resourceExhausted _ code _
  | .inappropriateType _ code _ | .noSuchThing _ code _ => code.toNat
  | _ => 0

def errorText (e : IO.Error) : String :=
  let known : List SystemError := [.inputOutput, .noSuchDevice, .invalidArgument, .messageTooLong,
    .addressInUse, .addressNotAvailable, .networkUnreachable, .connectionRefused]
  match known.find? fun k => k.number == errorCode e || UInt32.size - k.number == errorCode e with
  | some k => k.message
  | none => toString e

/-! ## Serving -/

def freshDraws : IO Multipart.Draws := do
  let bytes ← IO.getRandomBytes 8
  let draw : Multipart.Draw := Vector.ofFn fun i => bytes.get! i
  return ⟨fun _ => draw, 0⟩

/-- What has come from a client: more bytes, the end, or nothing for a while. -/
inductive Arrival where
  | bytes (bs : Bytes)
  | finished
  | silent

def receive (client : TCP.Socket.Client) : Async Arrival := do
  let tooLong ← Selector.sleep 5000
  Selectable.one #[
    .case (client.recvSelector 8192) fun data => return match data with
      | some bs => .bytes bs.toList
      | none => .finished,
    .case tooLong fun _ => return .silent]

def transmit (client : TCP.Socket.Client) (wire : Wire) : Async Unit :=
  wire.events.forM fun event => do
    if event.bytes != [] then client.send ⟨event.bytes.toArray⟩

partial def converse (plan : Plan) (ends : Ends) (client : TCP.Socket.Client) (ending : Ending)
    (buffer : Bytes) : Async Unit := do
  if ending != .finished && awaitsMore buffer then
    match ← receive client with
    | .bytes bs => converse plan ends client ending (buffer ++ bs)
    | .finished => converse plan ends client .finished buffer
    | .silent => return
  else
    let session := Session.start (← freshDraws)
    match plan.turn ends Peer.willing ending session buffer with
    | .finished _ session => transmit client session.wire
    | .more session rest =>
      transmit client session.wire
      converse plan ends client ending rest

def serveHttp (plan : Plan) (client : TCP.Socket.Client) : Async Unit := do
  let ends : Ends := ⟨ofSystem (← client.getPeerName), ofSystem (← client.getSockName)⟩
  converse plan ends client (.fault silence) []
  client.shutdown

def now : IO Clock.Moment := do
  let moment ← Std.Time.DateTime.now
  return ⟨moment.timestamp.toSecondsSinceUnixEpoch.val, false, moment.timezone.offset.second.val⟩

partial def acknowledge (client : TCP.Socket.Client) : Async Unit := do
  match ← client.recv? (UInt64.ofNat Acknowledge.receiveLimit) with
  | none => client.shutdown
  | some bs =>
    for answer in Acknowledge.answers (← now) bs.toList do
      client.send ⟨answer.toArray⟩
    acknowledge client

/-- Takes connections for ever; a failure to take one is followed by a short pause. -/
partial def acceptAll (server : TCP.Socket.Server) (serve : TCP.Socket.Client → Async Unit) :
    Async Unit := do
  try
    let client ← server.accept
    background (try serve client catch _ => return)
  catch _ => sleep 10
  acceptAll server serve

def openServer (address : SocketAddress) : IO TCP.Socket.Server := do
  let server ← TCP.Socket.Server.mk
  server.bind (toSystem address)
  server.listen 128
  return server

def fail (code : UInt32) (message : String) : IO UInt32 := do
  IO.eprintln message
  return code

/-- Serves what a run that does not end is to serve. -/
def perform (work : Program.Work) (failure : String → String) : IO UInt32 := do
  let (address, serve) := match work with
    | .http plan address _ => (address, serveHttp plan)
    | .acknowledge address _ => (address, acknowledge)
  let server ← try openServer address catch e => return ← fail 1 (failure (errorText e))
  (acceptAll server serve).block
  return 0

def report (r : Program.Report) : IO UInt32 := do
  IO.print r.out
  IO.eprint r.err
  return UInt32.ofNat r.code

/-! ## The programs -/

def formServer (args : List String) : IO UInt32 := do
  match Settings.ofArgs MediaType.byExtension (← inspectAll args) args with
  | .error e => fail 2 e.message
  | .ok settings =>
    let failure (reason : String) : String :=
      "Error: " ++ ListenError.summary ++ "\n\nCaused by:\n    " ++ reason
    match ← resolve settings.bindAddress with
    | .error e => fail 1 (failure e.message)
    | .ok address => perform (Program.FormServer.work settings address) failure

def exchange (target : SocketAddress) (message : String) : IO UInt32 := do
  let client ← TCP.Socket.Client.mk
  try (client.connect (toSystem target)).block
  catch e => return ← fail 1 ("Error: Failed to connect: " ++ errorText e)
  (client.send ⟨(Utf8.encode message).toArray⟩).block
  let reply ← (client.recv? (UInt64.ofNat Acknowledge.receiveLimit)).block
  IO.println ("Received: " ++ Acknowledge.received (reply.elim [] ByteArray.toList))
  return 0

def datagram (delivery : Delivery) (target : SocketAddress) (message : String) : IO UInt32 := do
  match Datagram.openSocket Network.loopback target delivery with
  | .error e => fail 1 ("Error: " ++ e.message)
  | .ok options =>
    let payload := Clock.stamped message (← now)
    let socket ← UDP.Socket.mk
    socket.bind (toSystem (.ofIp options.localIp 0))
    if options.broadcast then socket.setBroadcast true
    if delivery matches .multicast _ then socket.setMulticastTTL (UInt32.ofNat options.hops)
    try
      (socket.send ⟨(Utf8.encode payload).toArray⟩ (some (toSystem target))).block
    catch e =>
      return ← fail 1 ("Error: Failed to send datagram to " ++ target.toText ++ ": " ++
        errorText e)
    IO.println ("Sent: " ++ payload)
    return 0

def fixtures (args : List String) : IO UInt32 := do
  let world : Program.World := ⟨Network.granting, ← now, fun _ => none⟩
  match CommandLine.parse Program.Fixtures.rules args with
  | .error _ => runIn world
  | .ok inv =>
    match Program.Fixtures.Command.ofInvocation inv with
    | .ok (.exchange target message) => exchange target message
    | .ok (.datagram delivery target message) => datagram delivery target message
    | _ => runIn world
where
  runIn (world : Program.World) : IO UInt32 := do
    match Program.Fixtures.run world args with
    | .ended r => report r
    | .serving work =>
      perform work fun reason => "Error: " ++ ListenError.summary ++ ": " ++ reason

end WireBench.Main

def main (args : List String) : IO UInt32 :=
  match args with
  | "server" :: args => WireBench.Main.formServer args
  | "fixtures" :: args => WireBench.Main.fixtures args
  | _ => WireBench.Main.fail 2 "Expected the name of a program: server or fixtures"
