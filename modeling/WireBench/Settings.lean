import WireBench.CommandLine
import WireBench.Files
import WireBench.Part
import WireBench.Text.Numeral

/-!
# Settings

What the form-data server is told on its command line: where to listen, in pieces of what size to
write, and which files to serve. Later options replace earlier ones, lists of files add up, and
files are read once and for all; of several mistakes the one reported is the first in the order
options, port, size, files.
-/

namespace WireBench

inductive SettingsError where
  | usage (error : UsageError)
  | invalidPort (text : String)
  | invalidChunk (text : String)
  | missingFile (path : Bytes)
  | unreadableFile (path : Bytes) (reason : String)
  deriving DecidableEq, Repr

def SettingsError.message : SettingsError → String
  | .usage error => error.message
  | .invalidPort text => "Invalid port '" ++ text ++ "'"
  | .invalidChunk text =>
    "Invalid chunk size '" ++ text ++ "': expected a positive number of bytes"
  | .missingFile path => "File not found: " ++ Utf8.decodeLossy path
  | .unreadableFile path reason =>
    "Failed to read " ++ Utf8.decodeLossy path ++ ": " ++ reason

/-- Reads one part a path, in order; the first path that leads to no readable file decides the
error. -/
def Part.load (types : MediaType.Lookup) (files : FileSystem) :
    List Bytes → Except SettingsError (List Part)
  | [] => .ok []
  | path :: paths =>
    match files path with
    | .noFile => .error (.missingFile path)
    | .unreadable reason => .error (.unreadableFile path reason)
    | .content bytes =>
      (Part.load types files paths).map fun parts => Part.ofPath types path bytes :: parts

structure Settings where
  host : String
  port : Nat
  chunk : Nat
  parts : List Part

namespace Settings

def defaultHost : String := "127.0.0.1"

def defaultPort : Nat := 18080

def defaultChunk : Nat := 65536

def rules : List OptionRule := [
  ⟨"host", ["H"], false⟩,
  ⟨"port", ["p"], false⟩,
  ⟨"files", ["f"], true⟩,
  ⟨"chunk-size", ["c"], false⟩]

def of (host : String) (port : Nat) (parts : List Part) : Settings :=
  ⟨host, port, defaultChunk, parts⟩

def portOf (inv : Invocation) : Except SettingsError Nat :=
  match inv.get? "port" with
  | none => .ok defaultPort
  | some text =>
    match Numeral.read Numeral.portLimit text with
    | .ok port => .ok port
    | .error _ => .error (.invalidPort text)

/-- The size of pieces that the options tell; zero is none. -/
def chunkOf (inv : Invocation) : Except SettingsError Nat :=
  match inv.get? "chunk-size" with
  | none => .ok defaultChunk
  | some text =>
    match Numeral.read Numeral.sizeLimit text with
    | .ok (size + 1) => .ok (size + 1)
    | _ => .error (.invalidChunk text)

def partsOf (types : MediaType.Lookup) (files : FileSystem) (inv : Invocation) :
    Except SettingsError (List Part) :=
  match inv.values "files" with
  | [] => .ok (Part.samples types)
  | paths => Part.load types files (paths.map Utf8.encode)

def ofInvocation (types : MediaType.Lookup) (files : FileSystem) (inv : Invocation) :
    Except SettingsError Settings :=
  match portOf inv with
  | .error e => .error e
  | .ok port =>
    match chunkOf inv with
    | .error e => .error e
    | .ok chunk =>
      match partsOf types files inv with
      | .error e => .error e
      | .ok parts => .ok ⟨(inv.get? "host").getD defaultHost, port, chunk, parts⟩

def ofArgs (types : MediaType.Lookup) (files : FileSystem) (args : List String) :
    Except SettingsError Settings :=
  match CommandLine.parse rules args with
  | .error e => .error (.usage e)
  | .ok inv => ofInvocation types files inv

/-- The address to listen at, with brackets around a host that has colons and no bracket in
front. -/
def bindAddress (settings : Settings) : String :=
  let host := settings.host
  let isBare := host.toList.contains ':' && host.toList.head? != some '['
  (if isBare then "[" ++ host ++ "]" else host) ++ ":" ++ toString settings.port

end Settings

end WireBench
