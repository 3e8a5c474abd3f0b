import WireBench.Program.Outcome
import WireBench.Settings

/-!
# The form-data server

The program that serves files as form data: a command line that is refused ends it with code 2, an
address at which it cannot listen with code 1.
-/

namespace WireBench.Program.FormServer

open WireBench.Net

def servingNotice (address : SocketAddress) (parts : List Part) : String :=
  "Serving multipart response on http://" ++ address.toText ++ "/ with " ++
    toString parts.length ++ " part(s)"

def work (settings : Settings) (address : SocketAddress) : Work :=
  .http ⟨.form settings.parts, settings.chunk⟩ address
    [listeningNotice address, servingNotice address settings.parts]

def run (types : MediaType.Lookup) (network : Network) (files : FileSystem)
    (args : List String) : Outcome :=
  match Settings.ofArgs types files args with
  | .error e => .failed 2 e.message
  | .ok settings =>
    match network.listen settings.bindAddress with
    | .error e =>
      .failed 1 ("Error: " ++ ListenError.summary ++ "\n\nCaused by:\n    " ++ e.reason)
    | .ok address => .serving (work settings address)

end WireBench.Program.FormServer
