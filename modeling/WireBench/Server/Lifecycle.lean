/-!
# The life of a server

A server accepts connections on a thread of its own until its owner shuts it down, be it by letting
go of it. The steps of the owner, of the thread and of the clients may come in any order that the
state allows: the thread looks at the flag, then accepts a connection, finds none or fails, and looks
again; shutting down sets the flag, joins the thread unless that has been done before, and comes
back. Whoever waits for the server joins the thread first and lets go of the server then. The server
of acknowledgments lives as the one that answers requests, but that nobody asks it whether it runs.
-/

namespace WireBench.Server

inductive Loop where
  | checking
  | accepting
  | ended
  deriving DecidableEq, Repr

/-- What the owner is doing. Shutting down is the `last` thing when the owner lets go of the
server. -/
inductive Owner where
  | free
  | waiting
  | shuttingDown (last : Bool)
  | gone
  deriving DecidableEq, Repr

/-- A server with the connections that wait for it; its owner holds the thread until it has been
joined. -/
structure Lifecycle where
  flag : Bool
  loop : Loop
  owner : Owner
  holdsThread : Bool
  pending : Nat
  deriving DecidableEq, Repr

/-- What can happen next: a client connects; the thread looks at the flag, accepts, finds nothing or
fails to accept; the owner asks whether the server runs and is told so, begins to shut it down, to
wait for it or to let go of it, joins the thread, or comes back from shutting down. -/
inductive Happening where
  | connect
  | check
  | accept
  | findNone
  | failToAccept
  | askRunning (answer : Bool)
  | shutDown
  | wait
  | drop
  | join
  | comeBack
  deriving DecidableEq, Repr

namespace Lifecycle

def started : Lifecycle := ⟨false, .checking, .free, true, 0⟩

def isRunning (server : Lifecycle) : Bool :=
  !server.flag

def isListening (server : Lifecycle) : Bool :=
  server.loop != .ended

def isFree (server : Lifecycle) : Bool :=
  server.owner == .free

/-- Whether the owner has come to where the thread is joined if it is still held. -/
def isJoining (server : Lifecycle) : Bool :=
  match server.owner with
  | .waiting | .shuttingDown _ => true
  | .free | .gone => false

def step? (server : Lifecycle) : Happening → Option Lifecycle
  | .connect =>
    some (if server.isListening then { server with pending := server.pending + 1 } else server)
  | .check =>
    if server.loop = .checking then
      some (if server.flag then { server with loop := .ended, pending := 0 }
        else { server with loop := .accepting })
    else none
  | .accept =>
    if server.loop = .accepting ∧ 0 < server.pending then
      some { server with loop := .checking, pending := server.pending - 1 }
    else none
  | .findNone =>
    if server.loop = .accepting ∧ server.pending = 0 then some { server with loop := .checking }
    else none
  | .failToAccept =>
    if server.loop = .accepting then some { server with loop := .checking } else none
  | .askRunning answer =>
    if server.isFree ∧ answer = server.isRunning then some server else none
  | .shutDown =>
    if server.isFree then some { server with flag := true, owner := .shuttingDown false } else none
  | .wait =>
    if server.isFree then some { server with owner := .waiting } else none
  | .drop =>
    if server.isFree ∨ server.owner = .waiting ∧ server.holdsThread = false then
      some { server with flag := true, owner := .shuttingDown true }
    else none
  | .join =>
    if server.isJoining ∧ server.holdsThread ∧ server.loop = .ended then
      some { server with holdsThread := false }
    else none
  | .comeBack =>
    match server.owner with
    | .shuttingDown last =>
      if server.holdsThread then none
      else some { server with owner := if last then .gone else .free }
    | _ => none

def run? (server : Lifecycle) : List Happening → Option Lifecycle
  | [] => some server
  | happening :: happenings =>
    match server.step? happening with
    | none => none
    | some server => server.run? happenings

/-- What happens while the owner shuts the server down, if no client connects meanwhile: the thread
looks at the flag and ends, after it has failed to accept if that is what it was about to do. -/
def closing (server : Lifecycle) : List Happening :=
  if server.holdsThread then
    .shutDown ::
      ((if server.loop = .accepting then [.failToAccept] else []) ++ [.check, .join, .comeBack])
  else [.shutDown, .comeBack]

end Lifecycle

end WireBench.Server
