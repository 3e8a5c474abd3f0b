import WireBench.Http.Reading
import WireBench.Http.Sending
import WireBench.Service

/-!
# Connections

A connection is served by reading requests and answering them until the client does not expect it to
stay open, the input ends, a request cannot be read, or the client takes no more. What was written
before a fault stays written, and nothing is written after it.
-/

namespace WireBench.Server

open WireBench.Http WireBench.Multipart WireBench.Transport

structure Ends where
  client : Net.SocketAddress
  server : Net.SocketAddress
  deriving DecidableEq

/-- How connections are served: with what, and in pieces of what size. -/
structure Plan where
  service : Service
  chunk : Nat

inductive Abort where
  | reading (error : ReadError)
  | writing (length : Nat) (target : String) (fault : Fault)
  deriving DecidableEq, Repr

def Abort.message : Abort → String
  | .reading error => "Failed to read request: " ++ error.message
  | .writing length target fault =>
    "Client went away while streaming " ++ toString length ++ " bytes for " ++ target ++ ": " ++
      fault.message

/-- What has happened on a connection: on its wire, to the random source, and which requests were
answered, the latest first. -/
structure Session where
  wire : Wire
  draws : Draws
  answered : List Request

def Session.start (draws : Draws) : Session := ⟨.fresh, draws, []⟩

def isSilence (error : ReadError) : Bool :=
  error.kind == .wouldBlock || error.kind == .timedOut

/-- The answer to a request: that of the service, with the news that the connection is closed
unless it stays open. -/
def Plan.answer (plan : Plan) (draws : Draws) (request : Request) : Response × Draws :=
  match plan.service.respond draws request with
  | (response, draws) =>
    (if request.keepAlive then response else response.setHeader "Connection" "close", draws)

def refusal : Response :=
  Response.badRequest.setHeader "Connection" "close"

def sendsBody (request : Request) : Bool :=
  request.method != .head

/-- What one request leads to: the end of the connection, perhaps before its time, or more input to
be read. -/
inductive Turn where
  | finished (abort : Option Abort) (session : Session)
  | more (session : Session) (rest : Bytes)

def Plan.handle (plan : Plan) (peer : Peer) (session : Session) (request : Request)
    (rest : Bytes) : Turn :=
  match plan.answer session.draws request with
  | (response, draws) =>
    match response.send peer plan.chunk (sendsBody request) session.wire with
    | (.error fault, wire) =>
      .finished (some (.writing response.body.length request.target fault))
        ⟨wire, draws, request :: session.answered⟩
    | (.ok _, wire) =>
      if request.keepAlive then .more ⟨wire, draws, request :: session.answered⟩ rest
      else .finished none ⟨wire, draws, request :: session.answered⟩

def Plan.reject (plan : Plan) (peer : Peer) (session : Session) (error : ReadError) : Turn :=
  if isSilence error then .finished none session
  else if error.kind = .invalidData then
    .finished none { session with wire := (refusal.send peer plan.chunk true session.wire).2 }
  else .finished (some (.reading error)) session

def Plan.turn (plan : Plan) (ends : Ends) (peer : Peer) (ending : Ending) (session : Session)
    (bs : Bytes) : Turn :=
  match Request.read ending bs with
  | (.ok none, _) => .finished none session
  | (.error error, _) => plan.reject peer session error
  | (.ok (some request), rest) =>
    plan.handle peer session (request.between ends.client ends.server) rest

theorem Plan.turn_more {plan : Plan} {ends : Ends} {peer : Peer} {ending : Ending}
    {session session' : Session} {bs rest : Bytes}
    (h : plan.turn ends peer ending session bs = .more session' rest) :
    rest.length < bs.length := by
  unfold Plan.turn at h
  split at h
  · cases h
  · rw [Plan.reject] at h
    split at h
    · cases h
    · split at h <;> cases h
  · next request rest' hr =>
    rw [Plan.handle] at h
    split at h
    split at h
    · cases h
    · split at h
      · cases h
        exact Request.length_lt_of_read hr
      · cases h

def Plan.serveFrom (plan : Plan) (ends : Ends) (peer : Peer) (ending : Ending)
    (session : Session) (bs : Bytes) : Option Abort × Session :=
  match _h : plan.turn ends peer ending session bs with
  | .finished abort session' => (abort, session')
  | .more session' rest => plan.serveFrom ends peer ending session' rest
termination_by bs.length
decreasing_by exact Plan.turn_more _h

def silence : Fault := ⟨.wouldBlock, ""⟩

/-- Whether the next request cannot be read before more has come from the client. -/
def awaitsMore (bs : Bytes) : Bool :=
  match Request.read (.fault silence) bs with
  | (.error (.transport _), _) => true
  | _ => false

def Plan.serve (plan : Plan) (ends : Ends) (peer : Peer) (ending : Ending) (draws : Draws)
    (bs : Bytes) : Option Abort × Session :=
  plan.serveFrom ends peer ending (.start draws) bs

end WireBench.Server
