/-!
# Transport faults

What can go wrong when bytes are moved: a kind, by which callers decide what to do, and a wording.
-/

namespace WireBench.Transport

inductive FaultKind where
  | notFound
  | permissionDenied
  | connectionRefused
  | connectionReset
  | connectionAborted
  | notConnected
  | addressInUse
  | addressNotAvailable
  | hostUnreachable
  | networkUnreachable
  | brokenPipe
  | alreadyExists
  | wouldBlock
  | invalidInput
  | invalidData
  | timedOut
  | writeZero
  | interrupted
  | unsupported
  | unexpectedEnd
  | outOfMemory
  | other
  deriving DecidableEq, Repr

structure Fault where
  kind : FaultKind
  message : String
  deriving DecidableEq, Repr

def Fault.writeZero : Fault := ⟨.writeZero, "failed to write whole buffer"⟩

/-- How a stream of bytes ends: because there are no more, or with a fault. -/
inductive Ending where
  | finished
  | fault (fault : Fault)
  deriving DecidableEq, Repr

end WireBench.Transport
