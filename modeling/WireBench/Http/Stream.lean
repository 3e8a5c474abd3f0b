import WireBench.Http.Reading

/-!
# Streams of requests

Requests that follow one another in one byte string: what is read from it by reading again and
again, and which requests a server that heeds them will answer before the connection ends.
-/

namespace WireBench.Http

open WireBench.Transport

def Request.readTimes (ending : Ending) :
    Nat → Bytes → List (Except ReadError (Option Request)) × Bytes
  | 0, bs => ([], bs)
  | n + 1, bs =>
    match Request.read ending bs with
    | (result, rest) =>
      match Request.readTimes ending n rest with
      | (results, rest) => (result :: results, rest)

/-- How a stream of requests ends: with the input, with a request after which the connection does
not stay open, or with an error. -/
inductive StreamEnd where
  | finished
  | closed
  | failed (error : ReadError)
  deriving DecidableEq, Repr

def StreamEnd.isMalformed : StreamEnd → Bool
  | .failed error => error.kind == .invalidData
  | _ => false

/-- The requests up to the first after which the connection does not stay open, and how they end. -/
def Request.stream (ending : Ending) (bs : Bytes) : List Request × StreamEnd :=
  match _h : Request.read ending bs with
  | (.ok none, _) => ([], .finished)
  | (.error e, _) => ([], .failed e)
  | (.ok (some request), rest) =>
    if request.keepAlive then
      match Request.stream ending rest with
      | (requests, streamEnd) => (request :: requests, streamEnd)
    else ([request], .closed)
termination_by bs.length
decreasing_by exact Request.length_lt_of_read _h

theorem Request.keepAlive_of_stream {ending : Ending} {bs : Bytes} {requests : List Request}
    {streamEnd : StreamEnd} (h : Request.stream ending bs = (requests, streamEnd)) :
    ∀ request ∈ requests.dropLast, request.keepAlive = true := by
  fun_induction Request.stream ending bs generalizing requests streamEnd with
  | case1 | case2 => cases h; simp
  | case3 bs request rest _ hk more streamEnd' hs ih =>
    cases h
    cases more with
    | nil => simp
    | cons next more =>
      intro r hr
      rw [List.dropLast_cons_cons, List.mem_cons] at hr
      rcases hr with rfl | hr
      · exact hk
      · exact ih hs r hr
  | case4 => cases h; simp

end WireBench.Http
