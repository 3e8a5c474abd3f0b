import WireBench.Proofs.AnswerStream

/-!
# Connections that break

A client that takes less than it is offered, refuses or goes away only cuts short what is written to
it: the answers before the fault are the same, nothing is written behind it, and no request is
heeded whose answer was not begun.
-/

namespace WireBench.Server

open WireBench.Http WireBench.Transport

theorem Plan.length_sendings (plan : Plan) (draws : Multipart.Draws) (requests : List Request)
    (streamEnd : StreamEnd) :
    (plan.sendings draws requests streamEnd).length =
      requests.length + if streamEnd.isMalformed then 1 else 0 := by
  induction requests generalizing draws with
  | nil =>
    rw [sendings]
    split <;> rfl
  | cons request requests ih =>
    rw [sendings, List.length_cons, List.length_cons, ih]
    omega

/-- Whatever the client does, it has taken a front of what a willing client would have been sent
upon the same requests and draws, and a fault is the last event on the wire. What was to be sent up
to the fault was sent in full, the requests up to there have been heeded and no others, and the
fault is one of sending what came next. The connection ends before its time if that was the answer
to a request, and not the refusal of what is no request, or else if no request could be read and the
reason is neither what was received nor silence. -/
theorem Plan.serve_until_fault (plan : Plan) (ends : Ends) (peer : Peer) (ending : Ending)
    (draws : Multipart.Draws) (bs : Bytes) :
    let read := Request.stream ending bs
    let requests := read.1.map fun request => request.between ends.client ends.server
    let sendings := plan.sendings draws requests read.2
    let run := plan.serve ends peer ending draws bs
    run.2.wire.bytes <+: (plan.serve ends .willing ending draws bs).2.wire.bytes ∧
      (∀ before event after, run.2.wire.events = before ++ event :: after →
        event.fault? ≠ none → after = []) ∧
      sendings.length = requests.length + (if read.2.isMalformed then 1 else 0) ∧
      ∃ sent ≤ sendings.length,
        run.2.answered.reverse = requests.take (sent + 1) ∧
        run.2.draws = (plan.service.respondAll draws (requests.take (sent + 1))).2 ∧
        ((sent = sendings.length ∧ run.2.wire.EndsWith none ∧
            run.2.wire.bytes = Response.sentAll sendings) ∨
          ∃ before sending fault, sendings[sent]? = some sending ∧ before.EndsWith none ∧
            before.bytes = Response.sentAll (sendings.take sent) ∧
            sending.2.send peer plan.chunk sending.1 before = (.error fault, run.2.wire) ∧
            run.2.wire.EndsWith (some fault)) ∧
        (run.1 ≠ none ↔ sent < requests.length ∨
          ∃ error, read.2 = .failed error ∧ error.kind ≠ .invalidData ∧
            error.kind ≠ .wouldBlock ∧ error.kind ≠ .timedOut) := by
  intro read requests sendings run
  have hstream : Request.stream ending bs = (read.1, read.2) := rfl
  obtain ⟨sent, hsent, hanswered, hdraws, habort⟩ :=
    plan.sentInTurn_serveFrom hstream ends peer (.start draws)
  have hfresh := Wire.endsWith_fresh
  have hwilling : (plan.serve ends .willing ending draws bs).2.wire.bytes =
      Wire.fresh.bytes ++ Response.sentAll sendings :=
    plan.bytes_serveFrom hstream ends (.start draws)
  have hlength := plan.length_sendings draws requests read.2
  refine ⟨?_, ?_, hlength, sent, hsent.sent_le, ?_, hdraws, ?_, ?_⟩
  · rw [hwilling]
    exact hsent.bytes_prefix
  · intro before event after hevents hfault
    rcases hsent.outcome hfresh with ⟨-, hends, -⟩ | ⟨_, _, _, -, -, -, -, hends⟩
    · exact hends.eq_nil hevents hfault
    · exact hends.eq_nil hevents hfault
  · have hlog : run.2.answered = (requests.take (sent + 1)).reverse ++ [] := hanswered
    rw [hlog, List.append_nil, List.reverse_reverse]
  · exact hsent.outcome hfresh
  · have hrequests : requests.length = read.1.length := List.length_map _
    rw [hrequests]
    exact habort

end WireBench.Server
