import WireBench.Proofs.AnswerFraming
import WireBench.Proofs.RequestStream
import WireBench.Proofs.Transmission
import WireBench.Server.Connection

/-!
# The answers on a connection

What a server writes to a client that takes everything is one answer for every request up to the
last that is heeded, and a refusal if what follows is no request. The client can tell them apart.
-/

namespace WireBench

namespace Server

open WireBench.Http WireBench.Multipart WireBench.Transport

/-- The answer with the news that the connection is closed, unless it stays open. -/
def closedUnlessKept (request : Request) (response : Response) : Response :=
  if request.keepAlive then response else response.setHeader "Connection" "close"

/-- What is sent upon a stream of requests, each with whether its body is sent: the answers one
after the other, and the refusal of what is no request. -/
def Plan.sendings (plan : Plan) (draws : Draws) : List Request → StreamEnd → List (Bool × Response)
  | [], streamEnd => if streamEnd.isMalformed then [(true, refusal)] else []
  | request :: requests, streamEnd =>
    (sendsBody request, (plan.answer draws request).1) ::
      plan.sendings (plan.answer draws request).2 requests streamEnd

variable {plan : Plan} {ends : Ends} {draws : Draws} {bs rest : Bytes} {request : Request}

theorem Plan.answer_eq (plan : Plan) (draws : Draws) (request : Request) :
    plan.answer draws request =
      (closedUnlessKept request (plan.service.respond draws request).1,
        (plan.service.respond draws request).2) := rfl

theorem Plan.sendings_eq (plan : Plan) (draws : Draws) (requests : List Request)
    (streamEnd : StreamEnd) :
    plan.sendings draws requests streamEnd =
      (requests.map sendsBody).zip
        (List.zipWith closedUnlessKept requests (plan.service.respondAll draws requests).1) ++
        if streamEnd.isMalformed then [(true, refusal)] else [] := by
  induction requests generalizing draws with
  | nil => rfl
  | cons request requests ih =>
    rw [sendings, ih, Plan.answer_eq]
    rfl

theorem Plan.serveFrom_finished {peer : Peer} {ending : Ending} {session session' : Session}
    {abort : Option Abort}
    (h : plan.turn ends peer ending session bs = .finished abort session') :
    plan.serveFrom ends peer ending session bs = (abort, session') := by
  rw [serveFrom]
  split
  · next h' =>
    rw [h] at h'
    cases h'
    rfl
  · next h' =>
    rw [h] at h'
    cases h'

theorem Plan.serveFrom_more {peer : Peer} {ending : Ending} {session session' : Session}
    (h : plan.turn ends peer ending session bs = .more session' rest) :
    plan.serveFrom ends peer ending session bs = plan.serveFrom ends peer ending session' rest := by
  rw [serveFrom]
  split
  · next h' =>
    rw [h] at h'
    cases h'
  · next h' =>
    rw [h] at h'
    cases h'
    rfl

theorem Plan.handle_of_fault {peer : Peer} {session : Session} {wire : Wire} {fault : Fault}
    (h : (plan.answer session.draws request).1.send peer plan.chunk (sendsBody request)
      session.wire = (.error fault, wire)) :
    plan.handle peer session request rest =
      .finished (some (.writing (plan.answer session.draws request).1.body.length request.target
        fault)) ⟨wire, (plan.answer session.draws request).2, request :: session.answered⟩ := by
  simp only [handle, h]

theorem Plan.handle_of_sent {peer : Peer} {session : Session} {wire : Wire} {count : Nat}
    (h : (plan.answer session.draws request).1.send peer plan.chunk (sendsBody request)
      session.wire = (.ok count, wire)) :
    plan.handle peer session request rest =
      if request.keepAlive then
        .more ⟨wire, (plan.answer session.draws request).2, request :: session.answered⟩ rest
      else
        .finished none
          ⟨wire, (plan.answer session.draws request).2, request :: session.answered⟩ := by
  simp only [handle, h]

section

variable {peer : Peer} {ending : Ending} {session : Session} {wire : Wire}

theorem Plan.serveFrom_of_fault {fault : Fault}
    (hread : Request.read ending bs = (.ok (some request), rest))
    (hsend : (plan.answer session.draws (request.between ends.client ends.server)).1.send peer
      plan.chunk (sendsBody (request.between ends.client ends.server)) session.wire =
        (.error fault, wire)) :
    ∃ abort, plan.serveFrom ends peer ending session bs =
      (some abort,
        ⟨wire, (plan.answer session.draws (request.between ends.client ends.server)).2,
          request.between ends.client ends.server :: session.answered⟩) := by
  have hturn : plan.turn ends peer ending session bs =
      plan.handle peer session (request.between ends.client ends.server) rest := by
    rw [turn, hread]
  rw [handle_of_fault hsend] at hturn
  exact ⟨_, serveFrom_finished hturn⟩

theorem Plan.serveFrom_of_sent {count : Nat}
    (hread : Request.read ending bs = (.ok (some request), rest))
    (hsend : (plan.answer session.draws (request.between ends.client ends.server)).1.send peer
      plan.chunk (sendsBody (request.between ends.client ends.server)) session.wire =
        (.ok count, wire)) :
    plan.serveFrom ends peer ending session bs =
      if request.keepAlive then
        plan.serveFrom ends peer ending
          ⟨wire, (plan.answer session.draws (request.between ends.client ends.server)).2,
            request.between ends.client ends.server :: session.answered⟩ rest
      else
        (none, ⟨wire, (plan.answer session.draws (request.between ends.client ends.server)).2,
          request.between ends.client ends.server :: session.answered⟩) := by
  have hturn : plan.turn ends peer ending session bs =
      plan.handle peer session (request.between ends.client ends.server) rest := by
    rw [turn, hread]
  rw [handle_of_sent hsend, Request.keepAlive_between] at hturn
  by_cases hkeep : request.keepAlive = true
  · rw [if_pos hkeep] at hturn ⊢
    exact serveFrom_more hturn
  · rw [if_neg hkeep] at hturn ⊢
    exact serveFrom_finished hturn

end

/-- An error of reading that is what was received leads to the refusal, whatever becomes of it, and
no other does; the connection ends before its time if the error is not silence either. -/
theorem Plan.reject_eq (plan : Plan) (peer : Peer) (session : Session) (error : ReadError) :
    ∃ abort wire sent, plan.reject peer session error =
        .finished abort { session with wire := wire } ∧
      (abort ≠ none ↔ error.kind ≠ .invalidData ∧ error.kind ≠ .wouldBlock ∧
        error.kind ≠ .timedOut) ∧
      Response.SentInTurn peer plan.chunk session.wire
        (if (StreamEnd.failed error).isMalformed then [(true, refusal)] else []) sent wire := by
  rw [reject]
  by_cases hsilence : isSilence error = true
  · rw [if_pos hsilence]
    simp only [isSilence, Bool.or_eq_true, beq_iff_eq] at hsilence
    have hkind : ¬ error.kind = .invalidData := by
      rintro h
      simp [h] at hsilence
    refine ⟨none, session.wire, 0, rfl, ?_, ?_⟩
    · rcases hsilence with h | h <;> simp [h]
    · simp only [StreamEnd.isMalformed, beq_iff_eq, hkind, if_false]
      exact .done _
  · rw [if_neg hsilence]
    simp only [isSilence, Bool.or_eq_true, beq_iff_eq, not_or] at hsilence
    by_cases hkind : error.kind = .invalidData
    · rw [if_pos hkind]
      have hsent : ∃ sent, Response.SentInTurn peer plan.chunk session.wire [(true, refusal)] sent
          (refusal.send peer plan.chunk true session.wire).2 := by
        rcases hsend : refusal.send peer plan.chunk true session.wire with ⟨_ | count, wire⟩
        · exact ⟨0, .fault hsend⟩
        · exact ⟨1, .next hsend (.done wire)⟩
      obtain ⟨sent, hsent⟩ := hsent
      refine ⟨none, _, sent, rfl, by simp [hkind], ?_⟩
      simpa [StreamEnd.isMalformed, hkind] using hsent
    · rw [if_neg hkind]
      refine ⟨some (.reading error), session.wire, 0, rfl, by simp [hkind, hsilence], ?_⟩
      simp only [StreamEnd.isMalformed, beq_iff_eq, hkind, if_false]
      exact .done _

/-- From some point on, what is sent upon the stream from there is sent in turn up to the first
fault, and the requests are heeded for which anything was to be sent until then. -/
theorem Plan.sentInTurn_serveFrom {ending : Ending} {requests : List Request}
    {streamEnd : StreamEnd} (h : Request.stream ending bs = (requests, streamEnd)) (plan : Plan)
    (ends : Ends) (peer : Peer) (session : Session) :
    ∃ sent, Response.SentInTurn peer plan.chunk session.wire
        (plan.sendings session.draws
          (requests.map fun request => request.between ends.client ends.server) streamEnd) sent
        (plan.serveFrom ends peer ending session bs).2.wire ∧
      (plan.serveFrom ends peer ending session bs).2.answered =
        ((requests.map fun request => request.between ends.client ends.server).take
          (sent + 1)).reverse ++ session.answered ∧
      (plan.serveFrom ends peer ending session bs).2.draws =
        (plan.service.respondAll session.draws
          ((requests.map fun request => request.between ends.client ends.server).take
            (sent + 1))).2 ∧
      ((plan.serveFrom ends peer ending session bs).1 ≠ none ↔ sent < requests.length ∨
        ∃ error, streamEnd = .failed error ∧ error.kind ≠ .invalidData ∧
          error.kind ≠ .wouldBlock ∧ error.kind ≠ .timedOut) := by
  -- One turn of the server takes one step of the stream, so the induction is the recursion of the
  -- stream; a fault at the head ends both before the induction hypothesis is needed.
  fun_induction Request.stream ending bs generalizing requests streamEnd session with
  | case1 bs rest hread =>
    cases h
    have hturn : plan.turn ends peer ending session bs = .finished none session := by
      rw [turn, hread]
    rw [serveFrom_finished hturn]
    exact ⟨0, .done _, rfl, rfl, by simp⟩
  | case2 bs error rest hread =>
    cases h
    obtain ⟨abort, wire, sent, hreject, habort, hsent⟩ := plan.reject_eq peer session error
    have hturn : plan.turn ends peer ending session bs =
        .finished abort { session with wire := wire } := by
      rw [turn, hread]
      exact hreject
    rw [serveFrom_finished hturn]
    refine ⟨sent, hsent, by simp, by simp [Service.respondAll], ?_⟩
    simpa using habort
  | case3 bs request rest hread hkeep more streamEnd' hmore ih =>
    cases h
    rw [List.map_cons, sendings]
    rcases hsend : (plan.answer session.draws (request.between ends.client ends.server)).1.send peer
      plan.chunk (sendsBody (request.between ends.client ends.server)) session.wire with
      ⟨fault | count, wire⟩
    · obtain ⟨abort, hserve⟩ := serveFrom_of_fault hread hsend
      rw [hserve]
      exact ⟨0, .fault hsend, rfl, rfl, by simp⟩
    · rw [serveFrom_of_sent hread hsend, if_pos hkeep]
      obtain ⟨sent, hsent, hanswered, hdraws, habort⟩ := ih hmore
        ⟨wire, (plan.answer session.draws (request.between ends.client ends.server)).2,
          request.between ends.client ends.server :: session.answered⟩
      refine ⟨sent + 1, .next hsend hsent, ?_, ?_, ?_⟩
      · rw [hanswered]
        simp
      · rw [hdraws]
        rfl
      · rw [habort, List.length_cons, Nat.add_lt_add_iff_right]
  | case4 bs request rest hread hclose =>
    cases h
    rw [List.map_cons, sendings]
    rcases hsend : (plan.answer session.draws (request.between ends.client ends.server)).1.send peer
      plan.chunk (sendsBody (request.between ends.client ends.server)) session.wire with
      ⟨fault | count, wire⟩
    · obtain ⟨abort, hserve⟩ := serveFrom_of_fault hread hsend
      rw [hserve]
      exact ⟨0, .fault hsend, rfl, rfl, by simp⟩
    · rw [serveFrom_of_sent hread hsend, if_neg hclose]
      exact ⟨1, .next hsend (.done wire), rfl, rfl, by simp⟩

/-- All that is written from some point on is what is sent upon the stream from there. -/
theorem Plan.bytes_serveFrom {ending : Ending} {requests : List Request} {streamEnd : StreamEnd}
    (h : Request.stream ending bs = (requests, streamEnd)) (plan : Plan) (ends : Ends)
    (session : Session) :
    (plan.serveFrom ends .willing ending session bs).2.wire.bytes =
      session.wire.bytes ++ Response.sentAll
        (plan.sendings session.draws
          (requests.map fun request => request.between ends.client ends.server) streamEnd) := by
  obtain ⟨sent, hsent, -⟩ := plan.sentInTurn_serveFrom h ends .willing session
  exact hsent.bytes_willing

theorem isFramed_closedUnlessKept (request : Request) {response : Response}
    (h : response.IsFramed) : (closedUnlessKept request response).IsFramed := by
  rw [closedUnlessKept]
  split
  · exact h
  · exact h.setHeader isSendable_connection Text.lowercase_connection_ne

theorem isFramed_refusal : refusal.IsFramed :=
  Response.isFramed_badRequest.setHeader isSendable_connection Text.lowercase_connection_ne

theorem Plan.isFramed_sendings (plan : Plan) (draws : Draws) (requests : List Request)
    (streamEnd : StreamEnd) :
    ∀ sending ∈ plan.sendings draws requests streamEnd, sending.2.IsFramed := by
  induction requests generalizing draws with
  | nil =>
    intro sending hsending
    rw [sendings] at hsending
    split at hsending
    · rw [List.mem_singleton.1 hsending]
      exact isFramed_refusal
    · cases hsending
  | cons request requests ih =>
    intro sending hsending
    rcases List.mem_cons.1 hsending with rfl | hsending
    · exact isFramed_closedUnlessKept request (plan.service.isFramed_respond draws request)
    · exact ih _ sending hsending

/-- The client sees the fields of the answer, and besides them the news that the connection is
closed if and only if it does not stay open. -/
theorem get?_received_closedUnlessKept (request : Request) {response : Response}
    (hnone : response.headers.get? "Connection" = none) (bodyIsDue : Bool) (name : String) :
    ((closedUnlessKept request response).received bodyIsDue).headers.get? name =
      if Text.lowercase name = Text.lowercase "Connection" then
        if request.keepAlive then none else some "close"
      else response.headers.get? name := by
  rw [Response.get?_received, closedUnlessKept]
  by_cases hname : Text.lowercase name = Text.lowercase "Connection"
  · have hsame : response.headers.get? name = none := by
      rw [Headers.get?, hname]
      exact hnone
    rw [if_pos hname]
    split
    · exact hsame
    · rw [Response.setHeader, Headers.get?_set, if_pos hname.symm]
  · rw [if_neg hname]
    split
    · rfl
    · rw [Response.setHeader, Headers.get?_set, if_neg fun e => hname e.symm]

/-- What a client that takes everything has been sent when its connection ends is, read again, one
answer for every request up to the first after which the connection does not stay open, the body
left out where only the head was asked for, and the news of the end with the last of them if it is
the reason; and then one refusal if and only if the next reading has found what is no request. -/
theorem Plan.readAll?_serve (plan : Plan) (ends : Ends) (draws : Draws) (bs : Bytes) :
    let read := Request.stream .finished bs
    let requests := read.1.map fun request => request.between ends.client ends.server
    let responses := (plan.service.respondAll draws requests).1
    let answers := List.zipWith closedUnlessKept requests responses
    let due := requests.map sendsBody
    let written := (plan.serve ends .willing .finished draws bs).2.wire.bytes
    responses.length = requests.length ∧
      ReceivedResponse.readAll? (due ++ if read.2.isMalformed then [true] else []) written =
        some (List.zipWith (fun bodyIsDue answer => answer.received bodyIsDue) due answers ++
          if read.2.isMalformed then [refusal.received true] else []) ∧
      (∀ pair ∈ requests.zip responses, ∀ bodyIsDue name,
        ((closedUnlessKept pair.1 pair.2).received bodyIsDue).headers.get? name =
          if Text.lowercase name = Text.lowercase "Connection" then
            if pair.1.keepAlive then none else some "close"
          else pair.2.headers.get? name) ∧
      (refusal.status = 400 ∧ refusal.body = [] ∧
        (refusal.received true).headers.get? "Content-Length" = some "0" ∧
        (refusal.received true).headers.get? "Connection" = some "close") ∧
      ∃ rest, Request.readTimes .finished read.1.length bs =
          (read.1.map fun request => .ok (some request), rest) ∧
        (∀ request ∈ read.1.dropLast, request.keepAlive = true) ∧
        ((∀ request ∈ read.1, request.keepAlive = true) →
          ∀ request, (Request.read .finished rest).1 ≠ .ok (some request)) ∧
        (read.2.isMalformed = true ↔
          (∀ request ∈ read.1, request.keepAlive = true) ∧
            ∃ error, (Request.read .finished rest).1 = .error error ∧
              error.kind = .invalidData) := by
  intro read requests responses answers due written
  have hlength : responses.length = requests.length := plan.service.length_respondAll draws requests
  have hwritten : written =
      (plan.sendings draws requests read.2).flatMap fun sending => sending.2.sent sending.1 :=
    bytes_serveFrom (rfl : Request.stream .finished bs = (read.1, read.2)) plan ends (.start draws)
  have hread := ReceivedResponse.readAll?_sent (plan.isFramed_sendings draws requests read.2)
  rw [← hwritten, plan.sendings_eq draws requests read.2] at hread
  obtain ⟨rest, htimes, hend⟩ :=
    Request.readTimes_stream (rfl : Request.stream .finished bs = (read.1, read.2))
  refine ⟨hlength, ?_, ?_, ?_, rest, htimes, ?_, hend.next_ne, hend.isMalformed_iff⟩
  · have hdue : due.length ≤ answers.length := by
      simp [due, answers, hlength]
    rw [List.map_append, List.map_append, List.map_fst_zip hdue, List.map_zip_eq_zipWith] at hread
    cases hmalformed : read.2.isMalformed with
    | false =>
      rw [hmalformed] at hread
      exact hread
    | true =>
      rw [hmalformed] at hread
      exact hread
  · intro pair hpair
    have hresponse : pair.2 ∈ responses := (List.of_mem_zip hpair).2
    have hnone : ∀ response ∈ responses, response.headers.get? "Connection" = none :=
      Service.forall_respondAll plan.service.get?_connection_respond draws requests
    exact get?_received_closedUnlessKept pair.1 (hnone _ hresponse)
  · have hfields := refusal.get?_received true
    refine ⟨rfl, rfl, ?_, ?_⟩
    · rw [hfields]
      exact isFramed_refusal.length
    · rw [hfields, refusal, Response.setHeader, Headers.get?_set, if_pos rfl]
  · exact Request.keepAlive_of_stream (rfl : Request.stream .finished bs = (read.1, read.2))

end Server

end WireBench
