import WireBench.Http.Stream

/-!
# Streams of requests and repeated reading

The requests of a stream are those that reading again and again yields. The stream ends with the
first after which the connection does not stay open, or else where no request is read.
-/

namespace WireBench.Http

open WireBench.Transport

/-- What an end of a stream says of the requests before it and of the next reading after them. -/
def StreamEnd.IsAfter (requests : List Request) (next : Except ReadError (Option Request)) :
    StreamEnd → Prop
  | .finished => (∀ request ∈ requests, request.keepAlive = true) ∧ next = .ok none
  | .closed => ∃ request ∈ requests, request.keepAlive = false
  | .failed error => (∀ request ∈ requests, request.keepAlive = true) ∧ next = .error error

theorem StreamEnd.IsAfter.cons {request : Request} {requests : List Request}
    {next : Except ReadError (Option Request)} {streamEnd : StreamEnd}
    (h : streamEnd.IsAfter requests next) (hkeep : request.keepAlive = true) :
    streamEnd.IsAfter (request :: requests) next := by
  cases streamEnd with
  | finished => exact ⟨List.forall_mem_cons.2 ⟨hkeep, h.1⟩, h.2⟩
  | closed =>
    obtain ⟨last, hlast, hclose⟩ := h
    exact ⟨last, List.mem_cons_of_mem _ hlast, hclose⟩
  | failed error => exact ⟨List.forall_mem_cons.2 ⟨hkeep, h.1⟩, h.2⟩

theorem StreamEnd.IsAfter.isMalformed_iff {requests : List Request}
    {next : Except ReadError (Option Request)} {streamEnd : StreamEnd}
    (h : streamEnd.IsAfter requests next) :
    streamEnd.isMalformed = true ↔ (∀ request ∈ requests, request.keepAlive = true) ∧
      ∃ error, next = .error error ∧ error.kind = .invalidData := by
  cases streamEnd with
  | finished => simp [StreamEnd.isMalformed, h.2]
  | closed =>
    obtain ⟨request, hrequest, hclose⟩ := h
    constructor
    · intro hmalformed
      cases hmalformed
    · rintro ⟨hkeep, -⟩
      rw [hkeep request hrequest] at hclose
      cases hclose
  | failed error =>
    obtain ⟨hkeep, hnext⟩ := h
    rw [StreamEnd.isMalformed, beq_iff_eq]
    constructor
    · intro hkind
      exact ⟨hkeep, error, hnext, hkind⟩
    · rintro ⟨-, other, hother, hkind⟩
      rw [hnext] at hother
      cases hother
      exact hkind

theorem StreamEnd.IsAfter.next_ne {requests : List Request}
    {next : Except ReadError (Option Request)} {streamEnd : StreamEnd}
    (h : streamEnd.IsAfter requests next) (hkeep : ∀ request ∈ requests, request.keepAlive = true)
    (request : Request) : next ≠ .ok (some request) := by
  intro hnext
  cases streamEnd with
  | finished =>
    rw [h.2] at hnext
    cases hnext
  | closed =>
    obtain ⟨last, hlast, hclose⟩ := h
    rw [hkeep last hlast] at hclose
    cases hclose
  | failed error =>
    rw [h.2] at hnext
    cases hnext

namespace Request

theorem readTimes_succ {ending : Ending} {n : Nat} {bs rest rest' : Bytes}
    {result : Except ReadError (Option Request)}
    {results : List (Except ReadError (Option Request))}
    (hread : Request.read ending bs = (result, rest))
    (hmore : readTimes ending n rest = (results, rest')) :
    readTimes ending (n + 1) bs = (result :: results, rest') := by
  simp only [readTimes, hread, hmore]

/-- The requests of a stream are read one after the other, and the stream ends as it does because of
them or because of what is read next. -/
theorem readTimes_stream {ending : Ending} {bs : Bytes} {requests : List Request}
    {streamEnd : StreamEnd} (h : stream ending bs = (requests, streamEnd)) :
    ∃ rest, readTimes ending requests.length bs =
        (requests.map fun request => .ok (some request), rest) ∧
      streamEnd.IsAfter requests (read ending rest).1 := by
  fun_induction stream ending bs generalizing requests streamEnd with
  | case1 bs rest hread =>
    cases h
    exact ⟨bs, rfl, by simp, by rw [hread]⟩
  | case2 bs error rest hread =>
    cases h
    exact ⟨bs, rfl, by simp, by rw [hread]⟩
  | case3 bs request rest hread hkeep more streamEnd' hmore ih =>
    cases h
    obtain ⟨rest', htimes, hend⟩ := ih hmore
    exact ⟨rest', readTimes_succ hread htimes, hend.cons hkeep⟩
  | case4 bs request rest hread hclose =>
    cases h
    have htimes : readTimes ending 0 rest = ([], rest) := rfl
    refine ⟨rest, readTimes_succ hread htimes, request, List.mem_singleton.2 rfl, ?_⟩
    simpa using hclose

end Request

end WireBench.Http
