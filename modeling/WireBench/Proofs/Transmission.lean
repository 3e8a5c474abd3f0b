import WireBench.Http.Sending
import WireBench.Proofs.ResponseReading

/-!
# Responses on a wire

Responses that are sent one after the other arrive one after the other, up to the first fault. That
is the last event on the wire, and the bytes taken until then are a front of what would have been
sent without it.
-/

namespace WireBench

namespace Transport

/-- The fault that an event is, if it is one: bytes or a flush were refused, or none of the bytes
were taken. -/
def Event.fault? : Event → Option Fault
  | .refused _ fault => some fault
  | .taken _ 0 => some .writeZero
  | .flushFailed fault => some fault
  | _ => none

namespace Wire

variable {wire : Wire}

/-- Whether nothing on a wire was a fault, or, with a fault, whether that is its last event and no
other was one. -/
def EndsWith (wire : Wire) : Option Fault → Prop
  | none => ∀ event ∈ wire.past, event.fault? = none
  | some fault => ∃ event past, wire.past = event :: past ∧ event.fault? = some fault ∧
      ∀ event ∈ past, event.fault? = none

theorem endsWith_fresh : fresh.EndsWith none := by
  intro event hevent
  cases hevent

theorem fault?_interrupted {past : List Event} (h : ∀ event ∈ past, event.fault? = none) (n : Nat)
    (bs : Bytes) :
    ∀ event ∈ List.replicate n (Event.interrupted bs) ++ past, event.fault? = none := by
  intro event hevent
  rcases List.mem_append.1 hevent with hevent | hevent
  · rw [List.eq_of_mem_replicate hevent]
    rfl
  · exact h event hevent

theorem endsWith_write (peer : Peer) (bs : Bytes) (h : wire.EndsWith none) :
    (wire.write peer bs).2.EndsWith (wire.write peer bs).1 := by
  fun_induction write peer wire bs with
  | case1 wire => exact h
  | case2 wire bs hb answer past answered fault hr =>
    exact ⟨_, _, rfl, rfl, fault?_interrupted h _ _⟩
  | case3 wire bs hb answer past answered hr =>
    obtain ⟨b, more, rfl⟩ := List.exists_cons_of_ne_nil hb
    refine List.forall_mem_cons.2 ⟨rfl, fault?_interrupted h _ _⟩
  | case4 wire bs hb answer past answered hr =>
    exact ⟨_, _, rfl, rfl, fault?_interrupted h _ _⟩
  | case5 wire bs hb answer past answered most hr hm ih =>
    apply ih
    refine List.forall_mem_cons.2 ⟨?_, fault?_interrupted h _ _⟩
    obtain ⟨b, more, rfl⟩ := List.exists_cons_of_ne_nil hb
    obtain ⟨k, rfl⟩ := Nat.exists_eq_succ_of_ne_zero hm
    rfl

theorem endsWith_flush (peer : Peer) (h : wire.EndsWith none) :
    (wire.flush peer).2.EndsWith (wire.flush peer).1 := by
  rw [flush]
  split
  · exact ⟨_, _, rfl, rfl, h⟩
  · exact List.forall_mem_cons.2 ⟨rfl, h⟩

theorem endsWith_deliver (peer : Peer) (h : wire.EndsWith none) (pieces : List Bytes) :
    (wire.deliver peer pieces).2.EndsWith (wire.deliver peer pieces).1 := by
  induction pieces generalizing wire with
  | nil => exact h
  | cons piece pieces ih =>
    have hwrite := endsWith_write peer piece h
    rw [deliver]
    split
    · next hw =>
      rw [hw] at hwrite
      exact hwrite
    · next hw =>
      rw [hw] at hwrite
      have hflush := endsWith_flush peer hwrite
      split
      · next hf =>
        rw [hf] at hflush
        exact hflush
      · next hf =>
        rw [hf] at hflush
        exact ih hflush

theorem EndsWith.eq_nil {fault? : Option Fault} (h : wire.EndsWith fault?)
    {before after : List Event} {event : Event} (hevents : wire.events = before ++ event :: after)
    (hfault : event.fault? ≠ none) : after = [] := by
  have hpast : wire.past = after.reverse ++ event :: before.reverse := by
    have hreverse := congrArg List.reverse hevents
    simpa [events] using hreverse
  -- The past is kept from the latest event on: a fault is its head, or there is none in it.
  cases fault? with
  | none => exact absurd (h event (by simp [hpast])) hfault
  | some fault =>
    obtain ⟨last, past, hlast, -, hnone⟩ := h
    rw [hlast] at hpast
    cases hafter : after.reverse with
    | nil => simpa using hafter
    | cons e es =>
      rw [hafter] at hpast
      obtain ⟨-, rfl⟩ := List.cons.inj hpast
      exact absurd (hnone event (by simp)) hfault

theorem write_willing (wire : Wire) (bs : Bytes) : (wire.write .willing bs).1 = none := by
  rw [write]
  split
  · rfl
  · rfl

theorem deliver_willing (wire : Wire) (pieces : List Bytes) :
    (wire.deliver .willing pieces).1 = none := by
  induction pieces generalizing wire with
  | nil => rfl
  | cons piece pieces ih =>
    have hwrite := wire.write_willing piece
    rw [deliver]
    split
    · next h => simp [h] at hwrite
    · exact ih _

end Wire

end Transport

namespace Http

open WireBench.Transport

namespace Response

variable {peer : Peer} {chunk : Nat} {wire wire' : Wire} {sendings : List (Bool × Response)}

section

variable {response : Response} {bodyIsDue : Bool} {count : Nat} {fault : Fault}

theorem deliver_of_send_ok
    (h : response.send peer chunk bodyIsDue wire = (.ok count, wire')) :
    wire.deliver peer (response.pieces chunk bodyIsDue) = (none, wire') := by
  rw [send] at h
  split at h
  · cases h
  · next hdeliver =>
    cases h
    exact hdeliver

theorem deliver_of_send_error
    (h : response.send peer chunk bodyIsDue wire = (.error fault, wire')) :
    wire.deliver peer (response.pieces chunk bodyIsDue) = (some fault, wire') := by
  rw [send] at h
  split at h
  · next hdeliver =>
    cases h
    exact hdeliver
  · cases h

theorem bytes_of_send_ok (h : response.send peer chunk bodyIsDue wire = (.ok count, wire')) :
    wire'.bytes = wire.bytes ++ response.sent bodyIsDue := by
  obtain ⟨taken, left, hpieces, hbytes, hleft⟩ :=
    Wire.bytes_deliver peer wire (response.pieces chunk bodyIsDue)
  rw [deliver_of_send_ok h] at hbytes hleft
  rw [hleft rfl, List.append_nil, flatten_pieces] at hpieces
  rw [hbytes, ← hpieces, sent]

theorem bytes_of_send_error (h : response.send peer chunk bodyIsDue wire = (.error fault, wire')) :
    ∃ taken, taken <+: response.sent bodyIsDue ∧ wire'.bytes = wire.bytes ++ taken := by
  obtain ⟨taken, left, hpieces, hbytes, -⟩ :=
    Wire.bytes_deliver peer wire (response.pieces chunk bodyIsDue)
  rw [deliver_of_send_error h] at hbytes
  rw [flatten_pieces] at hpieces
  exact ⟨taken, ⟨left, hpieces.symm⟩, hbytes⟩

theorem endsWith_of_send_ok (h : response.send peer chunk bodyIsDue wire = (.ok count, wire'))
    (hwire : wire.EndsWith none) : wire'.EndsWith none := by
  have hends := Wire.endsWith_deliver peer hwire (response.pieces chunk bodyIsDue)
  rwa [deliver_of_send_ok h] at hends

theorem endsWith_of_send_error
    (h : response.send peer chunk bodyIsDue wire = (.error fault, wire'))
    (hwire : wire.EndsWith none) : wire'.EndsWith (some fault) := by
  have hends := Wire.endsWith_deliver peer hwire (response.pieces chunk bodyIsDue)
  rwa [deliver_of_send_error h] at hends

theorem send_willing_ne_error :
    response.send .willing chunk bodyIsDue wire ≠ (.error fault, wire') := by
  intro h
  have hnone := wire.deliver_willing (response.pieces chunk bodyIsDue)
  rw [deliver_of_send_error h] at hnone
  cases hnone

end

/-- Responses are sent one after the other, each with whether its body is due, up to the first
fault: what becomes of the wire, and how many were sent in full. -/
inductive SentInTurn (peer : Peer) (chunk : Nat) :
    Wire → List (Bool × Response) → Nat → Wire → Prop where
  | done (wire : Wire) : SentInTurn peer chunk wire [] 0 wire
  | next {wire wire' wire'' : Wire} {count sent : Nat} {sending : Bool × Response}
      {sendings : List (Bool × Response)}
      (h : sending.2.send peer chunk sending.1 wire = (.ok count, wire'))
      (hmore : SentInTurn peer chunk wire' sendings sent wire'') :
      SentInTurn peer chunk wire (sending :: sendings) (sent + 1) wire''
  | fault {wire wire' : Wire} {fault : Fault} {sending : Bool × Response}
      {sendings : List (Bool × Response)}
      (h : sending.2.send peer chunk sending.1 wire = (.error fault, wire')) :
      SentInTurn peer chunk wire (sending :: sendings) 0 wire'

/-- What is written of some responses. -/
def sentAll (sendings : List (Bool × Response)) : Bytes :=
  sendings.flatMap fun sending => sending.2.sent sending.1

theorem sentAll_cons (sending : Bool × Response) (sendings : List (Bool × Response)) :
    sentAll (sending :: sendings) = sending.2.sent sending.1 ++ sentAll sendings := rfl

variable {sent : Nat}

theorem SentInTurn.sent_le (h : SentInTurn peer chunk wire sendings sent wire') :
    sent ≤ sendings.length := by
  induction h with
  | done wire => exact Nat.le_refl 0
  | next hsend hmore ih => exact Nat.succ_le_succ ih
  | fault hsend => exact Nat.zero_le _

/-- What is taken of the responses is a front of them. -/
theorem SentInTurn.bytes_prefix (h : SentInTurn peer chunk wire sendings sent wire') :
    wire'.bytes <+: wire.bytes ++ sentAll sendings := by
  induction h with
  | done wire => simp [sentAll]
  | next hsend hmore ih => rwa [bytes_of_send_ok hsend, List.append_assoc, ← sentAll_cons] at ih
  | fault hsend =>
    obtain ⟨taken, hfront, hbytes⟩ := bytes_of_send_error hsend
    rw [hbytes, sentAll_cons, List.prefix_append_right_inj]
    exact hfront.trans (List.prefix_append _ _)

theorem SentInTurn.bytes_willing (h : SentInTurn .willing chunk wire sendings sent wire') :
    wire'.bytes = wire.bytes ++ sentAll sendings := by
  induction h with
  | done wire => simp [sentAll]
  | next hsend hmore ih => rw [ih, bytes_of_send_ok hsend, sentAll_cons, List.append_assoc]
  | fault hsend => exact absurd hsend send_willing_ne_error

/-- All responses are sent, or those before the one at which a fault occurs, and that is the last
event on the wire. -/
theorem SentInTurn.outcome (h : SentInTurn peer chunk wire sendings sent wire')
    (hwire : wire.EndsWith none) :
    (sent = sendings.length ∧ wire'.EndsWith none ∧
      wire'.bytes = wire.bytes ++ sentAll sendings) ∨
      ∃ before sending fault, sendings[sent]? = some sending ∧ before.EndsWith none ∧
        before.bytes = wire.bytes ++ sentAll (sendings.take sent) ∧
          sending.2.send peer chunk sending.1 before = (.error fault, wire') ∧
            wire'.EndsWith (some fault) := by
  induction h with
  | done wire => exact .inl ⟨rfl, hwire, by simp [sentAll]⟩
  | next hsend hmore ih =>
    have hbytes := bytes_of_send_ok hsend
    rcases ih (endsWith_of_send_ok hsend hwire) with ⟨rfl, hends, hall⟩ |
      ⟨before, broken, fault, hbroken, hbefore, htaken, hfault⟩
    · exact .inl ⟨rfl, hends, by rw [hall, hbytes, sentAll_cons, List.append_assoc]⟩
    · refine .inr ⟨before, broken, fault, hbroken, hbefore, ?_, hfault⟩
      rw [htaken, hbytes, List.take_succ_cons, sentAll_cons, List.append_assoc]
  | fault hsend =>
    exact .inr ⟨_, _, _, rfl, hwire, by simp [sentAll], hsend, endsWith_of_send_error hsend hwire⟩

end Response

end Http

end WireBench
