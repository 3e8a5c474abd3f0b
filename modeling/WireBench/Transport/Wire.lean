import WireBench.Bytes
import WireBench.Transport.Fault

/-!
# Writing to a peer

A peer takes as many of the offered bytes as it likes, interrupts, or refuses. Writing offers what
is left until all is taken, and stops at the first refusal. Everything that happens is recorded, so
that what the peer has taken can be compared with what was to be written.
-/

namespace WireBench.Transport

/-- The reply to an offer of bytes: all are taken, or up to so many, or none with a fault. -/
inductive Reply where
  | takeAll
  | take (most : Nat)
  | refuse (fault : Fault)
  deriving DecidableEq, Repr

/-- A reply after some interruptions, upon each of which the same bytes are offered again. -/
structure Answer where
  interruptions : Nat
  reply : Reply
  deriving DecidableEq, Repr

/-- How the other end behaves: its answer to an offer, by the number of offers answered before and
the number of bytes taken so far, and the fault of a flush, if any, by the number of flushes that
succeeded. -/
structure Peer where
  answer : Nat → Nat → Answer
  flushFault : Nat → Option Fault

def Peer.willing : Peer where
  answer _ _ := ⟨0, .takeAll⟩
  flushFault _ := none

inductive Event where
  | interrupted (offered : Bytes)
  | taken (offered : Bytes) (count : Nat)
  | refused (offered : Bytes) (fault : Fault)
  | flushed
  | flushFailed (fault : Fault)
  deriving DecidableEq, Repr

def Event.bytes : Event → Bytes
  | .taken offered count => offered.take count
  | _ => []

/-- What has happened on a wire, the latest event first, with three counts: the offers answered,
the bytes taken and the flushes that succeeded. -/
structure Wire where
  past : List Event
  answered : Nat
  sent : Nat
  flushes : Nat

namespace Wire

def fresh : Wire := ⟨[], 0, 0, 0⟩

def events (wire : Wire) : List Event :=
  wire.past.reverse

def bytes (wire : Wire) : Bytes :=
  wire.events.flatMap Event.bytes

/-- Offers bytes until all are taken; a peer that takes none of them ends that. -/
def write (peer : Peer) (wire : Wire) (bs : Bytes) : Option Fault × Wire :=
  if _hb : bs = [] then (none, wire)
  else
    let answer := peer.answer wire.answered wire.sent
    let past := List.replicate answer.interruptions (.interrupted bs) ++ wire.past
    let answered := wire.answered + 1
    match answer.reply with
    | .refuse fault =>
      (some fault, { wire with past := .refused bs fault :: past, answered := answered })
    | .takeAll =>
      (none, { wire with
        past := .taken bs bs.length :: past
        answered := answered
        sent := wire.sent + bs.length })
    | .take most =>
      if _hm : most = 0 then
        (some .writeZero, { wire with past := .taken bs 0 :: past, answered := answered })
      else
        write peer
          { wire with
            past := .taken bs (bs.take most).length :: past
            answered := answered
            sent := wire.sent + (bs.take most).length }
          (bs.drop most)
termination_by bs.length
decreasing_by
  have := List.length_pos_iff.2 _hb
  rw [List.length_drop]
  omega

def flush (peer : Peer) (wire : Wire) : Option Fault × Wire :=
  match peer.flushFault wire.flushes with
  | some fault => (some fault, { wire with past := .flushFailed fault :: wire.past })
  | none => (none, { wire with past := .flushed :: wire.past, flushes := wire.flushes + 1 })

/-- Writes pieces one after the other, each followed by a flush; the first fault ends that. -/
def deliver (peer : Peer) (wire : Wire) : List Bytes → Option Fault × Wire
  | [] => (none, wire)
  | piece :: pieces =>
    match wire.write peer piece with
    | (some fault, wire) => (some fault, wire)
    | (none, wire) =>
      match wire.flush peer with
      | (some fault, wire) => (some fault, wire)
      | (none, wire) => deliver peer wire pieces

theorem bytes_cons (e : Event) (past : List Event) (answered sent flushes : Nat) :
    (Wire.mk (e :: past) answered sent flushes).bytes =
      (past.reverse.flatMap Event.bytes) ++ e.bytes := by
  simp [bytes, events]

theorem flatMap_bytes_interrupted (n : Nat) (bs : Bytes) (past : List Event) :
    (List.replicate n (Event.interrupted bs) ++ past).reverse.flatMap Event.bytes =
      past.reverse.flatMap Event.bytes := by
  induction n with
  | zero => rfl
  | succ n ih => simp [List.replicate_succ, Event.bytes]

/-- Writing takes a front of the bytes and all of them unless there is a fault, in which case some
are left. -/
theorem bytes_write (peer : Peer) (wire : Wire) (bs : Bytes) :
    ∃ taken left, bs = taken ++ left ∧ (wire.write peer bs).2.bytes = wire.bytes ++ taken ∧
      ((wire.write peer bs).1 = none ↔ left = []) := by
  fun_induction write peer wire bs with
  | case1 wire => exact ⟨[], [], by simp⟩
  | case2 wire bs hb answer past answered fault hr =>
    refine ⟨[], bs, by simp, ?_, by simpa using hb⟩
    rw [bytes_cons, flatMap_bytes_interrupted]
    rfl
  | case3 wire bs hb answer past answered hr =>
    refine ⟨bs, [], by simp, ?_, by simp⟩
    rw [bytes_cons, flatMap_bytes_interrupted]
    simp [Event.bytes, bytes, events]
  | case4 wire bs hb answer past answered hr =>
    refine ⟨[], bs, by simp, ?_, by simpa using hb⟩
    rw [bytes_cons, flatMap_bytes_interrupted]
    simp [Event.bytes, bytes, events]
  | case5 wire bs hb answer past answered most hr hm ih =>
    obtain ⟨taken, left, hd, hw, hn⟩ := ih
    refine ⟨bs.take most ++ taken, left, ?_, ?_, hn⟩
    · rw [List.append_assoc, ← hd, List.take_append_drop]
    · rw [hw, bytes_cons, flatMap_bytes_interrupted, ← List.append_assoc]
      simp [Event.bytes, bytes, events]

theorem bytes_flush (peer : Peer) (wire : Wire) : (wire.flush peer).2.bytes = wire.bytes := by
  rw [flush]
  split <;> simp [bytes, events, Event.bytes]

/-- Delivering takes a front of the pieces put together, and all of it unless there is a fault. -/
theorem bytes_deliver (peer : Peer) (wire : Wire) (pieces : List Bytes) :
    ∃ taken left, pieces.flatten = taken ++ left ∧
      (wire.deliver peer pieces).2.bytes = wire.bytes ++ taken ∧
      ((wire.deliver peer pieces).1 = none → left = []) := by
  induction pieces generalizing wire with
  | nil => exact ⟨[], [], by simp [deliver]⟩
  | cons piece pieces ih =>
    obtain ⟨taken, left, hp, hw, hn⟩ := bytes_write peer wire piece
    rw [deliver]
    split
    · next fault wire' h =>
      rw [h] at hw hn
      exact ⟨taken, left ++ pieces.flatten, by simp [hp], hw, by simp⟩
    · next wire' h =>
      rw [h] at hw hn
      have hl := hn.1 rfl
      have hf := bytes_flush peer wire'
      split
      · next fault wire'' h' =>
        rw [h'] at hf
        refine ⟨taken, pieces.flatten, by simp [hp, hl], ?_, by simp⟩
        exact hf.trans hw
      · next wire'' h' =>
        rw [h'] at hf
        obtain ⟨taken', left', hp', hw', hn'⟩ := ih wire''
        refine ⟨taken ++ taken', left', by simp [hp, hl, hp'], ?_, hn'⟩
        rw [hw', hf]
        simp only [hw, List.append_assoc]

end Wire

end WireBench.Transport
