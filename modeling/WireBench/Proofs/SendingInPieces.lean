import WireBench.Proofs.Transmission

/-!
# Responses sent in pieces

A response goes out as its head and the slices of its body, each of which is offered, and offered
again as far as it is left, until it is taken and then flushed. This holds whatever the peer does
with the offers, and the first fault among its answers is the result.
-/

namespace WireBench

namespace Transport

def Event.offered? : Event → Option Bytes
  | .interrupted offered => some offered
  | .taken offered _ => some offered
  | .refused offered _ => some offered
  | _ => none

def Reply.event (offered : Bytes) : Reply → Event
  | .takeAll => .taken offered offered.length
  | .take most => .taken offered (min most offered.length)
  | .refuse fault => .refused offered fault

/-- What an answer does with the offered bytes: each interruption has them offered again, until the
reply. -/
def Answer.events (answer : Answer) (offered : Bytes) : List Event :=
  List.replicate answer.interruptions (.interrupted offered) ++ [answer.reply.event offered]

/-- The wire after an offer that was answered. -/
def Wire.afterOffer (wire : Wire) (offered : Bytes) (answer : Answer) : Wire where
  past := (answer.events offered).reverse ++ wire.past
  answered := wire.answered + 1
  sent := wire.sent + (answer.reply.event offered).bytes.length
  flushes := wire.flushes

/-- What happens on a wire where bytes are offered and flushes asked for, if the peer has its way
with them. -/
inductive Wire.Run (peer : Peer) : Wire → List Event → Wire → Prop where
  | done (wire : Wire) : Run peer wire [] wire
  | offer {wire wire' : Wire} {more : List Event} (offered : Bytes)
      (hmore : Run peer
        (wire.afterOffer offered (peer.answer wire.answered wire.sent)) more wire') :
      Run peer wire ((peer.answer wire.answered wire.sent).events offered ++ more) wire'
  | flush {wire wire' : Wire} {more : List Event} (hflush : peer.flushFault wire.flushes = none)
      (hmore : Run peer
        { wire with past := .flushed :: wire.past, flushes := wire.flushes + 1 } more wire') :
      Run peer wire (.flushed :: more) wire'
  | flushFault {wire wire' : Wire} {fault : Fault} {more : List Event}
      (hflush : peer.flushFault wire.flushes = some fault)
      (hmore : Run peer { wire with past := .flushFailed fault :: wire.past } more wire') :
      Run peer wire (.flushFailed fault :: more) wire'

/-- What happens when bytes are written: what is left of them is offered until nothing is left, or
until a fault. -/
inductive Writing : Bytes → List Event → Option Fault → Prop where
  | done : Writing [] [] none
  | interrupted {bs : Bytes} {more : List Event} {fault? : Option Fault} (hbs : bs ≠ [])
      (hmore : Writing bs more fault?) : Writing bs (.interrupted bs :: more) fault?
  | taken {bs : Bytes} {count : Nat} {more : List Event} {fault? : Option Fault}
      (hpos : 0 < count) (hle : count ≤ bs.length) (hmore : Writing (bs.drop count) more fault?) :
      Writing bs (.taken bs count :: more) fault?
  | fault {bs : Bytes} {event : Event} {fault : Fault} (hbs : bs ≠ [])
      (hoffered : event.offered? = some bs) (hfault : event.fault? = some fault) :
      Writing bs [event] (some fault)

/-- What happens when pieces are delivered: each is written and then flushed, up to a fault. -/
inductive Delivery : List Bytes → List Event → Option Fault → Prop where
  | done : Delivery [] [] none
  | piece {piece : Bytes} {pieces : List Bytes} {events more : List Event} {fault? : Option Fault}
      (hwriting : Writing piece events none) (hmore : Delivery pieces more fault?) :
      Delivery (piece :: pieces) (events ++ .flushed :: more) fault?
  | broken {piece : Bytes} {pieces : List Bytes} {events : List Event} {fault : Fault}
      (hwriting : Writing piece events (some fault)) : Delivery (piece :: pieces) events (some fault)
  | unflushed {piece : Bytes} {pieces : List Bytes} {events : List Event} {fault : Fault}
      (hwriting : Writing piece events none) :
      Delivery (piece :: pieces) (events ++ [.flushFailed fault]) (some fault)

/-- Whether an event has its place behind others when pieces are delivered: what is offered is what
is left of the piece behind those that were taken and flushed, and what is flushed is a piece that
was taken. -/
inductive Event.IsDue (pieces : List Bytes) (before : List Event) (event : Event) : Prop where
  | offer {sent unsent : List Bytes} {taken left : Bytes}
      (hpieces : pieces = sent ++ (taken ++ left) :: unsent)
      (hflushes : before.count .flushed = sent.length)
      (hbytes : before.flatMap Event.bytes = sent.flatten ++ taken)
      (hoffered : event.offered? = some left) (hleft : left ≠ []) : IsDue pieces before event
  | flush {sent unsent : List Bytes} {piece : Bytes} (hpieces : pieces = sent ++ piece :: unsent)
      (hflushes : before.count .flushed = sent.length)
      (hbytes : before.flatMap Event.bytes = sent.flatten ++ piece)
      (hoffered : event.offered? = none) : IsDue pieces before event

/-- Whether none of some events is a fault or, with a fault, whether that is the last of them and no
other is one. -/
def Event.EndWith (events : List Event) : Option Fault → Prop
  | none => ∀ event ∈ events, event.fault? = none
  | some fault => ∃ before event, events = before ++ [event] ∧ event.fault? = some fault ∧
      ∀ other ∈ before, other.fault? = none

/-! ### What the peer makes of offers and flushes -/

namespace Wire

variable {peer : Peer} {wire wire' wire'' : Wire} {events more : List Event}

theorem Run.trans (h : Run peer wire events wire') (hmore : Run peer wire' more wire'') :
    Run peer wire (events ++ more) wire'' := by
  induction h with
  | done wire => exact hmore
  | offer offered _ ih =>
    rw [List.append_assoc]
    exact .offer offered (ih hmore)
  | flush hflush _ ih => exact .flush hflush (ih hmore)
  | flushFault hflush _ ih => exact .flushFault hflush (ih hmore)

theorem Run.events_eq (h : Run peer wire events wire') : wire'.events = wire.events ++ events := by
  induction h with
  | done wire => rw [List.append_nil]
  | offer offered _ ih =>
    rw [ih]
    simp [Wire.events, afterOffer]
  | flush _ _ ih =>
    rw [ih]
    simp [Wire.events]
  | flushFault _ _ ih =>
    rw [ih]
    simp [Wire.events]

end Wire

theorem Writing.interruptions {bs : Bytes} {events : List Event} {fault? : Option Fault}
    (h : Writing bs events fault?) (hbs : bs ≠ []) (n : Nat) :
    Writing bs (List.replicate n (.interrupted bs) ++ events) fault? := by
  induction n with
  | zero => exact h
  | succ n ih =>
    rw [List.replicate_succ, List.cons_append]
    exact .interrupted hbs ih

namespace Wire

variable {peer : Peer} {wire wire' : Wire}

theorem run_afterOffer (peer : Peer) (wire : Wire) (offered : Bytes) :
    Run peer wire ((peer.answer wire.answered wire.sent).events offered)
      (wire.afterOffer offered (peer.answer wire.answered wire.sent)) := by
  have hrun := Run.offer offered (.done (wire.afterOffer offered
    (peer.answer wire.answered wire.sent)))
  rwa [List.append_nil] at hrun

theorem write_nil (peer : Peer) (wire : Wire) : wire.write peer [] = (none, wire) := by
  rw [write, dif_pos rfl]

/-- Writing is an offer of all bytes and, unless that meets a fault, writing what is left. -/
theorem write_of_ne_nil {bs : Bytes} (hbs : bs ≠ []) (peer : Peer) (wire : Wire) :
    wire.write peer bs =
      match ((peer.answer wire.answered wire.sent).reply.event bs).fault? with
      | some fault => (some fault, wire.afterOffer bs (peer.answer wire.answered wire.sent))
      | none => (wire.afterOffer bs (peer.answer wire.answered wire.sent)).write peer
          (bs.drop ((peer.answer wire.answered wire.sent).reply.event bs).bytes.length) := by
  rw [write, dif_neg hbs]
  obtain ⟨b, more, rfl⟩ := List.exists_cons_of_ne_nil hbs
  cases hreply : (peer.answer wire.answered wire.sent).reply with
  | refuse fault =>
    simp [afterOffer, Answer.events, hreply, Reply.event, Event.bytes, Event.fault?]
  | takeAll =>
    simp [afterOffer, Answer.events, hreply, Reply.event, Event.bytes, Event.fault?, write_nil]
  | take most =>
    cases most with
    | zero => simp [afterOffer, Answer.events, hreply, Reply.event, Event.bytes, Event.fault?]
    | succ most =>
      have hdrop : more.drop (min most more.length) = more.drop most := by
        rcases Nat.le_total most more.length with hle | hle
        · rw [Nat.min_eq_left hle]
        · rw [Nat.min_eq_right hle, List.drop_length, List.drop_eq_nil_of_le hle]
      simp [afterOffer, Answer.events, hreply, Reply.event, Event.bytes, Event.fault?, hdrop]

end Wire

theorem Reply.offered?_event (reply : Reply) (offered : Bytes) :
    (reply.event offered).offered? = some offered := by
  cases reply <;> rfl

theorem Reply.event_of_fault?_eq_none {reply : Reply} {offered : Bytes} (hoffered : offered ≠ [])
    (h : (reply.event offered).fault? = none) :
    ∃ count, reply.event offered = .taken offered count ∧ 0 < count ∧ count ≤ offered.length := by
  have hpos := List.length_pos_iff.2 hoffered
  cases reply with
  | takeAll => exact ⟨_, rfl, hpos, Nat.le_refl _⟩
  | refuse fault => cases h
  | take most =>
    cases most with
    | zero => simp [event, Event.fault?] at h
    | succ most => exact ⟨_, rfl, by omega, Nat.min_le_right ..⟩

namespace Wire

theorem exists_run_write (peer : Peer) (wire : Wire) (bs : Bytes) :
    ∃ events, Run peer wire events (wire.write peer bs).2 ∧
      Writing bs events (wire.write peer bs).1 := by
  by_cases hbs : bs = []
  · subst hbs
    rw [write_nil]
    exact ⟨[], .done wire, .done⟩
  · have hrun := run_afterOffer peer wire bs
    rw [write_of_ne_nil hbs]
    generalize peer.answer wire.answered wire.sent = answer at hrun ⊢
    cases hfault : (answer.reply.event bs).fault? with
    | some fault =>
      have hlast := Writing.fault hbs (answer.reply.offered?_event bs) hfault
      exact ⟨_, hrun, hlast.interruptions hbs _⟩
    | none =>
      obtain ⟨count, hevent, hpos, hle⟩ := Reply.event_of_fault?_eq_none hbs hfault
      have htaken : (answer.reply.event bs).bytes.length = count := by
        simp [hevent, Event.bytes, hle]
      obtain ⟨more, hmore, hwriting⟩ :=
        exists_run_write peer (wire.afterOffer bs answer) (bs.drop count)
      rw [htaken]
      refine ⟨_, hrun.trans hmore, ?_⟩
      rw [Answer.events, hevent, List.append_assoc]
      exact (Writing.taken hpos hle hwriting).interruptions hbs _
termination_by bs.length
decreasing_by
  have := List.length_pos_iff.2 hbs
  rw [List.length_drop]
  omega

theorem exists_run_deliver (peer : Peer) (wire : Wire) (pieces : List Bytes) :
    ∃ events, Run peer wire events (wire.deliver peer pieces).2 ∧
      Delivery pieces events (wire.deliver peer pieces).1 := by
  induction pieces generalizing wire with
  | nil => exact ⟨[], .done wire, .done⟩
  | cons piece pieces ih =>
    obtain ⟨events, hrun, hwriting⟩ := exists_run_write peer wire piece
    rw [deliver]
    split
    · next fault broken hwrite =>
      rw [hwrite] at hrun hwriting
      exact ⟨events, hrun, .broken hwriting⟩
    · next written hwrite =>
      rw [hwrite] at hrun hwriting
      cases hfault : peer.flushFault written.flushes with
      | some fault =>
        have hflush : written.flush peer =
            (some fault, { written with past := .flushFailed fault :: written.past }) := by
          rw [flush, hfault]
        rw [hflush]
        exact ⟨_, hrun.trans (.flushFault hfault (.done _)), .unflushed hwriting⟩
      | none =>
        have hflush : written.flush peer =
            (none, { written with past := .flushed :: written.past,
                                  flushes := written.flushes + 1 }) := by
          rw [flush, hfault]
        rw [hflush]
        obtain ⟨more, hmore, hdelivery⟩ := ih
          { written with past := .flushed :: written.past, flushes := written.flushes + 1 }
        exact ⟨_, hrun.trans (.flush hfault hmore), .piece hwriting hdelivery⟩

end Wire

/-! ### What is offered, taken and flushed -/

def Event.InTurn (pieces : List Bytes) (before events : List Event) : Prop :=
  ∀ front event back, events = front ++ event :: back → event.IsDue pieces (before ++ front)

namespace Event

variable {pieces : List Bytes} {before events more : List Event} {event : Event} {fault : Fault}

theorem inTurn_nil : InTurn pieces before [] := by
  intro front event back h
  simp at h

theorem InTurn.cons (h : event.IsDue pieces before) (hmore : InTurn pieces (before ++ [event]) more) :
    InTurn pieces before (event :: more) := by
  intro front event' back hevents
  cases front with
  | nil =>
    obtain ⟨rfl, rfl⟩ := List.cons.inj hevents
    rwa [List.append_nil]
  | cons first front =>
    obtain ⟨rfl, hrest⟩ := List.cons.inj hevents
    have hdue := hmore front event' back hrest
    rwa [List.append_assoc] at hdue

theorem InTurn.append (h : InTurn pieces before events)
    (hmore : InTurn pieces (before ++ events) more) : InTurn pieces before (events ++ more) := by
  induction events generalizing before with
  | nil => simpa using hmore
  | cons event events ih =>
    have hdue := h [] event events rfl
    rw [List.append_nil] at hdue
    refine .cons hdue (ih ?_ (by simpa using hmore))
    intro front event' back hevents
    rw [List.append_assoc]
    exact h (event :: front) event' back (by rw [hevents, List.cons_append])

theorem EndWith.append {fault? : Option Fault} (hbefore : ∀ event ∈ before, event.fault? = none)
    (h : EndWith events fault?) : EndWith (before ++ events) fault? := by
  cases fault? with
  | none => exact List.forall_mem_append.2 ⟨hbefore, h⟩
  | some fault =>
    obtain ⟨front, event, rfl, hfault, hfront⟩ := h
    exact ⟨before ++ front, event, (List.append_assoc ..).symm, hfault,
      List.forall_mem_append.2 ⟨hbefore, hfront⟩⟩

theorem bytes_of_fault? (h : event.fault? = some fault) : event.bytes = [] := by
  cases event with
  | taken offered count =>
    cases count with
    | zero => rfl
    | succ count => cases h
  | interrupted offered => rfl
  | refused offered fault => rfl
  | flushed => rfl
  | flushFailed fault => rfl

theorem ne_flushed_of_offered? {offered : Bytes} (h : event.offered? = some offered) :
    event ≠ .flushed := by
  rintro rfl
  cases h

end Event

namespace Writing

variable {bs : Bytes} {events : List Event} {fault? : Option Fault}

/-- What is taken is a front of the bytes that are written, and all of them unless there is a
fault. -/
theorem exists_left (h : Writing bs events fault?) :
    ∃ left, bs = events.flatMap Event.bytes ++ left ∧ (left = [] ↔ fault? = none) := by
  induction h with
  | done => exact ⟨[], rfl, by simp⟩
  | interrupted hbs _ ih => exact ih
  | @taken bs count more fault? hpos hle _ ih =>
    obtain ⟨left, hdrop, hleft⟩ := ih
    refine ⟨left, ?_, hleft⟩
    rw [List.flatMap_cons, List.append_assoc, ← hdrop]
    exact (List.take_append_drop count bs).symm
  | @fault bs event fault hbs hoffered hfault =>
    refine ⟨bs, ?_, by simp [hbs]⟩
    rw [List.flatMap_cons, Event.bytes_of_fault? hfault]
    rfl

theorem bytes_eq (h : Writing bs events none) : events.flatMap Event.bytes = bs := by
  obtain ⟨left, hbs, hleft⟩ := h.exists_left
  rw [hbs, hleft.2 rfl, List.append_nil]

theorem flushed_not_mem (h : Writing bs events fault?) : .flushed ∉ events := by
  induction h with
  | done => exact List.not_mem_nil
  | interrupted _ _ ih => simpa using ih
  | taken _ _ _ ih => simpa using ih
  | fault _ hoffered _ => simpa using (Event.ne_flushed_of_offered? hoffered).symm

theorem endWith (h : Writing bs events fault?) : Event.EndWith events fault? := by
  induction h with
  | done => exact List.forall_mem_nil _
  | interrupted _ _ ih => exact .append (List.forall_mem_singleton.2 rfl) ih
  | @taken bs count more fault? hpos hle _ ih =>
    obtain ⟨count, rfl⟩ := Nat.exists_eq_add_of_lt hpos
    exact .append (List.forall_mem_singleton.2 rfl) ih
  | fault _ _ hfault => exact ⟨[], _, rfl, hfault, List.forall_mem_nil _⟩

/-- Behind the pieces that were taken and flushed, and behind what was taken of the next one, what
happens until that is written has its place. -/
theorem inTurn (h : Writing bs events fault?) {pieces sent unsent : List Bytes} {taken : Bytes}
    {before : List Event} (hpieces : pieces = sent ++ (taken ++ bs) :: unsent)
    (hflushes : before.count .flushed = sent.length)
    (hbytes : before.flatMap Event.bytes = sent.flatten ++ taken) :
    Event.InTurn pieces before events := by
  induction h generalizing taken before with
  | done => exact Event.inTurn_nil
  | interrupted hbs _ ih =>
    refine .cons (.offer hpieces hflushes hbytes rfl hbs) (ih hpieces ?_ ?_)
    · simpa using hflushes
    · simpa [Event.bytes] using hbytes
  | @taken bs count more fault? hpos hle _ ih =>
    have hbs : bs ≠ [] := List.length_pos_iff.1 (by omega)
    refine .cons (.offer hpieces hflushes hbytes rfl hbs) (@ih (taken ++ bs.take count) _ ?_ ?_ ?_)
    · rw [hpieces, List.append_assoc taken, List.take_append_drop]
    · simpa using hflushes
    · simp [hbytes, Event.bytes]
  | fault hbs hoffered hfault =>
    exact .cons (.offer hpieces hflushes hbytes hoffered hbs) Event.inTurn_nil

section

variable {piece : Bytes} {all sent unsent : List Bytes} {before : List Event}
  (hpieces : all = sent ++ piece :: unsent) (hflushes : before.count .flushed = sent.length)
  (hbytes : before.flatMap Event.bytes = sent.flatten)

include hpieces hflushes hbytes

theorem inTurn_piece (h : Writing piece events fault?) : Event.InTurn all before events :=
  h.inTurn (show all = sent ++ ([] ++ piece) :: unsent from hpieces) hflushes (by simpa using hbytes)

/-- A piece that is written has its flush next. -/
theorem flush_isDue (h : Writing piece events none) {event : Event}
    (hevent : event.offered? = none) : event.IsDue all (before ++ events) := by
  refine .flush hpieces ?_ ?_ hevent
  · rw [List.count_append, List.count_eq_zero_of_not_mem h.flushed_not_mem, hflushes, Nat.add_zero]
  · rw [List.flatMap_append, hbytes, h.bytes_eq]

end

end Writing

namespace Delivery

variable {pieces : List Bytes} {events : List Event} {fault? : Option Fault}

/-- What is taken is a front of the pieces put together, and all of it unless there is a fault; if
all of it is, the fault is one of a flush. -/
theorem exists_left (h : Delivery pieces events fault?) :
    ∃ left, pieces.flatten = events.flatMap Event.bytes ++ left ∧ (fault? = none → left = []) ∧
      ∀ fault, fault? = some fault → left ≠ [] ∨ .flushFailed fault ∈ events := by
  induction h with
  | done => exact ⟨[], rfl, fun _ => rfl, by simp⟩
  | piece hwriting _ ih =>
    obtain ⟨left, hpieces, hnone, hsome⟩ := ih
    refine ⟨left, ?_, hnone, fun fault hfault => (hsome fault hfault).imp_right ?_⟩
    · simp [hwriting.bytes_eq, hpieces, Event.bytes]
    · intro hmem
      simp [hmem]
  | @broken piece pieces events fault hwriting =>
    obtain ⟨left, hpiece, hleft⟩ := hwriting.exists_left
    have hne : left ≠ [] := fun hnil => by simpa using hleft.1 hnil
    exact ⟨left ++ pieces.flatten, by simp [hpiece], by simp, fun _ _ => .inl (by simp [hne])⟩
  | @unflushed piece pieces events fault hwriting =>
    refine ⟨pieces.flatten, ?_, by simp, ?_⟩
    · simp [hwriting.bytes_eq, Event.bytes]
    · rintro _ ⟨⟩
      exact .inr (by simp)

/-- At any time what was taken is a front of the pieces put together. -/
theorem bytes_prefix (h : Delivery pieces events fault?) {front : List Event}
    (hfront : front <+: events) : front.flatMap Event.bytes <+: pieces.flatten := by
  obtain ⟨left, hpieces, -⟩ := h.exists_left
  obtain ⟨back, rfl⟩ := hfront
  rw [hpieces, List.flatMap_append, List.append_assoc]
  exact List.prefix_append _ _

theorem endWith (h : Delivery pieces events fault?) : Event.EndWith events fault? := by
  induction h with
  | done => exact List.forall_mem_nil _
  | piece hwriting _ ih =>
    exact .append hwriting.endWith (.append (List.forall_mem_singleton.2 rfl) ih)
  | broken hwriting => exact hwriting.endWith
  | unflushed hwriting => exact .append hwriting.endWith ⟨[], _, rfl, rfl, List.forall_mem_nil _⟩

theorem eq_none_iff (h : Delivery pieces events fault?) :
    fault? = none ↔ events.flatMap Event.bytes = pieces.flatten ∧
      ∀ fault, .flushFailed fault ∉ events := by
  obtain ⟨left, hpieces, hnone, hsome⟩ := h.exists_left
  constructor
  · rintro rfl
    refine ⟨by rw [hpieces, hnone rfl, List.append_nil], fun fault hmem => ?_⟩
    cases h.endWith _ hmem
  · rintro ⟨hall, hflushed⟩
    have hnil : left = [] := by
      rw [hpieces] at hall
      exact List.append_right_eq_self.1 hall.symm
    cases fault? with
    | none => rfl
    | some fault =>
      rcases hsome fault rfl with hne | hmem
      · exact absurd hnil hne
      · exact absurd hmem (hflushed fault)

theorem count_flushed (h : Delivery pieces events none) : events.count .flushed = pieces.length := by
  generalize hnone : (none : Option Fault) = fault? at h
  induction h with
  | done => rfl
  | piece hwriting _ ih =>
    rw [List.count_append, List.count_eq_zero_of_not_mem hwriting.flushed_not_mem,
      List.count_cons_self, ih hnone, List.length_cons, Nat.zero_add]
  | broken hwriting => cases hnone
  | unflushed hwriting => cases hnone

/-- Behind the pieces that were taken and flushed, what happens when the others are delivered has
its place. -/
theorem inTurn (h : Delivery pieces events fault?) {all sent : List Bytes} {before : List Event}
    (hpieces : all = sent ++ pieces) (hflushes : before.count .flushed = sent.length)
    (hbytes : before.flatMap Event.bytes = sent.flatten) : Event.InTurn all before events := by
  induction h generalizing sent before with
  | done => exact Event.inTurn_nil
  | @piece piece pieces events more fault? hwriting _ ih =>
    refine .append (hwriting.inTurn_piece hpieces hflushes hbytes)
      (.cons (hwriting.flush_isDue hpieces hflushes hbytes rfl) (@ih (sent ++ [piece]) _ ?_ ?_ ?_))
    · simp [hpieces]
    · simp [hflushes, List.count_eq_zero_of_not_mem hwriting.flushed_not_mem]
    · simp [hbytes, hwriting.bytes_eq, Event.bytes]
  | broken hwriting => exact hwriting.inTurn_piece hpieces hflushes hbytes
  | unflushed hwriting =>
    exact .append (hwriting.inTurn_piece hpieces hflushes hbytes)
      (.cons (hwriting.flush_isDue hpieces hflushes hbytes rfl) Event.inTurn_nil)

end Delivery

end Transport

namespace Http

open WireBench.Transport

def slices (size : Nat) (bs : Bytes) : List Bytes :=
  (List.range ((bs.length + size - 1) / size)).map fun i => (bs.drop (i * size)).take size

theorem piecesOf_eq_slices {size : Nat} (hsize : 0 < size) (bs : Bytes) :
    piecesOf size bs = slices size bs := by
  fun_induction piecesOf size bs with
  | case1 bs h =>
    have hnil : bs = [] := h.resolve_right (Nat.pos_iff_ne_zero.1 hsize)
    have hnone : (size - 1) / size = 0 := Nat.div_eq_of_lt (by omega)
    simp [slices, hnil, hnone]
  | case2 bs h ih =>
    have hpos := List.length_pos_iff.2 (not_or.1 h).1
    have hcount : (bs.length + size - 1) / size = ((bs.drop size).length + size - 1) / size + 1 := by
      have hfirst : bs.length + size - 1 = bs.length - 1 + size := by omega
      rw [hfirst, Nat.add_div_right _ hsize, List.length_drop]
      by_cases hle : size ≤ bs.length
      · rw [Nat.sub_add_cancel hle]
      · rw [Nat.div_eq_of_lt (by omega), Nat.div_eq_of_lt (by omega)]
    rw [ih, slices, slices, hcount, List.range_succ_eq_map, List.map_cons, List.map_map]
    simp [Nat.add_mul, Function.comp_def, Nat.add_comm]

theorem length_slices (size : Nat) (bs : Bytes) :
    (slices size bs).length = (bs.length + size - 1) / size := by
  rw [slices, List.length_map, List.length_range]

theorem length_of_mem_slices {size : Nat} (hsize : 0 < size) {bs slice : Bytes}
    (h : slice ∈ slices size bs) : 0 < slice.length ∧ slice.length ≤ size := by
  rw [← piecesOf_eq_slices hsize] at h
  exact length_of_mem_piecesOf h

namespace Response

variable (response : Response) (peer : Peer) (chunk : Nat) (withBody : Bool) (wire : Wire)

theorem pieces_eq : response.pieces chunk withBody =
    response.head :: if withBody then slices (max chunk 1) response.body else [] := by
  rw [pieces, piecesOf_eq_slices (by omega)]

/-- Sending is delivering the pieces of a response, and counting its body if there is no fault. -/
theorem send_eq : response.send peer chunk withBody wire =
    (match (wire.deliver peer (response.pieces chunk withBody)).1 with
      | some fault => .error fault
      | none => .ok (if withBody then response.body.length else 0),
      (wire.deliver peer (response.pieces chunk withBody)).2) := by
  rw [send]
  rcases wire.deliver peer (response.pieces chunk withBody) with ⟨_ | fault, wire'⟩ <;> rfl

/-- Whatever the peer does with what it is offered, it is offered the head of a response and then
the slices of its body, each of which is offered, as far as it is left, once those before it have
been taken and flushed. What it has taken is a front of the response at any time. The bytes of the
body are counted if all of the response was taken and every flush succeeded, and then there was one
flush for each piece; or else the result is the first fault, with which everything ends. -/
theorem send_in_pieces :
    let size := max chunk 1
    let bodySlices := if withBody then slices size response.body else []
    let pieces := response.head :: bodySlices
    let whole := response.sent withBody
    let run := response.send peer chunk withBody wire
    ∃ happened, wire.Run peer happened run.2 ∧ run.2.events = wire.events ++ happened ∧
      pieces.flatten = whole ∧ (∀ slice ∈ bodySlices, 0 < slice.length ∧ slice.length ≤ size) ∧
      (∀ front event back, happened = front ++ event :: back → event.IsDue pieces front) ∧
      (∀ front, front <+: happened → front.flatMap Event.bytes <+: whole) ∧
      ((∃ n, run.1 = .ok n) ↔
        happened.flatMap Event.bytes = whole ∧ ∀ fault, .flushFailed fault ∉ happened) ∧
      (∀ n, run.1 = .ok n → n = (if withBody then response.body.length else 0) ∧
        happened.count .flushed =
          1 + if withBody then (response.body.length + size - 1) / size else 0) ∧
      ∀ fault, run.1 = .error fault → ∃ before event, happened = before ++ [event] ∧
        event.fault? = some fault ∧ ∀ other ∈ before, other.fault? = none := by
  intro size bodySlices pieces whole run
  have hrun : run = _ := response.send_eq peer chunk withBody wire
  have hpieces : response.pieces chunk withBody = pieces := response.pieces_eq chunk withBody
  have hwhole : pieces.flatten = whole := by
    rw [← hpieces, response.flatten_pieces, ← sent]
  have hslices : ∀ slice ∈ bodySlices, 0 < slice.length ∧ slice.length ≤ size := by
    intro slice hslice
    simp only [bodySlices] at hslice
    split at hslice
    · exact length_of_mem_slices (by omega) hslice
    · cases hslice
  obtain ⟨happened, hhappened, hdelivery⟩ := wire.exists_run_deliver peer pieces
  rw [hpieces] at hrun
  generalize wire.deliver peer pieces = delivered at hrun hhappened hdelivery
  obtain ⟨fault?, wire'⟩ := delivered
  refine ⟨happened, hrun ▸ hhappened, hrun ▸ hhappened.events_eq, hwhole, hslices,
    @Delivery.inTurn _ _ _ hdelivery pieces [] [] rfl rfl rfl,
    fun front hfront => hwhole ▸ hdelivery.bytes_prefix hfront, ?_⟩
  rw [hrun, ← hwhole, ← hdelivery.eq_none_iff]
  cases fault? with
  | none =>
    refine ⟨iff_of_true ⟨_, rfl⟩ rfl, ?_, ?_⟩
    · rintro n ⟨⟩
      refine ⟨rfl, ?_⟩
      rw [hdelivery.count_flushed, List.length_cons, Nat.add_comm]
      simp only [bodySlices]
      split
      · rw [length_slices]
      · rfl
    · rintro fault ⟨⟩
  | some fault =>
    refine ⟨iff_of_false ?_ (Option.some_ne_none fault), ?_, ?_⟩
    · rintro ⟨n, ⟨⟩⟩
    · rintro n ⟨⟩
    · rintro _ ⟨⟩
      exact hdelivery.endWith

end Response

end Http

end WireBench
