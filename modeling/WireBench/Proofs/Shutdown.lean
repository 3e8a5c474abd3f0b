import WireBench.Server.Lifecycle

/-!
# Shutting down in any order of steps

The flag is looked at before every attempt to accept, so one connection may still be accepted after
it is set, and none once the thread has been joined. Only the flag ends the thread. Whoever shuts the
server down again finds the thread joined, and changes nothing.
-/

namespace WireBench.Server.Lifecycle

/-! ### One step -/

/-- What can happen to a server and what it leads to, rule by rule. -/
inductive Step (server : Lifecycle) : Happening → Lifecycle → Prop where
  | connect (hlistening : server.isListening = true) :
      Step server .connect { server with pending := server.pending + 1 }
  | refuse (hlistening : server.isListening = false) : Step server .connect server
  | goOn (hloop : server.loop = .checking) (hflag : server.flag = false) :
      Step server .check { server with loop := .accepting }
  | stop (hloop : server.loop = .checking) (hflag : server.flag = true) :
      Step server .check { server with loop := .ended, pending := 0 }
  | accept (hloop : server.loop = .accepting) (hpending : 0 < server.pending) :
      Step server .accept { server with loop := .checking, pending := server.pending - 1 }
  | findNone (hloop : server.loop = .accepting) (hpending : server.pending = 0) :
      Step server .findNone { server with loop := .checking }
  | failToAccept (hloop : server.loop = .accepting) :
      Step server .failToAccept { server with loop := .checking }
  | askRunning (howner : server.owner = .free) :
      Step server (.askRunning server.isRunning) server
  | shutDown (howner : server.owner = .free) :
      Step server .shutDown { server with flag := true, owner := .shuttingDown false }
  | wait (howner : server.owner = .free) : Step server .wait { server with owner := .waiting }
  | drop (howner : server.owner = .free ∨ server.owner = .waiting ∧ server.holdsThread = false) :
      Step server .drop { server with flag := true, owner := .shuttingDown true }
  | join (howner : server.isJoining = true) (hthread : server.holdsThread = true)
      (hloop : server.loop = .ended) : Step server .join { server with holdsThread := false }
  | comeBack {last : Bool} (howner : server.owner = .shuttingDown last)
      (hthread : server.holdsThread = false) :
      Step server .comeBack { server with owner := if last then .gone else .free }

variable {server next later : Lifecycle} {happening : Happening} {happenings : List Happening}

theorem isFree_iff : server.isFree = true ↔ server.owner = .free :=
  beq_iff_eq

theorem Step.step?_eq (h : Step server happening next) : server.step? happening = some next := by
  cases h with
  | connect hlistening => simp [step?, hlistening]
  | refuse hlistening => simp [step?, hlistening]
  | goOn hloop hflag => simp [step?, hloop, hflag]
  | stop hloop hflag => simp [step?, hloop, hflag]
  | accept hloop hpending => simp [step?, hloop, hpending]
  | findNone hloop hpending => simp [step?, hloop, hpending]
  | failToAccept hloop => simp [step?, hloop]
  | askRunning howner => simp [step?, isFree_iff, howner]
  | shutDown howner => simp [step?, isFree_iff, howner]
  | wait howner => simp [step?, isFree_iff, howner]
  | drop howner => simp [step?, isFree_iff, howner]
  | join howner hthread hloop => simp [step?, howner, hthread, hloop]
  | comeBack howner hthread => simp [step?, howner, hthread]

theorem step_of_step? (h : server.step? happening = some next) : Step server happening next := by
  cases happening with
  | connect =>
    obtain rfl := Option.some.inj h
    split
    next hlistening => exact .connect hlistening
    next hlistening => exact .refuse ((Bool.not_eq_true _).mp hlistening)
  | check =>
    obtain ⟨hloop, heq⟩ := Option.ite_none_right_eq_some.1 h
    obtain rfl := Option.some.inj heq
    split
    next hflag => exact .stop hloop hflag
    next hflag => exact .goOn hloop ((Bool.not_eq_true _).mp hflag)
  | accept =>
    obtain ⟨⟨hloop, hpending⟩, heq⟩ := Option.ite_none_right_eq_some.1 h
    exact Option.some.inj heq ▸ .accept hloop hpending
  | findNone =>
    obtain ⟨⟨hloop, hpending⟩, heq⟩ := Option.ite_none_right_eq_some.1 h
    exact Option.some.inj heq ▸ .findNone hloop hpending
  | failToAccept =>
    obtain ⟨hloop, heq⟩ := Option.ite_none_right_eq_some.1 h
    exact Option.some.inj heq ▸ .failToAccept hloop
  | askRunning answer =>
    obtain ⟨⟨hfree, rfl⟩, heq⟩ := Option.ite_none_right_eq_some.1 h
    exact Option.some.inj heq ▸ .askRunning (isFree_iff.1 hfree)
  | shutDown =>
    obtain ⟨hfree, heq⟩ := Option.ite_none_right_eq_some.1 h
    exact Option.some.inj heq ▸ .shutDown (isFree_iff.1 hfree)
  | wait =>
    obtain ⟨hfree, heq⟩ := Option.ite_none_right_eq_some.1 h
    exact Option.some.inj heq ▸ .wait (isFree_iff.1 hfree)
  | drop =>
    obtain ⟨howner, heq⟩ := Option.ite_none_right_eq_some.1 h
    exact Option.some.inj heq ▸ .drop (howner.imp_left isFree_iff.1)
  | join =>
    obtain ⟨⟨howner, hthread, hloop⟩, heq⟩ := Option.ite_none_right_eq_some.1 h
    exact Option.some.inj heq ▸ .join howner hthread hloop
  | comeBack =>
    rw [step?] at h
    split at h
    next last howner =>
      obtain ⟨hthread, heq⟩ := Option.ite_none_left_eq_some.1 h
      exact Option.some.inj heq ▸ .comeBack howner ((Bool.not_eq_true _).mp hthread)
    next => cases h

theorem step?_eq_some_iff : server.step? happening = some next ↔ Step server happening next :=
  ⟨step_of_step?, Step.step?_eq⟩

/-! ### Several steps -/

theorem run?_cons_eq_some_iff :
    server.run? (happening :: happenings) = some later ↔
      ∃ next, Step server happening next ∧ next.run? happenings = some later := by
  rw [run?]
  cases hstep : server.step? happening with
  | none => simp [← step?_eq_some_iff, hstep]
  | some next => simp [← step?_eq_some_iff, hstep]

theorem preserved_of_run {P : Lifecycle → Prop}
    (hstep : ∀ {server happening next}, Step server happening next → P server → P next)
    (hrun : server.run? happenings = some later) (h : P server) : P later := by
  induction happenings generalizing server with
  | nil => exact Option.some.inj hrun ▸ h
  | cons happening happenings ih =>
    obtain ⟨next, hnext, hlater⟩ := run?_cons_eq_some_iff.1 hrun
    exact ih hlater (hstep hnext h)

/-- Whatever happens in a run happens in a state in which what every step keeps still holds. -/
theorem exists_step_of_mem {P : Lifecycle → Prop}
    (hstep : ∀ {server happening next}, Step server happening next → P server → P next)
    (hrun : server.run? happenings = some later) (h : P server) (hmem : happening ∈ happenings) :
    ∃ before next rest, Step before happening next ∧ P before ∧ next.run? rest = some later := by
  induction happenings generalizing server with
  | nil => cases hmem
  | cons first happenings ih =>
    obtain ⟨next, hnext, hlater⟩ := run?_cons_eq_some_iff.1 hrun
    rcases List.mem_cons.1 hmem with rfl | hmem
    · exact ⟨server, next, happenings, hnext, h, hlater⟩
    · exact ih hlater (hstep hnext h) hmem

/-! ### What holds in all states that can be reached -/

/-- The thread ends only once the flag is set and is joined only once it has ended; whoever is done
with shutting down has joined it. -/
structure IsSound (server : Lifecycle) : Prop where
  flag_of_ended : server.loop = .ended → server.flag = true
  ended_of_joined : server.holdsThread = false → server.loop = .ended
  flag_of_shuttingDown : ∀ last, server.owner = .shuttingDown last → server.flag = true
  joined_of_not_isJoining : server.flag = true → server.isJoining = false →
    server.holdsThread = false

theorem isSound_started : IsSound started := by
  constructor <;> decide +revert

theorem Step.isSound (h : Step server happening next) (hsound : IsSound server) :
    IsSound next := by
  obtain ⟨hended, hjoined, hshutting, hidle⟩ := hsound
  cases h with
  | connect | refuse | askRunning => exact ⟨hended, hjoined, hshutting, hidle⟩
  | goOn hloop | accept hloop | findNone hloop | failToAccept hloop =>
    exact ⟨nofun, fun h => (nomatch hloop.symm.trans (hjoined h)), hshutting, hidle⟩
  | stop _ hflag => exact ⟨fun _ => hflag, fun _ => rfl, hshutting, hidle⟩
  | shutDown | drop => exact ⟨fun _ => rfl, hjoined, fun _ _ => rfl, nofun⟩
  | wait => exact ⟨hended, hjoined, nofun, nofun⟩
  | join _ _ hloop => exact ⟨hended, fun _ => hloop, hshutting, fun _ _ => rfl⟩
  | @comeBack last _ hthread =>
    refine ⟨hended, hjoined, ?_, fun _ _ => hthread⟩
    cases last <;> exact nofun

theorem isSound_of_run (hrun : started.run? happenings = some server) : IsSound server :=
  preserved_of_run Step.isSound hrun isSound_started

/-! ### The flag -/

theorem Step.flag_iff (h : Step server happening next) :
    next.flag = true ↔ server.flag = true ∨ happening = .shutDown ∨ happening = .drop := by
  cases h <;> simp

/-- The flag is set by shutting down and by letting go, and by nothing else. -/
theorem flag_iff_of_run (hrun : server.run? happenings = some later) :
    later.flag = true ↔ server.flag = true ∨ .shutDown ∈ happenings ∨ .drop ∈ happenings := by
  induction happenings generalizing server with
  | nil =>
    obtain rfl := Option.some.inj hrun
    simp
  | cons happening happenings ih =>
    obtain ⟨next, hnext, hlater⟩ := run?_cons_eq_some_iff.1 hrun
    rw [ih hlater, hnext.flag_iff, List.mem_cons, List.mem_cons]
    grind

theorem Step.flag_eq (h : Step server happening next) (hflag : server.flag = true) :
    next.flag = true :=
  h.flag_iff.2 (.inl hflag)

theorem Step.eq_check_of_ended (h : Step server happening next) (hloop : server.loop ≠ .ended)
    (hended : next.loop = .ended) : happening = .check ∧ server.flag = true := by
  cases h with
  | stop _ hflag => exact ⟨rfl, hflag⟩
  | goOn | accept | findNone | failToAccept => cases hended
  | connect | refuse | askRunning | shutDown | wait | drop | join | comeBack =>
    exact absurd hended hloop

theorem Step.loop_of_outcome (h : Step server happening next)
    (houtcome : happening = .accept ∨ happening = .findNone ∨ happening = .failToAccept) :
    next.loop = .checking := by
  cases h with
  | accept | findNone | failToAccept => rfl
  | _ => simp at houtcome

/-! ### After the flag is set -/

/-- How many connections the thread may still accept before it looks at the flag. -/
def acceptsLeft (server : Lifecycle) : Nat :=
  if server.loop = .accepting then 1 else 0

theorem acceptsLeft_le (server : Lifecycle) : server.acceptsLeft ≤ 1 := by
  rw [acceptsLeft]
  split <;> decide

theorem Step.count_accept_le (h : Step server happening next) (hflag : server.flag = true) :
    [happening].count .accept + next.acceptsLeft ≤ server.acceptsLeft := by
  cases h with
  | goOn _ hunset => exact nomatch hunset.symm.trans hflag
  | stop | findNone | failToAccept => exact Nat.zero_le _
  | accept hloop => simp [acceptsLeft, hloop]
  | connect | refuse | askRunning | shutDown | wait | drop | join | comeBack =>
    simp [acceptsLeft]

/-- Once the flag is set, the thread accepts at most what it was about to accept. -/
theorem count_accept_le_of_run (hrun : server.run? happenings = some later)
    (hflag : server.flag = true) : happenings.count .accept ≤ server.acceptsLeft := by
  induction happenings generalizing server with
  | nil => exact Nat.zero_le _
  | cons happening happenings ih =>
    obtain ⟨next, hnext, hlater⟩ := run?_cons_eq_some_iff.1 hrun
    have hstep := hnext.count_accept_le hflag
    have hrest := ih hlater (hnext.flag_eq hflag)
    have hcons := @List.count_append _ _ .accept [happening] happenings
    rw [List.singleton_append] at hcons
    omega

theorem Step.ne_askRunning (h : Step server happening next) (hflag : server.flag = true) :
    happening ≠ .askRunning true := by
  cases h with
  | askRunning => simp [isRunning, hflag]
  | _ => exact nofun

theorem askRunning_not_mem_of_run (hrun : server.run? happenings = some later)
    (hflag : server.flag = true) : .askRunning true ∉ happenings := by
  intro hmem
  obtain ⟨_, _, _, hasked, hset, -⟩ := exists_step_of_mem Step.flag_eq hrun hflag hmem
  exact hasked.ne_askRunning hset rfl

/-! ### After the thread has been joined -/

/-- The thread has ended on the flag and has been joined. -/
structure IsOver (server : Lifecycle) : Prop where
  flag_eq : server.flag = true
  loop_eq : server.loop = .ended
  holdsThread_eq : server.holdsThread = false

theorem IsSound.isOver (h : IsSound server) (hflag : server.flag = true)
    (hthread : server.holdsThread = false) : IsOver server :=
  ⟨hflag, h.ended_of_joined hthread, hthread⟩

theorem Step.of_isOver (h : Step server happening next) (hover : IsOver server) :
    next = { server with owner := next.owner } ∧ happening ≠ .accept ∧ happening ≠ .join := by
  obtain ⟨hflag, hloop, hthread⟩ := hover
  cases h with
  | connect hlistening => simp [isListening, hloop] at hlistening
  | goOn hchecking | stop hchecking => exact nomatch hloop.symm.trans hchecking
  | accept haccepting | findNone haccepting | failToAccept haccepting =>
    exact nomatch hloop.symm.trans haccepting
  | join _ hheld => exact nomatch hthread.symm.trans hheld
  | refuse | askRunning | wait | comeBack => exact ⟨rfl, nofun, nofun⟩
  | shutDown | drop => exact ⟨by rw [hflag], nofun, nofun⟩

theorem Step.isOver (h : Step server happening next) (hover : IsOver server) : IsOver next := by
  rw [(h.of_isOver hover).1]
  exact ⟨hover.flag_eq, hover.loop_eq, hover.holdsThread_eq⟩

theorem of_run_of_isOver (hrun : server.run? happenings = some later) (hover : IsOver server) :
    later = { server with owner := later.owner } ∧ .accept ∉ happenings ∧ .join ∉ happenings := by
  refine ⟨?_, fun haccept => ?_, fun hjoin => ?_⟩
  · have hstep : ∀ {state happening next}, Step state happening next →
        IsOver state ∧ state = { server with owner := state.owner } →
        IsOver next ∧ next = { server with owner := next.owner } := by
      rintro state happening next hnext ⟨hstate, hsame⟩
      refine ⟨hnext.isOver hstate, ?_⟩
      rw [(hnext.of_isOver hstate).1, hsame]
    exact (preserved_of_run hstep hrun ⟨hover, rfl⟩).2
  · obtain ⟨_, _, _, haccepted, hstate, -⟩ := exists_step_of_mem Step.isOver hrun hover haccept
    exact (haccepted.of_isOver hstate).2.1 rfl
  · obtain ⟨_, _, _, hjoined, hstate, -⟩ := exists_step_of_mem Step.isOver hrun hover hjoin
    exact (hjoined.of_isOver hstate).2.2 rfl

theorem Step.isOver_of_comeBack (h : Step server .comeBack next) (hsound : IsSound server) :
    IsOver next := by
  cases h with
  | comeBack howner hthread =>
    have hflag := hsound.flag_of_shuttingDown _ howner
    exact ⟨hflag, hsound.ended_of_joined hthread, hthread⟩

/-- Whoever comes back from shutting down has joined the thread. -/
theorem isOver_of_comeBack_mem (hrun : server.run? happenings = some later)
    (hsound : IsSound server) (hmem : .comeBack ∈ happenings) : IsOver later := by
  obtain ⟨_, _, _, hback, hbefore, hrest⟩ := exists_step_of_mem Step.isSound hrun hsound hmem
  exact preserved_of_run Step.isOver hrest (hback.isOver_of_comeBack hbefore)

/-! ### Shutting down comes to its end -/

theorem run?_again (hover : IsOver server) (hfree : server.owner = .free) :
    server.run? [.shutDown, .comeBack] = some server ∧
      server.run? [.drop, .comeBack] = some { server with owner := .gone } := by
  obtain ⟨flag, loop, owner, holdsThread, pending⟩ := server
  obtain ⟨rfl, rfl, rfl⟩ := hover
  obtain rfl : owner = .free := hfree
  exact ⟨rfl, rfl⟩

/-- Whatever the thread is about to do, a shutdown that begins can come to its end. -/
theorem run?_closing (hsound : IsSound server) (hfree : server.owner = .free) :
    ∃ closed, server.run? server.closing = some closed ∧ IsOver closed ∧ closed.owner = .free := by
  by_cases hthread : server.holdsThread = true
  · have hloop : server.loop ≠ .ended := by
      intro hended
      have hidle : server.isJoining = false := by rw [isJoining, hfree]
      have hjoined := hsound.joined_of_not_isJoining (hsound.flag_of_ended hended) hidle
      exact nomatch hthread.symm.trans hjoined
    obtain ⟨flag, loop, owner, holdsThread, pending⟩ := server
    obtain rfl : owner = .free := hfree
    obtain rfl : holdsThread = true := hthread
    cases loop with
    | checking => exact ⟨_, rfl, ⟨rfl, rfl, rfl⟩, rfl⟩
    | accepting => exact ⟨_, rfl, ⟨rfl, rfl, rfl⟩, rfl⟩
    | ended => exact absurd rfl hloop
  · have hjoined := (Bool.not_eq_true _).mp hthread
    have hflag := hsound.flag_of_ended (hsound.ended_of_joined hjoined)
    have hover := hsound.isOver hflag hjoined
    refine ⟨server, ?_, hover, hfree⟩
    rw [closing, if_neg hthread]
    exact (run?_again hover hfree).1

/-- In whatever order owner, thread and clients take their steps: the flag is set by the owner alone,
and after that at most one connection is accepted and nobody is told that the server runs; once a
shutdown has come back, no connection is accepted. Whatever comes of an attempt to accept, the thread
looks at the flag next, and only the flag ends it. A shutdown that begins can come to its end, and if
it is not the first, neither it nor anything after it joins a thread or changes more than what the
owner is doing. -/
theorem shutDown_in_any_order {before after : List Happening} {server later : Lifecycle}
    (hserver : started.run? before = some server) (hlater : server.run? after = some later) :
    (server.flag = true ↔ .shutDown ∈ before ∨ .drop ∈ before) ∧
      (server.flag = true → after.count .accept ≤ 1 ∧ .askRunning true ∉ after) ∧
      (.comeBack ∈ before → .accept ∉ after) ∧
      (∀ happening next, server.step? happening = some next →
        (happening = .accept ∨ happening = .findNone ∨ happening = .failToAccept →
            next.loop = .checking) ∧
          (server.loop ≠ .ended → next.loop = .ended →
            happening = .check ∧ server.flag = true)) ∧
      (server.owner = .free → ∃ closed, server.run? server.closing = some closed ∧
        closed.loop = .ended ∧ closed.owner = .free) ∧
      (server.flag = true → server.owner = .free →
        server.run? [.shutDown, .comeBack] = some server ∧
          server.run? [.drop, .comeBack] = some { server with owner := .gone } ∧
          .join ∉ after ∧ later = { server with owner := later.owner }) := by
  have hsound := isSound_of_run hserver
  refine ⟨?_, ?_, ?_, ?_, ?_, ?_⟩
  · have hflag := flag_iff_of_run hserver
    rwa [or_iff_right (by decide)] at hflag
  · intro hflag
    have hcount := count_accept_le_of_run hlater hflag
    exact ⟨Nat.le_trans hcount server.acceptsLeft_le, askRunning_not_mem_of_run hlater hflag⟩
  · intro hmem
    have hover := isOver_of_comeBack_mem hserver isSound_started hmem
    exact (of_run_of_isOver hlater hover).2.1
  · intro happening next hnext
    have hstep := step?_eq_some_iff.1 hnext
    exact ⟨hstep.loop_of_outcome, hstep.eq_check_of_ended⟩
  · intro hfree
    obtain ⟨closed, hclosed, hover, howner⟩ := run?_closing hsound hfree
    exact ⟨closed, hclosed, hover.loop_eq, howner⟩
  · intro hflag hfree
    have hidle : server.isJoining = false := by rw [isJoining, hfree]
    have hover := hsound.isOver hflag (hsound.joined_of_not_isJoining hflag hidle)
    obtain ⟨hagain, hlast⟩ := run?_again hover hfree
    obtain ⟨hsame, -, hjoin⟩ := of_run_of_isOver hlater hover
    exact ⟨hagain, hlast, hjoin, hsame⟩

/-- A connection is accepted after the flag is set, and a second shutdown and letting go of the
server then find nothing to do while another client is refused. -/
theorem shutDown_with_late_connection :
    let before : List Happening := [.connect, .check, .askRunning true, .shutDown]
    let after : List Happening := [.accept, .connect, .check, .join, .comeBack]
    let again : List Happening := [.askRunning false, .shutDown, .connect, .comeBack, .drop, .comeBack]
    let late : Lifecycle := ⟨true, .accepting, .shuttingDown false, true, 1⟩
    let joined : Lifecycle := ⟨true, .ended, .free, false, 0⟩
    started.run? before = some late ∧ late.run? after = some joined ∧
      joined.run? again = some { joined with owner := .gone } ∧ after.count .accept = 1 ∧
      after.count .accept ≤ 1 ∧ .accept ∉ again ∧ .join ∉ again := by
  intro before after again late joined
  have hlate : started.run? before = some late := rfl
  have hover : late.run? after = some joined := rfl
  have hgone : joined.run? again = some { joined with owner := .gone } := rfl
  obtain ⟨-, hcount, -⟩ := shutDown_in_any_order hlate hover
  have hboth : started.run? (before ++ after) = some joined := rfl
  obtain ⟨-, -, haccept, -, -, hjoin⟩ := shutDown_in_any_order hboth hgone
  exact ⟨hlate, hover, hgone, rfl, (hcount rfl).1, haccept (by decide), (hjoin rfl rfl).2.2.1⟩

end WireBench.Server.Lifecycle
